import ChatToken.Proofs.Network.Outcomes
import ChatToken.Proofs.Network.Places

/-! # Peers do not influence each other

A run and what is left of it for one peer alone go side by side: the connection is the same all the
time, and so is what the managers have for it, but for the numbers of its loads and for marks that
do not count any more. An event that concerns another connection changes nothing of that.
-/
namespace ChatToken.Network

open Manager (Deed)

variable {n n' : Network} {p m : Nat} {own own' : List LoadRef}

def Holder.placed (own : List LoadRef) : Holder → Holder
  | .load ref => .load (place own ref)
  | .caller c => .caller c

/-- In `n'` there is for `p` what there is in `n`, and nothing else: the connection, the clock, and
what can be told of the managers are the same, and loads have the numbers of their places. -/
structure Mirrors (p : Nat) (own own' : List LoadRef) (n n' : Network) : Prop where
  orderly : n.Orderly
  orderly' : n'.Orderly
  sane : n.Sane
  sane' : n'.Sane
  tracks : n.Tracks p own
  tracks' : n'.Tracks p own'
  alike : Alike p n n'
  managers : n'.managers.length = n.managers.length
  config : ∀ m, (n'.manager m).config = (n.manager m).config
  placed : own' = own.map (place own)
  fresh : ∀ m, m < n.managers.length →
    (n'.manager m).loader.nextLoad = (own.filter (·.manager = m)).length
  states : ∀ m, PeerState.Agrees (n.manager m).config n.now (fun id => (place own ⟨m,id⟩).load)
    (n.about m p) (n'.about m p)
  tasks : ∀ ref ∈ own, (n'.manager ref.manager).loader.tasks.get? (place own ref).load =
    (n.manager ref.manager).loader.tasks.get? ref.load
  endings : ∀ ref ∈ own, n'.ending? (place own ref) = n.ending? ref
  held : ∀ h, Holder.In own h → n'.held (Holder.placed own h) = n.heldOver p h

theorem callsOver_isSome (n : Network) (p c : Nat) :
    n.callsOver p c = (n.heldOver p (.caller c)).isSome := by
  unfold callsOver heldOver held
  cases n.exchanges.get? (.caller c) with
  | none => rfl
  | some x =>
    by_cases hp : x.peer = p
    · have hp' : x.unnumbered.peer = p := hp
      simp [hp, hp']
    · have hp' : ¬ x.unnumbered.peer = p := hp
      simp [hp, hp']

namespace Mirrors

variable {e e' : Event} {ref : LoadRef}

theorem mem (h : Mirrors p own own' n n') (href : ref ∈ own) : place own ref ∈ own' :=
  h.placed ▸ List.mem_map_of_mem href

theorem held_load (h : Mirrors p own own' n n') (href : ref ∈ own) :
    n'.held (.load (place own ref)) = n.held (.load ref) :=
  (h.held (.load ref) href).trans (heldOver_of_over (h.tracks.goesOver h.sane href))

/-- The turn of a load of the peer comes to the same. -/
theorem turn (h : Mirrors p own own' n n') (href : ref ∈ own) :
    Alike p (n.step (.turn ref)) (n'.step (.turn (place own ref))) ∧
    (n'.step (.turn (place own ref))).held (.load (place own ref)) =
      (n.step (.turn ref)).held (.load ref) ∧
    ∀ t, (n.manager ref.manager).loader.tasks.get? ref.load = some t →
      ((n'.called (place own ref)).work (place own ref) t).1 = ((n.called ref).work ref t).1 := by
  have htask' := h.tasks ref href
  have hcalled : Alike p (n.called ref) (n'.called (place own ref)) :=
    ⟨h.alike.now,h.alike.sounded,h.alike.length,h.alike.peer⟩
  cases htask : (n.manager ref.manager).loader.tasks.get? ref.load with
  | none =>
    rw [htask] at htask'
    have hstep : n.step (.turn ref) = n.called ref := runLoad_of_gone (n.called ref) htask
    have hstep' : n'.step (.turn (place own ref)) = n'.called (place own ref) :=
      runLoad_of_gone (n'.called (place own ref)) htask'
    rw [hstep, hstep']
    exact ⟨hcalled,h.held_load href,by simp⟩
  | some t =>
    rw [htask] at htask'
    have hkey := (h.tracks.tasks ref t htask).mp href
    have hgoes := (arrive_of_sound (n := n.called ref) (h.orderly ref.manager) htask).1
    have hgoes' : ((n'.called (place own ref)).arrive (place own ref) t.key).1 = false :=
      (arrive_of_sound (n := n'.called (place own ref)) (h.orderly' (place own ref).manager) htask').1
    have hheld : (n'.called (place own ref)).held (.load (place own ref)) =
        (n.called ref).held (.load ref) := h.held_load href
    obtain ⟨hw,ha,hh,ho⟩ := hcalled.work hheld (h.tracks.goesOver h.sane href) (h.config ref.manager)
      hkey hgoes hgoes'
    rw [step_turn n htask, step_turn n' htask', hw, hkey]
    obtain ⟨hr,hh'⟩ := ha.record hh ho ((n.called ref).work ref t).1
    refine ⟨hr,hh',?_⟩
    rintro t' ⟨⟩
    exact hw

theorem inner (h : Mirrors p own own' n n') {e e' : Event} (hi : Inner n (n.step e))
    (hi' : Inner n' (n'.step e')) (hs : e ≠ .sound) (hs' : e' ≠ .sound) :
    Alike p (n.step e) (n'.step e') :=
  h.alike.inner hi ((n.step_sounded e).trans (if_neg hs)) hi'
    ((n'.step_sounded e').trans (if_neg hs'))

/-- The exchange of a caller, if it goes over `p`. -/
theorem held_caller (h : Mirrors p own own' n n') {c : Nat} (hc : n.callsOver p c = true) :
    n.GoesOver p (.caller c) ∧ n'.held (.caller c) = n.held (.caller c) := by
  have ho : n.GoesOver p (.caller c) := by
    intro x hx
    rw [callsOver, hx] at hc
    simpa using hc
  exact ⟨ho,(h.held (.caller c) trivial).trans (heldOver_of_over ho)⟩

theorem held_none (h : Mirrors p own own' n n') {c : Nat}
    (hc : n.exchanges.contains (.caller c) = false) :
    n'.exchanges.contains (.caller c) = false := by
  have hx : n.exchanges.get? (.caller c) = none := by simpa [Table.contains] using hc
  have ho : n.GoesOver p (.caller c) := fun x hx' => by rw [hx] at hx'; cases hx'
  have hh : n'.held (.caller c) = n.held (.caller c) :=
    (h.held (.caller c) trivial).trans (heldOver_of_over ho)
  rw [Table.contains, Alike.no_exchange hh hx]
  rfl

/-! ### Events that concern the peer -/

/-- An event that is about no exchange does the same to the connection. -/
theorem alike_unheld (h : Mirrors p own own' n n') (hk : n.secluded? p own e = some e')
    (he : e.holder? = none) : Alike p (n.step e) (n'.step e') := by
  cases e <;> cases he <;>
    simp only [secluded?, Option.ite_none_right_eq_some, Option.some.injEq] at hk
  case lookup m q =>
    obtain ⟨rfl,rfl⟩ := hk
    exact h.inner (n.inner_lookup m q) (n'.inner_lookup m q) (by simp) (by simp)
  case isUnsupported m q =>
    obtain ⟨rfl,rfl⟩ := hk
    exact h.inner (n.inner_checkMark m q) (n'.inner_checkMark m q) (by simp) (by simp)
  case forget m q =>
    obtain ⟨rfl,rfl⟩ := hk
    exact h.inner (n.inner_forget m q) (n'.inner_forget m q) (by simp) (by simp)
  case observe ref =>
    obtain ⟨-,rfl⟩ := hk
    exact h.inner (n.inner_observe ref) (n'.inner_observe _) (by simp) (by simp)
  case send q command args =>
    obtain ⟨rfl,rfl⟩ := hk
    exact (h.alike.send command args).2
  case deliver q m =>
    obtain ⟨rfl,rfl⟩ := hk
    exact h.alike.deliver m
  case disconnect q =>
    obtain ⟨rfl,rfl⟩ := hk
    exact h.alike.disconnect
  case receive q r =>
    obtain ⟨rfl,rfl⟩ := hk
    exact h.alike.receive r
  case finishStream q =>
    obtain ⟨rfl,rfl⟩ := hk
    exact h.alike.finishStream
  case failWriting q reason =>
    obtain ⟨rfl,rfl⟩ := hk
    exact h.alike.failWriting reason
  case prepare | advertise =>
    obtain ⟨rfl,rfl⟩ := hk
    exact h.alike.onPeer rfl
  case pass nanos =>
    subst hk
    exact ⟨congrArg (· + nanos) h.alike.now,h.alike.sounded,h.alike.length,h.alike.peer⟩
  case sound =>
    subst hk
    exact h.alike.soundTimers

/-- An event that is about an exchange does the same to it and to the connection. -/
theorem alike_held (h : Mirrors p own own' n n') (hk : n.secluded? p own e = some e') {h₀ : Holder}
    (he : e.holder? = some h₀) : Holder.In own h₀ ∧ Alike p (n.step e) (n'.step e') ∧
      (n.step e).GoesOver p h₀ ∧
      (n'.step e').held (Holder.placed own h₀) = (n.step e).held h₀ := by
  cases e <;> cases he <;>
    simp only [secluded?, Option.ite_none_right_eq_some, Option.some.injEq] at hk
  case turn ref =>
    obtain ⟨href,rfl⟩ := hk
    obtain ⟨ha,hh,-⟩ := h.turn href
    have ht := h.tracks.step h.orderly (.turn ref)
    exact ⟨href,ha,ht.goesOver (h.sane.step h.orderly _) href,hh⟩
  case die ref =>
    obtain ⟨href,rfl⟩ := hk
    obtain ⟨ha,hh⟩ := h.alike.dropLoad (h.held_load href) (h.tracks.goesOver h.sane href)
    have ht := h.tracks.step h.orderly (.die ref)
    exact ⟨href,ha,ht.goesOver (h.sane.step h.orderly _) href,hh⟩
  case listen c q matcher timeout =>
    obtain ⟨⟨rfl,hc⟩,rfl⟩ := hk
    obtain ⟨ha,hh,ho⟩ := h.alike.openExchange (.caller c) (.caller c) matcher timeout
    simp only [Network.step, hc, h.held_none hc]
    exact ⟨trivial,ha,ho,hh⟩
  case look c =>
    obtain ⟨hc,rfl⟩ := hk
    obtain ⟨ho,hh⟩ := h.held_caller hc
    obtain ⟨-,ha,hh',ho'⟩ := h.alike.pollExchange hh ho
    exact ⟨trivial,ha,ho',hh'⟩
  case hangUp c =>
    obtain ⟨hc,rfl⟩ := hk
    obtain ⟨ho,hh⟩ := h.held_caller hc
    obtain ⟨ha,hh'⟩ := h.alike.closeExchange hh ho
    exact ⟨trivial,ha,Alike.goesOver_closeExchange _ p _,hh'⟩

theorem alike_step (h : Mirrors p own own' n n') (hk : n.secluded? p own e = some e') :
    Alike p (n.step e) (n'.step e') := by
  cases he : e.holder? with
  | none => exact h.alike_unheld hk he
  | some h₀ => exact (h.alike_held hk he).2.1

/-- An event that concerns `p` is about the exchange of the same place. -/
theorem holder_of_secluded? (hk : n.secluded? p own e = some e') :
    e'.holder? = e.holder?.map (Holder.placed own) := by
  cases e <;> simp only [secluded?, Option.ite_none_right_eq_some, Option.some.injEq] at hk
  case pass | sound =>
    subst hk
    rfl
  all_goals
    obtain ⟨-,rfl⟩ := hk
    rfl

/-- It does the same deeds, to the loads of the same places. -/
theorem deed (h : Mirrors p own own' n n') (hk : n.secluded? p own e = some e') (m : Nat) :
    n'.deed? m e' = (n.deed? m e).map (Deed.relabel fun id => (place own ⟨m,id⟩).load) := by
  cases e with
  | lookup m' q | isUnsupported m' q | forget m' q =>
    obtain rfl := Option.some.inj (Option.ite_none_right_eq_some.mp hk).2
    simp only [deed?]
    split <;> rfl
  | turn ref =>
    obtain ⟨href,he⟩ := Option.ite_none_right_eq_some.mp hk
    obtain rfl := Option.some.inj he
    by_cases hm : ref.manager = m
    · subst hm
      cases htask : (n.manager ref.manager).loader.tasks.get? ref.load with
      | none =>
        have hd : n.deed? ref.manager (.turn ref) = none :=
          (if_pos rfl).trans (turnDeed?_of_gone (n.called ref) htask)
        have hd' : n'.deed? ref.manager (.turn (place own ref)) = none :=
          (if_pos rfl).trans
            (turnDeed?_of_gone (n'.called (place own ref)) ((h.tasks ref href).trans htask))
        rw [hd, hd']
        rfl
      | some t =>
        have hd : n.deed? ref.manager (.turn ref) = _ := n.deed?_turn htask
        have hd' : n'.deed? ref.manager (.turn (place own ref)) = _ :=
          n'.deed?_turn ((h.tasks ref href).trans htask)
        rw [hd, hd', (h.turn href).2.2 t htask]
        generalize ((n.called ref).work ref t).1 = w
        cases w <;> cases t.begun <;> rfl
    · have hd : n.deed? m (.turn ref) = none := if_neg hm
      have hd' : n'.deed? m (.turn (place own ref)) = none := if_neg hm
      rw [hd, hd']
      rfl
  | die ref =>
    obtain ⟨href,he⟩ := Option.ite_none_right_eq_some.mp hk
    obtain rfl := Option.some.inj he
    by_cases hm : ref.manager = m
    · subst hm
      have hd : n.deed? ref.manager (.die ref) = some (.abandon ref.load) := if_pos rfl
      have hd' : n'.deed? ref.manager (.die (place own ref)) =
          some (.abandon (place own ref).load) := if_pos rfl
      rw [hd, hd']
      rfl
    · have hd : n.deed? m (.die ref) = none := if_neg hm
      have hd' : n'.deed? m (.die (place own ref)) = none := if_neg hm
      rw [hd, hd']
      rfl
  | pass | sound =>
    cases hk
    rfl
  | _ =>
    obtain rfl := Option.some.inj (Option.ite_none_right_eq_some.mp hk).2
    rfl

theorem of_lookup {q : Nat} (hk : n.secluded? p own e = some (.lookup m q)) :
    e = .lookup m p ∧ q = p := by
  cases e with
  | pass | sound => cases hk
  | lookup m' q' =>
    obtain ⟨rfl,he⟩ := Option.ite_none_right_eq_some.mp hk
    cases Option.some.inj he
    exact ⟨rfl,rfl⟩
  | _ => cases Option.some.inj (Option.ite_none_right_eq_some.mp hk).2

theorem lookup_self (hk : n.secluded? p own (.lookup m p) = some e') : e' = .lookup m p :=
  (Option.some.inj (Option.ite_none_right_eq_some.mp hk).2).symm

/-- The next load of a manager has the number after those of the peer. -/
theorem nextRef (h : Mirrors p own own' n n') (hm : m < n.managers.length) :
    place own (n.nextRef m) = n'.nextRef m := by
  rw [place_missing (h.tracks.nextRef hm), Network.nextRef, Network.nextRef, h.fresh m hm]

theorem counts (h : Mirrors p own own' n n') (m : Nat) :
    (n'.about m p).counts (n'.manager m).config n'.now =
      (n.about m p).counts (n.manager m).config n.now := by
  rw [h.config m, h.alike.now]
  exact (h.states m).counts

/-- The loads of the peer are the same but for their numbers. -/
theorem issued_placed (h : Mirrors p own own' n n') (hk : n.secluded? p own e = some e') :
    n'.issued p own' e' = (n.issued p own e).map (place (n.issued p own e)) := by
  by_cases hl : ∃ m, e = .lookup m p
  · obtain ⟨m,rfl⟩ := hl
    obtain rfl := lookup_self hk
    by_cases hm : m < n.managers.length
    · rw [h.tracks'.issued h.orderly' (h.managers ▸ hm), h.tracks.issued h.orderly hm, h.counts m]
      split
      · exact h.placed
      · rw [map_place_append (h.tracks.nextRef hm), h.nextRef hm, h.placed]
    · have hzero := h.tracks.place_absent hm
      have hmem : ⟨m,0⟩ ∈ own' ↔ ⟨m,0⟩ ∈ own := by
        refine ⟨fun hown' => ?_,fun hown => hzero ▸ h.mem hown⟩
        rw [h.placed] at hown'
        obtain ⟨ref,href,he⟩ := List.mem_map.mp hown'
        exact place_inj href (he.trans hzero.symm) ▸ href
      rw [issued_lookup, issued_lookup, lookup_missing hm, lookup_missing (h.managers ▸ hm)]
      dsimp only
      simp only [hmem]
      split
      · exact h.placed
      · next hno => rw [map_place_append hno, hzero, h.placed]
  · rw [issued_of_ne fun m he => hl ⟨m,he⟩,
      issued_of_ne fun m he => hl ⟨m,(of_lookup (he ▸ hk)).1⟩]
    exact h.placed

theorem fresh_step (h : Mirrors p own own' n n') (hk : n.secluded? p own e = some e')
    (hm : m < n.managers.length) : ((n'.step e').manager m).loader.nextLoad =
      ((n.issued p own e).filter (·.manager = m)).length := by
  have hm' : m < n'.managers.length := h.managers ▸ hm
  by_cases hl : e = .lookup m p
  · subst hl
    obtain rfl := lookup_self hk
    have hnext : ((n'.step (.lookup m p)).manager m).loader.nextLoad = _ :=
      lookup_nextLoad h.orderly' hm' p
    rw [h.counts m, h.fresh m hm] at hnext
    rw [h.tracks.issued h.orderly hm]
    split
    · next hc => simpa [hc] using hnext
    · next hc => simpa [hc, Network.nextRef] using hnext
  · have hsame : (n.issued p own e).filter (·.manager = m) = own.filter (·.manager = m) := by
      by_cases ho : ∃ m₀, e = .lookup m₀ p
      · obtain ⟨m₀,rfl⟩ := ho
        have hne : m₀ ≠ m := fun he => hl (by rw [he])
        rcases n.issued_cases p own (.lookup m₀ p) with hi | ⟨ref,hno,hi⟩
        · rw [hi]
        · have href : ref ∈ n.issued p own (.lookup m₀ p) := by simp [hi]
          obtain ⟨he,_⟩ := h.tracks.new h.orderly href hno
          cases he
          rw [hi, List.filter_append, List.filter_singleton]
          simp [hne]
      · rw [issued_of_ne fun m he => ho ⟨m,he⟩]
    rw [hsame, step_nextLoad h.orderly' hm', h.fresh m hm]
    rintro q rfl
    exact hl (of_lookup hk).1

/-- A deed to a load of the peer is about no other load on the other side. -/
theorem relabel_load_iff {d : Deed} (hd : d.Concerns p (⟨ref.manager,·⟩ ∈ own)) :
    (d.relabel fun id => (place own ⟨ref.manager,id⟩).load).load? = some (place own ref).load ↔
      d.load? = some ref.load := by
  rw [Deed.relabel_load?]
  cases hl : d.load? with
  | none => simp
  | some id =>
    have hid : (⟨ref.manager,id⟩ : LoadRef) ∈ own := Deed.own_of_concerns hl hd
    simp only [Option.map_some, Option.some.injEq]
    refine ⟨fun he => ?_,fun he => by rw [he]⟩
    exact place_load_inj hid he

/-- The loads that were there before come to the same. -/
theorem old_load (h : Mirrors p own own' n n') (hk : n.secluded? p own e = some e')
    (href : ref ∈ own) (hm : ref.manager < n.managers.length) :
    ((n'.step e').manager ref.manager).loader.tasks.get? (place own ref).load =
      ((n.step e).manager ref.manager).loader.tasks.get? ref.load ∧
    (n'.step e').ending? (place own ref) = (n.step e).ending? ref := by
  have hm' : ref.manager < n'.managers.length := h.managers ▸ hm
  have hd' := h.deed hk ref.manager
  have ht := h.tasks ref href
  have he := h.endings ref href
  unfold ending? at he ⊢
  rw [place_manager] at he ⊢
  rw [step_manager n' h.orderly' e' hm', step_manager n h.orderly e hm, hd']
  cases hd : n.deed? ref.manager e with
  | none => exact ⟨ht,he⟩
  | some d =>
    rw [hd] at hd'
    have hfits := deed?_fits h.orderly hd
    have hfits' := deed?_fits h.orderly' hd'
    have hown := concerns hk hd
    dsimp only [Option.map_some, Option.elim_some]
    rw [h.alike.now]
    by_cases hl : d.load? = some ref.load
    · exact Manager.act_load (h.orderly _) (h.orderly' _) hfits hfits' hl ht he
    · have hl' := (relabel_load_iff hown).not.mpr hl
      have hmoved : Manager.Moved _ n.now d _ := Manager.act_moved (h.orderly _) hfits
      have hmoved' : Manager.Moved _ n.now (d.relabel _) _ :=
        Manager.act_moved (h.orderly' _) hfits'
      obtain ⟨ht₁,he₁⟩ := hmoved.other_load (h.tracks.started ref href hm) hl
      obtain ⟨ht₂,he₂⟩ := hmoved'.other_load
        (h.tracks'.started (place own ref) (h.mem href) hm') hl'
      exact ⟨ht₂.trans (ht.trans ht₁.symm),he₂.trans (he.trans he₁.symm)⟩

/-- A load of a manager that is not there is none on both sides. -/
theorem unsent_both (h : Mirrors p own own' n n') (e e' : Event) {ref : LoadRef}
    (hm : ¬ ref.manager < n.managers.length) :
    (n.step e).Unsent ref none ∧ (n'.step e').Unsent (place own ref) none := by
  have hstep : ¬ ref.manager < (n.step e).managers.length := by rwa [n.step_managers_length e]
  have hstep' : ¬ (place own ref).manager < (n'.step e').managers.length := by
    rwa [n'.step_managers_length e', h.managers]
  exact ⟨unsent_absent (h.sane.step h.orderly e) hstep,
    unsent_absent (h.sane'.step h.orderly' e') hstep'⟩

/-- A load that is new is new on both sides. -/
theorem unsent_new (h : Mirrors p own own' n n') (hk : n.secluded? p own e = some e')
    (href : ref ∈ n.issued p own e) (hown : ref ∉ own) :
    ∃ t?, (n.step e).Unsent ref t? ∧ (n'.step e').Unsent (place own ref) t? := by
  by_cases hm : ref.manager < n.managers.length
  · obtain ⟨rfl,hnew,_⟩ := h.tracks.new h.orderly href hown
    obtain rfl := lookup_self hk
    obtain ⟨hnext,hc⟩ := hnew hm
    have hw := lookup_unsent h.orderly h.sane hm hc
    have hw' := lookup_unsent h.orderly' h.sane' (h.managers ▸ hm) ((h.counts _).trans hc)
    rw [← h.nextRef hm, ← hnext] at hw'
    rw [← hnext] at hw
    exact ⟨_,hw,hw'⟩
  · exact ⟨none,h.unsent_both e e' hm⟩

/-- All loads of the peer come to the same. -/
theorem loads_step (h : Mirrors p own own' n n') (hk : n.secluded? p own e = some e')
    (href : ref ∈ n.issued p own e) :
    ((n'.step e').manager ref.manager).loader.tasks.get? (place own ref).load =
      ((n.step e).manager ref.manager).loader.tasks.get? ref.load ∧
    (n'.step e').ending? (place own ref) = (n.step e).ending? ref := by
  by_cases hown : ref ∈ own
  · by_cases hm : ref.manager < n.managers.length
    · exact h.old_load hk hown hm
    · obtain ⟨hu,hu'⟩ := h.unsent_both e e' hm
      exact ⟨hu'.task.trans hu.task.symm,hu'.ending.trans hu.ending.symm⟩
  · obtain ⟨_,hu,hu'⟩ := h.unsent_new hk href hown
    exact ⟨hu'.task.trans hu.task.symm,hu'.ending.trans hu.ending.symm⟩

/-- What can be told of the peer stays the same. -/
theorem states_step (h : Mirrors p own own' n n') (hk : n.secluded? p own e = some e') (m : Nat) :
    PeerState.Agrees ((n.step e).manager m).config (n.step e).now
      (fun id => (place own ⟨m,id⟩).load) ((n.step e).about m p) ((n'.step e').about m p) := by
  by_cases hm : m < n.managers.length
  · have hlater := n.now_le_step e
    have hs := h.states m
    rw [step_config h.orderly e m, step_about h.orderly hm,
      step_about h.orderly' (h.managers ▸ hm), h.config m, h.alike.now, h.deed hk m]
    cases hd : n.deed? m e with
    | none => exact hs.later hlater
    | some d =>
      refine (hs.next (concerns hk hd) (fun id hid => h.tracks.pending h.orderly hid) ?_ ?_).later
        hlater
      · exact fun id id' hid _ he => place_load_inj hid he
      · exact congrArg LoadRef.load (h.nextRef hm)
  · have hnone : (n.step e).manager m = Manager.new {} :=
      manager_of_not_lt (by rwa [n.step_managers_length e])
    have hnone' : (n'.step e').manager m = Manager.new {} :=
      manager_of_not_lt (by rwa [n'.step_managers_length e', h.managers])
    rw [Network.about, Network.about, hnone, hnone']
    rfl

theorem placed_inj {h₀ h₁ : Holder} (hin : Holder.In own h₀)
    (he : Holder.placed own h₀ = Holder.placed own h₁) : h₀ = h₁ := by
  cases h₀ <;> cases h₁
  · exact congrArg Holder.load (place_inj hin (Holder.load.inj he))
  · cases he
  · cases he
  · exact congrArg Holder.caller (Holder.caller.inj he)

theorem held_stays (h : Mirrors p own own' n n') (hk : n.secluded? p own e = some e') {h₀ : Holder}
    (hin : Holder.In (n.issued p own e) h₀) :
    (n'.step e').held (Holder.placed own h₀) = (n.step e).heldOver p h₀ := by
  by_cases hh : e.holder? = some h₀
  · obtain ⟨_,_,ho,he⟩ := h.alike_held hk hh
    exact he.trans (heldOver_of_over ho).symm
  · by_cases hown : Holder.In own h₀
    · have hh' : e'.holder? ≠ some (Holder.placed own h₀) := by
        intro he
        rw [holder_of_secluded? hk] at he
        obtain ⟨h₁,he₁,hp⟩ := Option.map_eq_some_iff.mp he
        exact hh (he₁.trans (congrArg some (placed_inj (h.alike_held hk he₁).1 hp)))
      have hstay := held_step h.orderly h.sane hh
      have hstay' := held_step h.orderly' h.sane' hh'
      rw [hstay', h.held h₀ hown, heldOver, heldOver, hstay]
    · cases h₀ with
      | caller c => exact absurd trivial hown
      | load ref =>
        obtain ⟨_,hu,hu'⟩ := h.unsent_new hk hin hown
        rw [heldOver, hu.request]
        exact hu'.request

theorem keep (h : Mirrors p own own' n n') (hk : n.secluded? p own e = some e') :
    Mirrors p (n.issued p own e) (n'.issued p own' e') (n.step e) (n'.step e') where
  orderly := h.orderly.step e
  orderly' := h.orderly'.step e'
  sane := h.sane.step h.orderly e
  sane' := h.sane'.step h.orderly' e'
  tracks := h.tracks.step h.orderly e
  tracks' := h.tracks'.step h.orderly' e'
  alike := h.alike_step hk
  managers := by rw [n.step_managers_length e, n'.step_managers_length e', h.managers]
  config m := by rw [step_config h.orderly e m, step_config h.orderly' e' m, h.config m]
  placed := h.issued_placed hk
  fresh m hm := h.fresh_step hk (n.step_managers_length e ▸ hm)
  states m := (h.states_step hk m).congr fun id hid => by
    have hown := (h.tracks.step h.orderly e).pending (h.orderly.step e) hid
    rw [place_issued hown]
  tasks ref href := by
    rw [place_issued href]
    exact (h.loads_step hk href).1
  endings ref href := by
    rw [place_issued href]
    exact (h.loads_step hk href).2
  held h₀ hin := by
    have hplaced : Holder.placed (n.issued p own e) h₀ = Holder.placed own h₀ := by
      cases h₀ with
      | load ref => exact congrArg Holder.load (place_issued hin)
      | caller c => rfl
    rw [hplaced]
    exact h.held_stays hk hin

theorem answer_lookup (h : Mirrors p own own' n n')
    (hk : n.secluded? p own (.lookup m p) = some e') :
    Network.placed (n'.issued p own' (.lookup m p)) (n'.lookup m p).1 =
      Network.placed (n.issued p own (.lookup m p)) (n.lookup m p).1 := by
  obtain rfl := lookup_self hk
  have hkeep := h.keep hk
  by_cases hm : m < n.managers.length
  · have hm' : m < n'.managers.length := h.managers ▸ hm
    have hs : (n'.about m p).lookedUp (n.manager m).config n.now (n'.manager m).loader.nextLoad =
        _ := (h.states m).lookedUp (congrArg LoadRef.load (h.nextRef hm))
    have habout := lookup_about h.orderly hm p
    have habout' := lookup_about h.orderly' hm' p
    rw [h.config m, h.alike.now] at habout'
    rw [lookup_answer h.orderly hm, lookup_answer h.orderly' hm', habout', hs, ← habout]
    cases hpeer : (n.lookup m p).2.about m p with
    | pending id =>
      have hown := hkeep.tracks.pending hkeep.orderly hpeer
      refine congrArg TokenLookup.pending ?_
      rw [hkeep.placed]
      have hsame : place own ⟨m,id⟩ = place (n.issued p own (.lookup m p)) ⟨m,id⟩ :=
        (place_issued hown).symm
      refine (congrArg (place _) hsame).trans (place_place _ _)
    | _ => rfl
  · have hm' : ¬ m < n'.managers.length := h.managers ▸ hm
    have hzero := hkeep.tracks.place_absent (m := m) (by rwa [n.step_managers_length _])
    have hzero' := hkeep.tracks'.place_absent (m := m) (by rwa [n'.step_managers_length _])
    rw [lookup_missing hm, lookup_missing hm']
    exact congrArg TokenLookup.pending (hzero'.trans hzero.symm)

/-- The callers that have an exchange over the peer are the same. -/
theorem callsOver_eq (h : Mirrors p own own' n n') (c : Nat) :
    n'.callsOver p c = n.callsOver p c := by
  have hheld : n'.held (.caller c) = n.heldOver p (.caller c) := h.held (.caller c) trivial
  rw [callsOver_isSome, callsOver_isSome, heldOver, hheld, heldOver, Option.filter_filter]
  simp

/-- The same is answered. -/
theorem answered_eq (h : Mirrors p own own' n n') (hk : n.secluded? p own e = some e') :
    n'.answered p own' e' = n.answered p own e := by
  cases e with
  | lookup m q =>
    obtain ⟨rfl,he⟩ := Option.ite_none_right_eq_some.mp hk
    obtain rfl := Option.some.inj he
    simp only [answered, if_true, h.answer_lookup hk]
  | isUnsupported m q =>
    obtain ⟨rfl,he⟩ := Option.ite_none_right_eq_some.mp hk
    obtain rfl := Option.some.inj he
    have hanswer : (n'.isUnsupported m q).1 = (n.isUnsupported m q).1 := by
      rw [Bool.eq_iff_iff, isUnsupported_answer h.orderly', isUnsupported_answer h.orderly,
        h.config m, h.alike.now]
      exact (h.states m).marked
    simp only [answered, if_true, hanswer]
  | observe ref =>
    obtain ⟨href,he⟩ := Option.ite_none_right_eq_some.mp hk
    obtain rfl := Option.some.inj he
    have hplace : place own' (place own ref) = place own ref := by rw [h.placed, place_place]
    simp only [answered, if_pos href, if_pos (h.mem href), hplace]
    rw [observe_outcome, observe_outcome, h.endings ref href]
  | look c =>
    obtain ⟨hc,he⟩ := Option.ite_none_right_eq_some.mp hk
    obtain rfl := Option.some.inj he
    obtain ⟨ho,hh⟩ := h.held_caller hc
    simp only [answered, if_pos hc, if_pos ((h.callsOver_eq c).trans hc), (h.alike.pollExchange hh ho).1]
  | pass | sound =>
    cases hk
    rfl
  | _ =>
    obtain rfl := Option.some.inj (Option.ite_none_right_eq_some.mp hk).2
    rfl

theorem sights_eq (h : Mirrors p own own' n n') (hk : n.secluded? p own e = some e') :
    n'.sights p own' e' = n.sights p own e := by
  rw [sights, sights, h.answered_eq hk, sentSince, sentSince, (h.alike_step hk).peer, h.alike.peer]

/-- An event that does not concern the peer makes no difference. -/
theorem ignore (h : Mirrors p own own' n n') (hk : n.secluded? p own e = none) :
    Mirrors p own own' (n.step e) n' := by
  have hf := foreign h.orderly h.sane h.tracks hk
  have hissued := issued_of_foreign hk
  have hlen := n.step_managers_length e
  have hconfig := step_config h.orderly e
  have hloads : ∀ ref ∈ own, ((n.step e).manager ref.manager).loader.tasks.get? ref.load =
      (n.manager ref.manager).loader.tasks.get? ref.load ∧
      (n.step e).ending? ref = n.ending? ref := by
    intro ref href
    by_cases hm : ref.manager < n.managers.length
    · refine step_other_load h.orderly hm (h.tracks.started ref href hm) ?_ ?_
      · rintro rfl
        exact Option.some_ne_none _ ((if_pos href).symm.trans hk)
      · rintro rfl
        exact Option.some_ne_none _ ((if_pos href).symm.trans hk)
    · have hu := unsent_absent h.sane hm
      have hu' := unsent_absent (h.sane.step h.orderly e) (hlen ▸ hm)
      exact ⟨hu'.task.trans hu.task.symm,hu'.ending.trans hu.ending.symm⟩
  exact {
    orderly := h.orderly.step e
    orderly' := h.orderly'
    sane := h.sane.step h.orderly e
    sane' := h.sane'
    tracks := hissued ▸ h.tracks.step h.orderly e
    tracks' := h.tracks'
    alike := ⟨h.alike.now.trans hf.now.symm,h.alike.sounded.trans hf.sounded.symm,
      h.alike.length.trans (n.step_peers_length e).symm,h.alike.peer.trans hf.peer.symm⟩
    managers := h.managers.trans hlen.symm
    config := fun m => (h.config m).trans (hconfig m).symm
    placed := h.placed
    fresh := fun m hm => h.fresh m (hlen ▸ hm)
    states := by
      intro m
      rw [hconfig m, hf.now]
      by_cases hm : m < n.managers.length
      · rw [step_about h.orderly hm]
        cases hd : n.deed? m e with
        | none => exact h.states m
        | some d =>
          exact (h.states m).next_other (spares hk hd) fun id hid => h.tracks.pending h.orderly hid
      · have hsame : (n.step e).about m p = n.about m p := by
          rw [Network.about, Network.about, manager_of_not_lt hm, manager_of_not_lt (hlen ▸ hm)]
        rw [hsame]
        exact h.states m
    tasks := fun ref href => (h.tasks ref href).trans (hloads ref href).1.symm
    endings := fun ref href => (h.endings ref href).trans (hloads ref href).2.symm
    held := fun h₀ hin => (h.held h₀ hin).trans (hf.held h₀ hin).symm }

/-- What is left of a run for the peer alone comes to the same for it. -/
theorem after (h : Mirrors p own own' n n') (es : List Event) :
    n'.transcript p own' (n.secluded p own es) = n.transcript p own es ∧
    ∃ own₁, Mirrors p (n.issuedAfter p own es) own₁ (n.after es)
      (n'.after (n.secluded p own es)) := by
  induction es generalizing n n' own own' with
  | nil => exact ⟨rfl,own',h⟩
  | cons e es ih =>
    simp only [Network.secluded, Network.transcript, Network.issuedAfter, after_cons]
    cases hk : n.secluded? p own e with
    | none =>
      obtain ⟨ht,hm⟩ := ih (h.ignore hk)
      rw [issued_of_foreign hk, sights_of_foreign h.orderly h.sane h.tracks hk]
      exact ⟨ht,hm⟩
    | some e' =>
      obtain ⟨ht,hm⟩ := ih (h.keep hk)
      refine ⟨?_,hm⟩
      simp only [Option.toList_some, List.singleton_append, Network.transcript]
      rw [ht, h.sights_eq hk, h.alike.now]

end Mirrors

/-- At the start there is nothing, and it is the same for everybody. -/
theorem mirrors_start (peers : List Peer) (configs : List TokenConfig) (p : Nat) :
    Mirrors p [] [] (start peers configs) (start peers configs) where
  orderly := orderly_start peers configs
  orderly' := orderly_start peers configs
  sane := sane_start peers configs
  sane' := sane_start peers configs
  tracks := tracks_start peers configs p
  tracks' := tracks_start peers configs p
  alike := .refl p _
  managers := rfl
  config _ := rfl
  placed := rfl
  fresh m _ := by
    rw [start_manager]
    rfl
  states m := by
    rw [about, start_manager]
    rfl
  tasks := by simp
  endings := by simp
  held h hin := by
    cases h with
    | load ref => cases hin
    | caller c => rfl

/-- Peers do not influence each other, whatever happens to the managers, the connections, the loads
and the clock. If all events are left out that concern other connections than `p`, their lookups,
their deliveries, the turns and deaths of their loads and so on, and only those that move the clock
are kept besides its own, then every lookup and every check of `p` is answered with the same as
before, everybody who looks at a load or an exchange over `p` sees the same, and the same is sent to
`p`, everything at the same time. In the end the connection is as it was. -/
theorem peers_secluded (peers : List Peer) (configs : List TokenConfig) (es : List Event) (p : Nat) :
    let n := start peers configs
    let alone := n.secluded p [] es
    n.transcript p [] alone = n.transcript p [] es ∧
    (n.after alone).peer p = (n.after es).peer p ∧ (n.after alone).now = (n.after es).now := by
  intro n alone
  obtain ⟨ht,_,hm⟩ := (mirrors_start peers configs p).after es
  exact ⟨ht,hm.alike.peer,hm.alike.now⟩

-- The second load of a manager is the first one of its peer.
example : (start [{ name := "a" },{ name := "b" }] [{}]).secluded 1 []
    [.lookup 0 0,.lookup 0 1,.disconnect 0,.turn ⟨0,0⟩,.turn ⟨0,1⟩,.pass 5,.observe ⟨0,1⟩] =
      [.lookup 0 1,.turn ⟨0,0⟩,.pass 5,.observe ⟨0,0⟩] := by decide +kernel

end ChatToken.Network
