import ChatToken.Network.Seclusion
import ChatToken.Proofs.Manager.Agreement
import ChatToken.Proofs.Network.Alike

/-! # The loads of a peer and their numbers

The lookups of a peer are answered with its loads, which are counted apart from those of other
peers. The tasks of a manager whose key is the peer are those of its loads, and whatever event there
is, the manager does something to the loads of one peer only.
-/
namespace ChatToken

/-! ## Numbers of loads -/

namespace Network

theorem idxOf_map_of_inj {α β : Type} [DecidableEq α] [DecidableEq β] {f : α → β} {l : List α}
    {a : α} (h : ∀ b ∈ l, f b = f a → b = a) : (l.map f).idxOf (f a) = l.idxOf a := by
  induction l with
  | nil => rfl
  | cons b l ih =>
    obtain ⟨hb,hl⟩ := List.forall_mem_cons.mp h
    by_cases hba : b = a
    · subst hba
      simp
    · have hf : f b ≠ f a := fun he => hba (hb he)
      rw [List.map_cons, List.idxOf_cons_ne _ hf, List.idxOf_cons_ne _ hba, ih hl]

section
variable {own rest : List LoadRef} {ref ref' : LoadRef}

@[simp] theorem place_manager (own : List LoadRef) (ref : LoadRef) :
    (place own ref).manager = ref.manager := rfl

theorem mem_of_manager (h : ref ∈ own) : ref ∈ own.filter (·.manager = ref.manager) := by
  simpa using h

theorem place_append (h : ref ∈ own) (rest : List LoadRef) :
    place (own ++ rest) ref = place own ref := by
  rw [place, place, List.filter_append, List.idxOf_append_of_mem (mem_of_manager h)]

/-- The number of a new load is the next one of its manager. -/
theorem place_missing (h : ref ∉ own) :
    place own ref = ⟨ref.manager, (own.filter (·.manager = ref.manager)).length⟩ := by
  have hno : ref ∉ own.filter (·.manager = ref.manager) := fun hm => h (List.mem_filter.mp hm).1
  rw [place, List.idxOf_of_notMem hno]

theorem place_new (h : ref ∉ own) : place (own ++ [ref]) ref = place own ref := by
  have hno : ref ∉ own.filter (·.manager = ref.manager) := fun hm => h (List.mem_filter.mp hm).1
  rw [place_missing h, place, List.filter_append, List.idxOf_append_of_notMem hno]
  simp

theorem place_inj (h : ref ∈ own) (he : place own ref = place own ref') : ref = ref' := by
  have hm := congrArg LoadRef.manager he
  rw [place_manager, place_manager] at hm
  have hi := congrArg LoadRef.load he
  simp only [place, ← hm] at hi
  exact (List.idxOf_inj (mem_of_manager h)).mp hi

theorem place_load_inj {m id id' : Nat} (h : ⟨m,id⟩ ∈ own)
    (he : (place own ⟨m,id⟩).load = (place own ⟨m,id'⟩).load) : id = id' :=
  have hplace : place own ⟨m,id⟩ = place own ⟨m,id'⟩ := congrArg (LoadRef.mk m) he
  congrArg LoadRef.load (place_inj h hplace)

/-- Loads that have the numbers of their places keep them. -/
theorem place_place (own : List LoadRef) (ref : LoadRef) :
    place (own.map (place own)) (place own ref) = place own ref := by
  have hf : (own.map (place own)).filter (·.manager = (place own ref).manager) =
      (own.filter (·.manager = ref.manager)).map (place own) := by
    rw [List.filter_map]
    rfl
  rw [place, hf, idxOf_map_of_inj]
  · rfl
  · intro b hb he
    exact place_inj (List.mem_filter.mp hb).1 he

theorem map_place_append (h : ref ∉ own) :
    (own ++ [ref]).map (place (own ++ [ref])) =
      own.map (place own) ++ [place own ref] := by
  rw [List.map_append, List.map_singleton, place_new h]
  congr 1
  exact List.map_congr_left fun r hr => place_append hr _

end

/-! ## The loads of a peer -/

open Manager (Deed)

/-- The loads of `p` are those in `own`. A manager that is not there has none that goes on. -/
structure Tracks (n : Network) (p : Nat) (own : List LoadRef) : Prop where
  nodup : own.Nodup
  started : ∀ ref ∈ own, ref.manager < n.managers.length →
    ref.load < (n.manager ref.manager).loader.nextLoad
  absent : ∀ ref ∈ own, ¬ ref.manager < n.managers.length → ref.load = 0
  tasks : ∀ ref t, (n.manager ref.manager).loader.tasks.get? ref.load = some t →
    (ref ∈ own ↔ t.key = p)

variable {n : Network} {p m : Nat} {own : List LoadRef} {ref : LoadRef}

theorem Tracks.pending (ht : n.Tracks p own) (hn : n.Orderly) {id : Nat}
    (h : n.about m p = .pending id) : ⟨m,id⟩ ∈ own := by
  obtain ⟨t,htask,hk,_⟩ := (hn m).about_eq_pending.mp h
  exact (ht.tasks ⟨m,id⟩ t htask).mpr hk

/-- The load that is started next is no load yet. -/
theorem Tracks.nextRef (ht : n.Tracks p own) (hm : m < n.managers.length) : n.nextRef m ∉ own :=
  fun h => Nat.lt_irrefl _ (ht.started _ h hm)

/-- A lookup that finds nothing that counts starts a load, and no other lookup does. -/
theorem lookup_nextLoad (hn : n.Orderly) (hm : m < n.managers.length) (p : Nat) :
    ((n.lookup m p).2.manager m).loader.nextLoad = (n.manager m).loader.nextLoad +
      if (n.about m p).counts (n.manager m).config n.now then 0 else 1 := by
  have habout := lookup_about hn hm p
  have hnext : ∀ {n' : Network}, (n'.manager m).Sound →
      (n'.manager m).loader.tasks.get? (n.manager m).loader.nextLoad = none →
      n'.about m p ≠ .pending (n.manager m).loader.nextLoad := by
    intro n' hs hno h
    obtain ⟨t,htask,_⟩ := hs.about_eq_pending.mp h
    rw [hno] at htask
    cases htask
  have hno := hnext (hn m) (hn m).loader.no_next_task
  -- a loader that stays as it is has not started a load
  have hsame : ((n.lookup m p).2.manager m).loader = (n.manager m).loader →
      (n.about m p).counts (n.manager m).config n.now = true := by
    intro hl
    by_contra hc
    rw [PeerState.lookedUp, if_neg hc] at habout
    exact hnext (hn.step (.lookup m p) m) (hl ▸ (hn m).loader.no_next_task) habout
  have hstay : ((n.lookup m p).2.manager m).loader = (n.manager m).loader →
      ((n.lookup m p).2.manager m).loader.nextLoad = (n.manager m).loader.nextLoad +
        if (n.about m p).counts (n.manager m).config n.now then 0 else 1 := by
    intro hl
    rw [hsame hl, hl]
    rfl
  rcases step_moved hn hm (.lookup m p) with hl | ⟨d,hd,hmoved⟩
  · exact hstay hl
  · obtain rfl : Deed.lookup p = d := Option.some.inj ((if_pos rfl).symm.trans hd)
    generalize hl : ((n.step (.lookup m p)).manager m).loader = l at hmoved
    cases hmoved with
    | still => exact hstay hl
    | looked hk =>
      cases hk with
      | attached | hit => exact hstay hl
      | started =>
        have hpending : (n.lookup m p).2.about m p = .pending (n.manager m).loader.nextLoad := by
          refine Manager.about_of_loading (g := (n.lookup m p).2.manager m) ?_
          exact (congrArg (·.loading.get? p) hl).trans ((Loader.start_loading ..).trans (if_pos rfl))
        have hc : ¬ (n.about m p).counts (n.manager m).config n.now = true := by
          intro hc
          rw [hpending, PeerState.lookedUp, if_pos hc] at habout
          exact hno habout.symm
        rw [if_neg hc]
        exact congrArg Loader.nextLoad hl
      | refused _ _ hstart => cases hstart

theorem issued_lookup (n : Network) (p : Nat) (own : List LoadRef) (m : Nat) :
    n.issued p own (.lookup m p) =
      match (n.lookup m p).1 with
      | .pending ref => if ref ∈ own then own else own ++ [ref]
      | _ => own := if_pos rfl

/-- What a lookup of `p` adds to the loads of `p`. -/
theorem Tracks.issued (ht : n.Tracks p own) (hn : n.Orderly) (hm : m < n.managers.length) :
    n.issued p own (.lookup m p) =
      if (n.about m p).counts (n.manager m).config n.now then own else own ++ [n.nextRef m] := by
  rw [issued_lookup, lookup_answer hn hm, lookup_about hn hm, PeerState.lookedUp]
  by_cases hc : (n.about m p).counts (n.manager m).config n.now = true
  · rw [if_pos hc, if_pos hc]
    cases hs : n.about m p with
    | pending id => exact if_pos (ht.pending hn hs)
    | _ => rfl
  · rw [if_neg hc, if_neg hc]
    exact if_neg (ht.nextRef hm)

/-- A manager that is not there answers every lookup with the first load. -/
theorem lookup_missing (hm : ¬ m < n.managers.length) (p : Nat) :
    (n.lookup m p).1 = .pending ⟨m,0⟩ := by
  have hg := manager_of_not_lt hm
  have hg' : (n.checkMark m p).2.manager m = Manager.new {} :=
    manager_of_not_lt (by rwa [(n.inner_checkMark m p).length])
  rw [lookup_eq, if_neg (by rw [hg]; exact fun h => by cases h), seek, hg']
  rfl

theorem issued_of_ne {e : Event} (h : ∀ m, e ≠ .lookup m p) : n.issued p own e = own := by
  cases e with
  | lookup m q => exact if_neg fun hq => h m (by rw [hq])
  | _ => rfl

/-- The loads of a peer stay its loads, and an event adds one at most. -/
theorem issued_cases (n : Network) (p : Nat) (own : List LoadRef) (e : Event) :
    n.issued p own e = own ∨ ∃ ref, ref ∉ own ∧ n.issued p own e = own ++ [ref] := by
  by_cases h : ∃ m, e = .lookup m p
  · obtain ⟨m,rfl⟩ := h
    rw [issued_lookup]
    split
    · split
      · exact .inl rfl
      · next hno => exact .inr ⟨_,hno,rfl⟩
    · exact .inl rfl
  · exact .inl (issued_of_ne fun m he => h ⟨m,he⟩)

theorem mem_issued (href : ref ∈ own) (e : Event) : ref ∈ n.issued p own e := by
  rcases n.issued_cases p own e with h | ⟨r,_,h⟩
  · rwa [h]
  · rw [h]
    exact List.mem_append_left _ href

/-- The numbers of the loads of a peer do not change. -/
theorem place_issued {e : Event} (href : ref ∈ n.issued p own e) :
    place (n.issued p own e) ref = place own ref := by
  rcases n.issued_cases p own e with h | ⟨r,hr,h⟩
  · rw [h]
  · rw [h] at href ⊢
    by_cases hown : ref ∈ own
    · exact place_append hown _
    · obtain rfl := (List.mem_append.mp href).elim (absurd · hown) List.mem_singleton.mp
      exact place_new hown

/-- What is new among the loads of a peer has been started by a lookup. -/
theorem Tracks.new (ht : n.Tracks p own) (hn : n.Orderly) {e : Event}
    (href : ref ∈ n.issued p own e) (hno : ref ∉ own) :
    e = .lookup ref.manager p ∧
    (ref.manager < n.managers.length → ref = n.nextRef ref.manager ∧
      (n.about ref.manager p).counts (n.manager ref.manager).config n.now = false) ∧
    (¬ ref.manager < n.managers.length → ref.load = 0) := by
  by_cases h : ∃ m, e = .lookup m p
  · obtain ⟨m,rfl⟩ := h
    by_cases hm : m < n.managers.length
    · rw [ht.issued hn hm] at href
      split at href
      · exact absurd href hno
      · next hc =>
        obtain rfl := (List.mem_append.mp href).elim (absurd · hno) List.mem_singleton.mp
        exact ⟨rfl,fun _ => ⟨rfl,Bool.eq_false_iff.mpr hc⟩,fun hm' => absurd hm hm'⟩
    · rw [issued_lookup, lookup_missing hm] at href
      dsimp only at href
      split at href
      · exact absurd href hno
      · obtain rfl := (List.mem_append.mp href).elim (absurd · hno) List.mem_singleton.mp
        exact ⟨rfl,fun hm' => absurd hm' hm,fun _ => rfl⟩
  · rw [issued_of_ne fun m he => h ⟨m,he⟩] at href
    exact absurd href hno

theorem Tracks.issued_nodup (ht : n.Tracks p own) (e : Event) : (n.issued p own e).Nodup := by
  rcases n.issued_cases p own e with h | ⟨ref,hno,h⟩
  · rw [h]
    exact ht.nodup
  · rw [h]
    refine List.nodup_append.mpr ⟨ht.nodup,List.nodup_singleton _,?_⟩
    rintro a ha b hb rfl
    exact hno (List.mem_singleton.mp hb ▸ ha)

/-- The task of a load that a lookup has just started is that of a load of its peer. -/
theorem Tracks.issued_iff (ht : n.Tracks p own) (hn : n.Orderly) (hm : m < n.managers.length)
    {q : Nat} {t : LoadTask Nat Token TokenError} (hk : t.key = q)
    (htask : ((n.lookup m q).2.manager m).loader.tasks.get? (n.manager m).loader.nextLoad = some t) :
    n.nextRef m ∈ n.issued p own (.lookup m q) ↔ q = p := by
  constructor
  · intro h
    obtain ⟨he,_⟩ := ht.new hn h (ht.nextRef hm)
    cases he
    rfl
  · rintro rfl
    have ha := lookup_answer hn hm q
    have hab : (n.lookup m q).2.about m q = .pending (n.manager m).loader.nextLoad :=
      (hn.step (.lookup m q) m).about_eq_pending.mpr
        ⟨t,htask,hk,(hn.step (.lookup m q) m).live _ _ htask⟩
    rw [hab] at ha
    rw [issued_lookup, ha]
    dsimp only [PeerState.answer]
    rw [if_neg (show (⟨m,(n.manager m).loader.nextLoad⟩ : LoadRef) ∉ own from ht.nextRef hm)]
    exact List.mem_append.mpr (.inr (List.mem_singleton.mpr rfl))

theorem Tracks.step (ht : n.Tracks p own) (hn : n.Orderly) (e : Event) :
    (n.step e).Tracks p (n.issued p own e) where
  nodup := ht.issued_nodup e
  started ref href hm := by
    rw [n.step_managers_length e] at hm
    by_cases hown : ref ∈ own
    · exact Nat.lt_of_lt_of_le (ht.started ref hown hm) (step_nextLoad_le hn hm e)
    · obtain ⟨rfl,hstarted,_⟩ := ht.new hn href hown
      obtain ⟨hnext,hc⟩ := hstarted hm
      have hlater := lookup_nextLoad hn hm p
      rw [hc] at hlater
      have hload : ref.load = (n.manager ref.manager).loader.nextLoad := congrArg LoadRef.load hnext
      exact hload ▸ Nat.lt_of_lt_of_eq (Nat.lt_succ_self _) hlater.symm
  absent ref href hm := by
    rw [n.step_managers_length e] at hm
    by_cases hown : ref ∈ own
    · exact ht.absent ref hown hm
    · exact (ht.new hn href hown).2.2 hm
  tasks ref t htask := by
    have hm : ref.manager < n.managers.length := n.step_managers_length e ▸ lt_of_task htask
    -- a load that was there before is no new one
    have hold : ∀ t₀, (n.manager ref.manager).loader.tasks.get? ref.load = some t₀ →
        (ref ∈ n.issued p own e ↔ t₀.key = p) := by
      intro t₀ ht₀
      rw [← ht.tasks ref t₀ ht₀]
      refine ⟨fun href => ?_,fun h => mem_issued h e⟩
      by_contra hown
      have hload := congrArg LoadRef.load ((ht.new hn href hown).2.1 hm).1
      rw [hload, Network.nextRef, (hn _).loader.no_next_task] at ht₀
      cases ht₀
    rcases step_moved hn hm e with hl | ⟨d,hd,hmoved⟩
    · rw [hl] at htask
      exact hold t htask
    · rcases hmoved.task htask with ht₀ | ⟨_,_,t₀,ht₀,_,hk⟩ | ⟨hid,_,rfl⟩
      · exact hold t ht₀
      · rw [hold t₀ ht₀, hk]
      · obtain rfl := (event_of_deed? hd).1 _ rfl
        have href : ref = n.nextRef ref.manager := by rw [Network.nextRef, ← hid]
        rw [hid] at htask
        rw [href]
        exact ht.issued_iff hn hm rfl htask

/-- The request of a load goes over the connection of its peer. -/
theorem Sane.goesOver (hs : n.Sane) {t : LoadTask Nat Token TokenError}
    (htask : (n.manager ref.manager).loader.tasks.get? ref.load = some t) :
    n.GoesOver t.key (.load ref) := by
  intro x hx
  obtain ⟨t',htask',_,hserves⟩ := hs.requests ref x hx
  obtain rfl : t = t' := Option.some.inj (htask.symm.trans htask')
  exact hserves.peer

theorem Tracks.goesOver (ht : n.Tracks p own) (hs : n.Sane) (href : ref ∈ own) :
    n.GoesOver p (.load ref) := by
  intro x hx
  obtain ⟨t,htask,_,hserves⟩ := hs.requests ref x hx
  rw [hserves.peer]
  exact (ht.tasks ref t htask).mp href

/-- The only load of a manager that is not there is the first. -/
theorem Tracks.place_absent (ht : n.Tracks p own) (hm : ¬ m < n.managers.length) :
    place own ⟨m,0⟩ = ⟨m,0⟩ := by
  rw [place, List.idxOf_eq_zero_iff_eq_nil_or_head_eq _ |>.mpr]
  cases hl : own.filter (·.manager = m) with
  | nil => exact .inl rfl
  | cons r l =>
    have hr : r ∈ own.filter (·.manager = m) := hl ▸ List.mem_cons_self
    obtain ⟨hown,hrm⟩ := List.mem_filter.mp hr
    obtain rfl : r.manager = m := of_decide_eq_true hrm
    have hzero := ht.absent r hown hm
    refine .inr ?_
    rw [List.head?_cons, ← hzero]

/-- Only lookups start loads. -/
theorem step_nextLoad (hn : n.Orderly) (hm : m < n.managers.length) {e : Event}
    (h : ∀ q, e ≠ .lookup m q) :
    ((n.step e).manager m).loader.nextLoad = (n.manager m).loader.nextLoad := by
  rcases step_moved hn hm e with hl | ⟨d,hd,hmoved⟩
  · rw [hl]
  · refine hmoved.nextLoad_eq fun q hq => h q ?_
    exact (event_of_deed? hd).1 q hq

/-- Before its first turn and once its task is gone, a load has no request. -/
theorem held_of_unbegun (hs : n.Sane)
    (hb : ∀ t, (n.manager ref.manager).loader.tasks.get? ref.load = some t → t.begun = false) :
    n.held (.load ref) = none := by
  rw [held, Option.map_eq_none_iff]
  cases hx : n.exchanges.get? (.load ref) with
  | none => rfl
  | some x =>
    obtain ⟨t,ht,hbegun,_⟩ := hs.requests ref x hx
    rw [hb t ht] at hbegun
    cases hbegun

/-- A load with the task `t?` that has neither ended nor sent a request. -/
structure Unsent (n : Network) (ref : LoadRef) (t? : Option (LoadTask Nat Token TokenError)) :
    Prop where
  task : (n.manager ref.manager).loader.tasks.get? ref.load = t?
  ending : n.ending? ref = none
  request : n.held (.load ref) = none

/-- A load that a lookup starts waits for its first turn. -/
theorem lookup_unsent (hn : n.Orderly) (hs : n.Sane) (hm : m < n.managers.length)
    (hc : (n.about m p).counts (n.manager m).config n.now = false) :
    (n.step (.lookup m p)).Unsent (n.nextRef m) (some { key := p }) := by
  have habout : (n.lookup m p).2.about m p = .pending (n.manager m).loader.nextLoad := by
    rw [lookup_about hn hm, PeerState.lookedUp, hc]
    rfl
  have htask := lookup_task hn hm habout
  refine ⟨htask,(hn.step (.lookup m p) m).loader.no_ending htask,?_⟩
  refine held_of_unbegun (hs.step hn (.lookup m p)) fun t ht => ?_
  obtain rfl : { key := p } = t := Option.some.inj (htask.symm.trans ht)
  rfl

/-- There are no loads of a manager that is not there. -/
theorem unsent_absent (hs : n.Sane) (hm : ¬ ref.manager < n.managers.length) :
    n.Unsent ref none := by
  have hnone : (n.manager ref.manager).loader.tasks.get? ref.load = none := by
    rw [manager_of_not_lt hm]
    rfl
  refine ⟨hnone,?_,held_of_unbegun hs fun t ht => ?_⟩
  · rw [ending?, manager_of_not_lt hm]
    rfl
  · rw [hnone] at ht
    cases ht

/-! ## What an event is about -/

theorem load_of_turnDeed? {d : Deed} (h : n.turnDeed? ref = some d) : d.load? = some ref.load := by
  rw [turnDeed?] at h
  split at h
  · cases h
  · next t _ =>
    generalize (n.work ref t).1 = w at h
    cases w <;> cases hb : t.begun <;> simp [Turn.deed?, hb] at h <;> subst h <;> rfl

/-- A deed is about a peer or about a load, and so is the event that does it. -/
theorem deed?_cases {e : Event} {d : Deed} (h : n.deed? m e = some d) :
    (∃ q, e = .lookup m q ∧ d = .lookup q) ∨ (∃ q, e = .isUnsupported m q ∧ d = .check q) ∨
    (∃ q, e = .forget m q ∧ d = .forget q) ∨
    ∃ id, d.load? = some id ∧ (e = .turn ⟨m,id⟩ ∨ e = .die ⟨m,id⟩) := by
  cases e with
  | lookup m' q | isUnsupported m' q | forget m' q =>
    obtain ⟨rfl,hd⟩ := Option.ite_none_right_eq_some.mp h
    obtain rfl := Option.some.inj hd
    simp
  | turn ref =>
    obtain ⟨rfl,hd⟩ := Option.ite_none_right_eq_some.mp h
    exact .inr (.inr (.inr ⟨ref.load,load_of_turnDeed? hd,.inl rfl⟩))
  | die ref =>
    obtain ⟨rfl,hd⟩ := Option.ite_none_right_eq_some.mp h
    obtain rfl := Option.some.inj hd
    exact .inr (.inr (.inr ⟨ref.load,rfl,.inr rfl⟩))
  | _ => cases h

/-- An exchange that an event is not about stays as it is. -/
theorem held_step (hn : n.Orderly) (hs : n.Sane) {e : Event} {h : Holder}
    (hne : e.holder? ≠ some h) : (n.step e).held h = n.held h := by
  rw [held, held, (step_carries hn hs.tidy e).exchanges h hne]

/-! ## What concerns the peer -/

variable {e e' : Event}

theorem concerns {d : Deed} (hk : n.secluded? p own e = some e') (hd : n.deed? m e = some d) :
    d.Concerns p (⟨m,·⟩ ∈ own) := by
  rcases deed?_cases hd with ⟨q,rfl,rfl⟩ | ⟨q,rfl,rfl⟩ | ⟨q,rfl,rfl⟩ | ⟨id,hl,rfl | rfl⟩
  · exact (Option.ite_none_right_eq_some.mp hk).1
  · exact (Option.ite_none_right_eq_some.mp hk).1
  · exact (Option.ite_none_right_eq_some.mp hk).1
  · exact Deed.concerns_load hl (Option.ite_none_right_eq_some.mp hk).1
  · exact Deed.concerns_load hl (Option.ite_none_right_eq_some.mp hk).1

theorem spares {d : Deed} (hk : n.secluded? p own e = none) (hd : n.deed? m e = some d) :
    d.Spares p (⟨m,·⟩ ∈ own) := by
  rcases deed?_cases hd with ⟨q,rfl,rfl⟩ | ⟨q,rfl,rfl⟩ | ⟨q,rfl,rfl⟩ | ⟨id,hl,rfl | rfl⟩
  · exact fun hq => Option.some_ne_none _ ((if_pos hq).symm.trans hk)
  · exact fun hq => Option.some_ne_none _ ((if_pos hq).symm.trans hk)
  · exact fun hq => Option.some_ne_none _ ((if_pos hq).symm.trans hk)
  · exact Deed.spares_load hl fun hq => Option.some_ne_none _ ((if_pos hq).symm.trans hk)
  · exact Deed.spares_load hl fun hq => Option.some_ne_none _ ((if_pos hq).symm.trans hk)

def Holder.In (own : List LoadRef) : Holder → Prop
  | .load ref => ref ∈ own
  | .caller _ => True

def heldOver (n : Network) (p : Nat) (h : Holder) : Option (Exchange Matcher) :=
  (n.held h).filter (·.peer = p)

theorem heldOver_of_over {h : Holder} (ho : n.GoesOver p h) : n.heldOver p h = n.held h := by
  unfold heldOver held
  cases hx : n.exchanges.get? h with
  | none => rfl
  | some x =>
    have hp : x.unnumbered.peer = p := ho x hx
    simp [hp]

/-- The exchange of a caller that goes over another connection, or no exchange. -/
theorem goesOver_other {c : Nat} (hc : ¬ n.callsOver p c = true) :
    ∃ q, q ≠ p ∧ n.GoesOver q (.caller c) := by
  cases hx : n.exchanges.get? (.caller c) with
  | none => exact ⟨p + 1,Nat.succ_ne_self p,fun x hx' => by rw [hx] at hx'; cases hx'⟩
  | some x =>
    refine ⟨x.peer,fun hp => hc ?_,fun x' hx' => ?_⟩
    · rw [callsOver, hx]
      exact decide_eq_true hp
    · rw [hx] at hx'
      cases hx'
      rfl

theorem heldOver_other {q : Nat} {h : Holder} (hq : q ≠ p) (ho : n.GoesOver q h) :
    n.heldOver p h = none := by
  unfold heldOver held
  cases hx : n.exchanges.get? h with
  | none => rfl
  | some x =>
    have hp : x.unnumbered.peer ≠ p := fun he => hq ((ho x hx).symm.trans he)
    simp [hp]

/-- From `n` to `n'` nothing has changed for `p`: not the clock, the connection, or the exchanges that
go over it. -/
structure Foreign (p : Nat) (own : List LoadRef) (n n' : Network) : Prop where
  now : n'.now = n.now
  sounded : n'.sounded = n.sounded
  peer : n'.peer p = n.peer p
  held : ∀ h, Holder.In own h → n'.heldOver p h = n.heldOver p h

/-- A turn of a load of another connection. -/
theorem elsewhere_turn (hn : n.Orderly) (hs : n.Sane) (ht : n.Tracks p own) (href : ref ∉ own) :
    (n.step (.turn ref)).peer p = n.peer p := by
  cases htask : (n.manager ref.manager).loader.tasks.get? ref.load with
  | none => exact congrArg (·.peer p) (runLoad_of_gone (n.called ref) htask)
  | some t =>
    have hkey : t.key ≠ p := fun he => href ((ht.tasks ref t htask).mpr he)
    exact (only_turn hn htask (hs.goesOver htask)).elsewhere p hkey

/-- The death of a load of another connection. -/
theorem elsewhere_die (hs : n.Sane) (ht : n.Tracks p own) (href : ref ∉ own) :
    (n.step (.die ref)).peer p = n.peer p := by
  cases htask : (n.manager ref.manager).loader.tasks.get? ref.load with
  | none =>
    have hx := held_of_unbegun hs fun t ht' => by rw [htask] at ht'; cases ht'
    have hgone : n.exchanges.get? (.load ref) = none := Option.map_eq_none_iff.mp hx
    exact congrArg (·.peer p) (closeExchange_of_none hgone)
  | some t =>
    have hkey : t.key ≠ p := fun he => href ((ht.tasks ref t htask).mpr he)
    exact (only_dropLoad (hs.goesOver htask)).elsewhere p hkey

/-- A caller that starts to listen to another connection, or has an exchange already. -/
theorem elsewhere_listen {q c : Nat} (matcher : Matcher) (timeout : Span)
    (hk : ¬ (q = p ∧ n.exchanges.contains (.caller c) = false)) :
    (n.step (.listen c q matcher timeout)).peer p = n.peer p ∧
    (n.step (.listen c q matcher timeout)).heldOver p (.caller c) = n.heldOver p (.caller c) := by
  rw [Network.step]
  by_cases hx : n.exchanges.contains (.caller c) = true
  · rw [if_pos hx]
    exact ⟨rfl,rfl⟩
  · have hq : q ≠ p := fun he => hk ⟨he,Bool.eq_false_iff.mpr hx⟩
    have hno : n.exchanges.get? (.caller c) = none := by simpa [Table.contains] using hx
    have ho := ((Alike.refl q n).openExchange (.caller c) (.caller c) matcher timeout).2.2
    rw [if_neg hx]
    refine ⟨(n.only_openExchange q _ matcher timeout).elsewhere p hq,?_⟩
    refine (heldOver_other hq ho).trans (heldOver_other hq fun x hx' => ?_).symm
    rw [hno] at hx'
    cases hx'

/-- An event that does not concern `p` does nothing to the connection, and nothing that counts for
`p` to the exchange it is about. -/
theorem elsewhere (hn : n.Orderly) (hs : n.Sane) (ht : n.Tracks p own)
    (hk : n.secluded? p own e = none) :
    (n.step e).peer p = n.peer p ∧ ∀ h, e.holder? = some h → Holder.In own h →
      (n.step e).heldOver p h = n.heldOver p h := by
  have hother : ∀ {q : Prop} [Decidable q] {e₀ : Event},
      (if q then some e₀ else none) = none → ¬ q :=
    fun h hq => Option.some_ne_none _ ((if_pos hq).symm.trans h)
  cases e with
  | lookup m q => exact ⟨(n.inner_lookup m q).peer p,by simp [Event.holder?]⟩
  | isUnsupported m q => exact ⟨(n.inner_checkMark m q).peer p,by simp [Event.holder?]⟩
  | forget m q => exact ⟨(n.inner_forget m q).peer p,by simp [Event.holder?]⟩
  | observe ref => exact ⟨(n.inner_observe ref).peer p,by simp [Event.holder?]⟩
  | turn ref =>
    have href : ref ∉ own := hother hk
    refine ⟨elsewhere_turn hn hs ht href,?_⟩
    rintro h ⟨⟩ hin
    exact absurd hin href
  | die ref =>
    have href : ref ∉ own := hother hk
    refine ⟨elsewhere_die hs ht href,?_⟩
    rintro h ⟨⟩ hin
    exact absurd hin href
  | listen c q matcher timeout =>
    obtain ⟨hpeer,hheld⟩ := elsewhere_listen matcher timeout (hother hk)
    refine ⟨hpeer,?_⟩
    rintro h ⟨⟩ _
    exact hheld
  | look c =>
    obtain ⟨q,hq,ho⟩ := goesOver_other (hother hk)
    have ho' := ((Alike.refl q n).pollExchange rfl ho).2.2.2
    refine ⟨(only_pollExchange ho).elsewhere p hq,?_⟩
    rintro h ⟨⟩ _
    exact (heldOver_other hq ho').trans (heldOver_other hq ho).symm
  | hangUp c =>
    obtain ⟨q,hq,ho⟩ := goesOver_other (hother hk)
    refine ⟨(only_closeExchange ho).elsewhere p hq,?_⟩
    rintro h ⟨⟩ _
    exact (heldOver_other hq (Alike.goesOver_closeExchange n q _)).trans (heldOver_other hq ho).symm
  | send q command args =>
    exact ⟨(n.only_send q command args).elsewhere p (hother hk),by simp [Event.holder?]⟩
  | deliver q m => exact ⟨(n.only_deliver q m).elsewhere p (hother hk),by simp [Event.holder?]⟩
  | disconnect q =>
    exact ⟨((n.only_onPeer q _).trans (.of_inner (inner_wakeAll ..))).elsewhere p (hother hk),
      by simp [Event.holder?]⟩
  | receive q r => exact ⟨(n.only_receive q r).elsewhere p (hother hk),by simp [Event.holder?]⟩
  | finishStream q =>
    refine ⟨?_,by simp [Event.holder?]⟩
    have hq := hother hk
    simp only [Network.step, Network.finishStream]
    split
    · exact (n.only_endStream q).elsewhere p hq
    · rfl
  | failWriting q reason =>
    refine ⟨?_,by simp [Event.holder?]⟩
    have hq := hother hk
    simp only [Network.step, Network.failWriting]
    split
    · exact ((n.only_onPeer q _).trans (.of_inner (inner_note ..))).elsewhere p hq
    · rfl
  | prepare q replies | advertise q name value =>
    exact ⟨(n.only_onPeer q _).elsewhere p (hother hk),by simp [Event.holder?]⟩
  | pass | sound => cases hk

theorem foreign (hn : n.Orderly) (hs : n.Sane) (ht : n.Tracks p own)
    (hk : n.secluded? p own e = none) : Foreign p own n (n.step e) := by
  have hmoves : e.nanos = 0 ∧ e ≠ .sound := by
    cases e with
    | pass | sound => cases hk
    | _ => exact ⟨rfl,by simp⟩
  obtain ⟨hpeer,hheld⟩ := elsewhere hn hs ht hk
  refine ⟨(n.step_steady e).1.trans (by rw [hmoves.1]; rfl),
    (n.step_sounded e).trans (if_neg hmoves.2),hpeer,fun h hin => ?_⟩
  by_cases hh : e.holder? = some h
  · exact hheld h hh hin
  · rw [heldOver, heldOver, held_step hn hs hh]

theorem issued_of_foreign (hk : n.secluded? p own e = none) : n.issued p own e = own := by
  refine issued_of_ne fun m he => ?_
  rw [he] at hk
  exact Option.some_ne_none _ ((if_pos rfl).symm.trans hk)

/-- Nothing can be told at the peer. -/
theorem sights_of_foreign (hn : n.Orderly) (hs : n.Sane) (ht : n.Tracks p own)
    (hk : n.secluded? p own e = none) : n.sights p own e = [] := by
  have hnone : n.answered p own e = [] := by
    cases e with
    | lookup m q | isUnsupported m q | observe ref | look c =>
      exact if_neg fun hq => Option.some_ne_none _ ((if_pos hq).symm.trans hk)
    | _ => rfl
  rw [sights, hnone, sentSince, (foreign hn hs ht hk).peer, List.drop_length]
  rfl

theorem tracks_start (peers : List Peer) (configs : List TokenConfig) (p : Nat) :
    (start peers configs).Tracks p [] where
  nodup := List.nodup_nil
  started := by simp
  absent := by simp
  tasks ref t ht := by
    rw [start_manager] at ht
    cases ht

end Network

end ChatToken
