import ChatToken.Proofs.Network.Agrees
import ChatToken.Proofs.Network.Outcomes
import ChatToken.Proofs.Network.Places

/-! # What lookups come to

Polling or dropping a lookup changes nothing but what was reported and who holds it. As long as
somebody waits for a load, what it ends with is there for them. So what a lookup comes to is told by
its load alone.
-/
namespace ChatToken

namespace Network

variable {n n' : Network} {ref : LoadRef} {e : Event}

/-- Only the turn and the death of its task end a load. -/
theorem ending_elsewhere (hn : n.Orderly) (he : e.holder? ≠ some (.load ref)) :
    (n.step e).ending? ref = n.ending? ref := by
  cases hbefore : n.ending? ref with
  | some ending => exact step_ending hn e hbefore
  | none =>
    cases hafter : (n.step e).ending? ref with
    | none => rfl
    | some ending =>
      obtain ⟨p,_,⟨result,hd,_⟩ | ⟨hd,_⟩⟩ := Ends.deed hn ⟨hbefore,hafter⟩ <;>
        rcases event_of_load hd rfl with rfl | rfl <;> exact absurd rfl he

/-- A lookup does not wait for a load that has ended. -/
theorem ending_of_lookup (hn : n.Orderly) {m p : Nat} (h : (n.lookup m p).1 = .pending ref) :
    n.ending? ref = none := by
  have hn' : (n.lookup m p).2.Orderly := hn.step (.lookup m p)
  rw [← ending_elsewhere (e := .lookup m p) hn (by simp [Event.holder?])]
  by_cases hm : m < n.managers.length
  · have ha := lookup_answer hn hm p
    rw [h] at ha
    cases habout : (n.lookup m p).2.about m p with
    | pending id =>
      obtain ⟨t,ht,_⟩ := (hn' m).about_eq_pending.mp habout
      rw [habout] at ha
      cases ha
      exact (hn' m).loader.no_ending ht
    | _ =>
      rw [habout] at ha
      cases ha
  · rw [lookup_missing hm] at h
    cases h
    have hm' : ¬ m < (n.lookup m p).2.managers.length := by rwa [(n.inner_lookup m p).length]
    rw [ending?, step, manager_of_not_lt hm']
    rfl

/-- A lookup waits for a load of its peer that goes on. -/
theorem running_of_lookup (hn : n.Orderly) {m p : Nat} (hm : m < n.managers.length)
    (h : (n.lookup m p).1 = .pending ref) :
    ∃ id, ref = ⟨m,id⟩ ∧ ((n.step (.lookup m p)).manager m).loader.Running id p ∧
      (n.step (.lookup m p)).ending? ⟨m,id⟩ = none := by
  have hn' : (n.lookup m p).2.Orderly := hn.step (.lookup m p)
  rw [lookup_answer hn hm] at h
  cases habout : (n.lookup m p).2.about m p with
  | pending id =>
    rw [habout] at h
    obtain ⟨t,ht,hunsettled⟩ := (hn' m).about_eq_pending.mp habout
    exact ⟨id,(TokenLookup.pending.inj h).symm,⟨t,ht,hunsettled⟩,(hn' m).loader.no_ending ht⟩
  | _ =>
    rw [habout] at h
    cases h

theorem observed_congr (h : ∀ ref, n'.ending? ref = n.ending? ref) (answer : TokenLookup) :
    n'.observed answer = n.observed answer := by
  cases answer with
  | pending ref => rw [observed_pending, observed_pending, h]
  | _ => rfl

/-- What has come of a lookup does not change any more. -/
theorem observed_step (hn : n.Orderly) (e : Event) {answer : TokenLookup} {outcome : Outcome}
    (h : n.observed answer = some outcome) : (n.step e).observed answer = some outcome := by
  cases answer with
  | pending ref =>
    rw [observed_pending, Option.map_eq_some_iff] at h ⊢
    obtain ⟨ending,he,ho⟩ := h
    exact ⟨ending,step_ending hn e he,ho⟩
  | _ => exact h

end Network

namespace Lookups

open Network

variable {l l₀ : Lookups} {ref : LoadRef}

/-! ## Steps -/

inductive Handled (l : Lookups) : Lookups → Prop where
  | further : Handled l l
  | let_go {i : Nat} {answer : TokenLookup} {fate : Fate} : l.made[i]? = some ⟨answer,.held⟩ →
      (∀ outcome, fate = .got outcome → l.result? answer = some outcome) → fate ≠ .held →
      Handled l (l.letGo i fate)

theorem handled_poll (l : Lookups) (i : Nat) :
    Handled { l with net := l.net.after (l.events (.poll i)) } (l.poll i) := by
  unfold poll events
  dsimp only
  split
  · next answer hi =>
    split
    · next outcome hr =>
      refine .let_go hi ?_ (by simp)
      rintro _ ⟨⟩
      exact hr
    · exact .further
  · exact .further

theorem handled_drop (l : Lookups) (i : Nat) : Handled l (l.drop i) := by
  unfold drop
  split
  · next answer hi => exact .let_go hi (by simp) (by simp)
  · exact .further

theorem handled_step (l : Lookups) {s : Step} (hs : ∀ e, s ≠ .event e) :
    Handled { l with net := l.net.after (l.events s) } (l.step s) := by
  cases s with
  | event e => exact absurd rfl (hs e)
  | poll i => exact l.handled_poll i
  | drop i => exact l.handled_drop i

theorem Handled.net (h : Handled l₀ l) : l.net = l₀.net := by
  cases h <;> rfl

theorem Handled.answers (h : Handled l₀ l) :
    l.made.map (·.answer) = l₀.made.map (·.answer) := by
  cases h with
  | further => rfl
  | let_go => exact map_modify_of_eq _ _ _ _ fun _ => rfl

/-- A poll is no more than a look at a load. -/
theorem agrees_events (l : Lookups) {s : Step} (hs : ∀ e, s ≠ .event e) :
    l.net.Agrees (l.net.after (l.events s)) := by
  cases s with
  | event e => exact absurd rfl (hs e)
  | drop i => exact .refl _
  | poll i =>
    unfold events
    dsimp only
    split
    · next answer _ =>
      cases answer with
      | pending ref => exact .observe l.net ref
      | _ => exact .refl _
    · exact .refl _

theorem step_net (l : Lookups) (s : Step) : (l.step s).net = l.net.after (l.events s) := by
  cases s with
  | event e => rfl
  | poll i => exact (l.handled_poll i).net
  | drop i => exact (l.handled_drop i).net

theorem after_net (l : Lookups) (steps : List Step) :
    (l.after steps).net = l.net.after (l.course steps) := by
  induction steps generalizing l with
  | nil => rfl
  | cons s steps ih =>
    rw [course, after_append, ← step_net]
    exact ih (l.step s)

/-! ## Nobody else notices -/

structure Shadows (l₀ l : Lookups) : Prop where
  net : l₀.net.Agrees l.net
  answers : l.made.map (·.answer) = l₀.made.map (·.answer)

theorem Shadows.happen (h : Shadows l₀ l) (e : Event) : Shadows (l₀.happen e) (l.happen e) := by
  refine ⟨h.net.step e,?_⟩
  have hgained : (gained l.net e).map (·.answer) = (gained l₀.net e).map (·.answer) := by
    cases e with
    | lookup m p => exact congrArg ([·]) (h.net.lookup m p).1
    | _ => rfl
  simp only [Lookups.happen, List.map_append, h.answers, hgained]

theorem Shadows.handled (h : Shadows l₀ l) {s : Step} (hs : ∀ e, s ≠ .event e) :
    Shadows l₀ (l.step s) := by
  have hh := l.handled_step hs
  exact ⟨hh.net ▸ h.net.trans (l.agrees_events hs),hh.answers.trans h.answers⟩

def untouched (steps : List Step) : List Step := (others steps).map .event

theorem others_cons (s : Step) (steps : List Step) :
    (∃ e, s = .event e ∧ untouched (s :: steps) = .event e :: untouched steps) ∨
    (∀ e, s ≠ .event e) ∧ untouched (s :: steps) = untouched steps := by
  cases s with
  | event e => exact .inl ⟨e,rfl,rfl⟩
  | _ => exact .inr ⟨by simp,rfl⟩

theorem Shadows.after (h : Shadows l₀ l) (steps : List Step) :
    Shadows (l₀.after (untouched steps)) (l.after steps) := by
  induction steps generalizing l₀ l with
  | nil => exact h
  | cons s steps ih =>
    rcases others_cons s steps with ⟨e,rfl,hu⟩ | ⟨hs,hu⟩ <;> rw [hu]
    · exact ih (h.happen e)
    · exact ih (h.handled hs)

theorem Shadows.sends (h : Shadows l₀ l) (steps : List Step) :
    l.sends steps = l₀.sends (untouched steps) := by
  induction steps generalizing l₀ l with
  | nil => rfl
  | cons s steps ih =>
    rcases others_cons s steps with ⟨e,rfl,hu⟩ | ⟨hs,hu⟩ <;> rw [hu, Lookups.sends]
    · have hnext : Shadows (l₀.step (.event e)) (l.step (.event e)) := h.happen e
      have hsince : ∀ p, l.net.sentSince (l.step (.event e)).net p =
          l₀.net.sentSince (l₀.step (.event e)).net p := by
        intro p
        rw [sentSince, h.net.peer, hnext.net.peer]
        rfl
      rw [Lookups.sends, ih hnext, h.net.now, h.net.peers]
      simp only [hsince]
    · have hnothing : ∀ p, l.net.sentSince (l.step s).net p = [] := by
        intro p
        rw [sentSince, (l.handled_step hs).net, (l.agrees_events hs).peer, List.drop_length]
      rw [ih (h.handled hs)]
      simp [hnothing]

/-! ## What is handed over -/

theorem Holding.awaits_iff {h : Holding} : h.awaits ref = true ↔ h = ⟨.pending ref,.held⟩ := by
  obtain ⟨answer,fate⟩ := h
  cases fate <;> simp [Holding.awaits]

theorem holds_iff : l.holds ref = true ↔ ∃ i : Nat, l.made[i]? = some ⟨.pending ref,.held⟩ := by
  simp only [holds, List.any_eq_true, Holding.awaits_iff, exists_eq_right, List.mem_iff_getElem?]

/-- What was handed over is there as long as somebody waits for it, and whoever has got something
has got what their load ended with. -/
structure Faithful (l : Lookups) : Prop where
  received : ∀ ref, l.received.get? ref = if l.holds ref then l.net.ending? ref else none
  got : ∀ (i : Nat) answer outcome, l.made[i]? = some ⟨answer,.got outcome⟩ →
    l.net.observed answer = some outcome

theorem Faithful.result (h : Faithful l) {i : Nat} {answer : TokenLookup}
    (hi : l.made[i]? = some ⟨answer,.held⟩) : l.result? answer = l.net.observed answer := by
  cases answer with
  | pending ref =>
    rw [result?, h.received, if_pos (holds_iff.mpr ⟨i,hi⟩), observed_pending]
  | _ => rfl

theorem Faithful.outcome (h : Faithful l) {i : Nat} (hi : l.isKept i = true) :
    l.outcome? i = (l.made.map (·.answer))[i]?.bind l.net.observed := by
  rw [List.getElem?_map]
  unfold isKept at hi
  unfold outcome?
  rcases hm : l.made[i]? with _ | ⟨answer,_ | outcome | _⟩ <;> rw [hm] at hi
  · cases hi
  · exact h.result hm
  · exact (h.got i answer outcome hm).symm
  · cases hi

/-- A lookup that is kept in two runs has the same result in both. -/
theorem Faithful.outcome_eq (h₀ : Faithful l₀) (h : Faithful l) (hnet : l₀.net.Agrees l.net)
    (hanswers : l.made.map (·.answer) = l₀.made.map (·.answer)) {i : Nat}
    (hi₀ : l₀.isKept i = true) (hi : l.isKept i = true) : l.outcome? i = l₀.outcome? i := by
  have hobserved : l.net.observed = l₀.net.observed := funext (observed_congr hnet.ending?)
  rw [h.outcome hi, h₀.outcome hi₀, hanswers, hobserved]

theorem Faithful.onNet (h : Faithful l) {net : Network}
    (hnet : ∀ ref, net.ending? ref = l.net.ending? ref) : Faithful { l with net } where
  received ref := by
    rw [hnet ref]
    exact h.received ref
  got i answer outcome hi := (observed_congr hnet answer).trans (h.got i answer outcome hi)

/-- Whoever lets go of a lookup does not wait any more, and everybody else does as before. -/
theorem made_letGo {i j : Nat} {fate : Fate} {h : Holding}
    (hj : (l.letGo i fate).made[j]? = some h) :
    (i = j ∧ h.fate = fate ∧ (l.made[i]?).map (·.answer) = some h.answer) ∨
      l.made[j]? = some h := by
  rw [letGo, List.getElem?_modify, Option.map_eq_map, Option.map_eq_some_iff] at hj
  obtain ⟨h₀,h₁,rfl⟩ := hj
  split
  · next hij => exact .inl ⟨hij,rfl,by rw [hij, h₁]; rfl⟩
  · exact .inr h₁

theorem holds_letGo {i : Nat} {fate : Fate} (hfate : fate ≠ .held)
    (h : (l.letGo i fate).holds ref = true) : l.holds ref = true := by
  obtain ⟨j,hj⟩ := holds_iff.mp h
  rcases made_letGo hj with ⟨_,h,_⟩ | h
  · exact absurd h.symm hfate
  · exact holds_iff.mpr ⟨j,h⟩

theorem Faithful.handled (h : Faithful l) {l' : Lookups} (hl : Handled l l') : Faithful l' := by
  cases hl with
  | further => exact h
  | @let_go i answer fate hi hgot hfate =>
    refine ⟨fun ref => ?_,fun j answer' outcome hj => ?_⟩
    · have hnet : (l.letGo i fate).net = l.net := rfl
      have hkeep : (l.letGo i fate).received.get? ref =
          (l.received.get? ref).filter fun _ => (l.letGo i fate).holds ref := Table.get?_keep ..
      rw [hkeep, hnet, h.received]
      cases hholds : (l.letGo i fate).holds ref with
      | true =>
        rw [if_pos (holds_letGo hfate hholds), if_pos rfl]
        cases l.net.ending? ref <;> rfl
      | false => simp
    · rcases made_letGo hj with ⟨rfl,rfl,ha⟩ | hj
      · rw [hi] at ha
        cases ha
        exact (h.result hi).symm.trans (hgot outcome rfl)
      · exact h.got j answer' outcome hj

/-- An event hands over what it ends a load with, and nothing else. -/
theorem get?_handedOver (hn : l.net.Orderly) (e : Event) (ref : LoadRef) :
    (l.handedOver e).get? ref =
      if l.holds ref = true ∧ l.net.ending? ref = none then
        ((l.net.step e).ending? ref).or (l.received.get? ref)
      else l.received.get? ref := by
  by_cases he : e.holder? = some (.load ref)
  · unfold handedOver
    rw [he]
    dsimp only
    cases l.net.ending? ref <;> cases (l.net.step e).ending? ref <;> cases l.holds ref <;>
      simp [Table.get?_insert]
  · have hsame : (l.handedOver e).get? ref = l.received.get? ref := by
      unfold handedOver
      split
      · next ref' he' =>
        have hne : ref' ≠ ref := fun h => he (h ▸ he')
        split
        · split
          · rw [Table.get?_insert, if_neg hne]
          · rfl
        · rfl
      · rfl
    rw [hsame, ending_elsewhere hn he]
    split
    · next hnone =>
      rw [hnone.2]
      rfl
    · rfl

theorem Faithful.handedOver (h : Faithful l) (hn : l.net.Orderly) (e : Event) (ref : LoadRef) :
    (l.handedOver e).get? ref =
      if l.holds ref then (l.net.step e).ending? ref else none := by
  rw [get?_handedOver hn, h.received]
  cases hbefore : l.net.ending? ref with
  | none => cases l.holds ref <;> simp
  | some ending =>
    rw [step_ending hn e hbefore]
    simp

/-- A lookup that is made is new, and waits for no load that has ended. -/
theorem gained_fresh (hn : l.net.Orderly) {e : Event} {h : Holding} (hh : h ∈ gained l.net e) :
    h.fate = .held ∧ ∀ ref, h.answer = .pending ref → (l.net.step e).ending? ref = none := by
  cases e with
  | lookup m p =>
    obtain rfl := List.mem_singleton.mp hh
    refine ⟨rfl,fun ref href => ?_⟩
    rw [ending_elsewhere hn (by simp [Event.holder?]), ending_of_lookup hn href]
  | _ => cases hh

theorem Faithful.happen (h : Faithful l) (hn : l.net.Orderly) (e : Event) :
    Faithful (l.happen e) := by
  refine ⟨fun ref => (h.handedOver hn e ref).trans ?_,fun i answer outcome hi => ?_⟩
  · have hholds : (l.happen e).holds ref = (l.holds ref || (gained l.net e).any (·.awaits ref)) :=
      List.any_append
    rw [hholds]
    cases hnew : (gained l.net e).any (·.awaits ref) with
    | false => rw [Bool.or_false]; rfl
    | true =>
      obtain ⟨new,hmem,hawaits⟩ := List.any_eq_true.mp hnew
      obtain rfl := Holding.awaits_iff.mp hawaits
      have hnone : (l.net.step e).ending? ref = none := (gained_fresh hn hmem).2 ref rfl
      change _ = if _ then (l.net.step e).ending? ref else none
      rw [hnone]
      simp
  · refine observed_step hn e (h.got i answer outcome ?_)
    by_cases hlt : i < l.made.length
    · exact (List.getElem?_append_left hlt).symm.trans hi
    · have hmem : (⟨answer,.got outcome⟩ : Holding) ∈ gained l.net e := by
        have hright : (l.made ++ gained l.net e)[i]? = (gained l.net e)[i - l.made.length]? :=
          List.getElem?_append_right (Nat.le_of_not_lt hlt)
        exact List.mem_of_getElem? (hright.symm.trans hi)
      have hheld := (gained_fresh hn hmem).1
      cases hheld

theorem Faithful.step (h : Faithful l) (hn : l.net.Orderly) (s : Step) : Faithful (l.step s) := by
  cases s with
  | event e => exact h.happen hn e
  | poll i =>
    have ha := l.agrees_events (s := .poll i) (by simp)
    exact (h.onNet ha.ending?).handled (l.handled_poll i)
  | drop i => exact h.handled (l.handled_drop i)

theorem Faithful.after (h : Faithful l) (hn : l.net.Orderly) (steps : List Step) :
    Faithful (l.after steps) := by
  induction steps generalizing l with
  | nil => exact h
  | cons s steps ih => exact ih (h.step hn s) (l.step_net s ▸ hn.after _)

theorem faithful_start (peers : List Peer) (configs : List TokenConfig) :
    Faithful (start peers configs) := ⟨fun _ => rfl,fun _ _ _ hi => by cases hi⟩

end Lookups

end ChatToken
