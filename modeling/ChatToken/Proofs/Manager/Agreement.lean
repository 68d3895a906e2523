import ChatToken.Proofs.Manager.Deeds

/-! # What can be told of a peer from a manager

The numbers of loads depend on what else a manager has done, and marks that do not count any more
may have been dropped or not. What can be told of a peer is what there is for it but for these. Deeds
that concern the peer keep the agreement of two managers, whatever else they have done, and so do
deeds of only one of them that concern other peers.
-/
namespace ChatToken

namespace PeerState

def relabel (f : Nat → Nat) : PeerState → PeerState
  | pending id => pending (f id)
  | s => s

/-- From one peer state the same can be told as from the other, whose loads have other numbers. Marks
that do not count any more are none. -/
def Agrees (c : TokenConfig) (now : Nat) (f : Nat → Nat) (s s' : PeerState) : Prop :=
  s'.expire c now = (s.expire c now).relabel f

variable {c : TokenConfig} {now : Nat} {f : Nat → Nat} {s s' : PeerState}

theorem expire_expire {now' : Nat} (h : now ≤ now') :
    (s.expire c now).expire c now' = s.expire c now' := by
  cases s with
  | unsupported t =>
    by_cases hr : c.remembers now t = true
    · simp only [expire, hr, if_true]
    · have hr' : ¬ c.remembers now' t = true := by
        intro hr'
        exact hr (decide_eq_true ((Nat.sub_le_sub_right h t).trans (of_decide_eq_true hr')))
      simp [expire, hr, hr']
  | _ => rfl

theorem expire_relabel : (s.relabel f).expire c now = (s.expire c now).relabel f := by
  cases s with
  | unsupported t =>
    simp only [relabel, expire]
    split <;> rfl
  | _ => rfl

theorem counts_relabel : (s.relabel f).counts c now = s.counts c now := by
  cases s <;> rfl

theorem counts_expire : (s.expire c now).counts c now = s.counts c now := by
  cases s with
  | unsupported t => cases hr : c.remembers now t <;> simp [expire, counts, hr]
  | _ => rfl

theorem relabel_congr {g : Nat → Nat} (h : ∀ id, s = pending id → f id = g id) :
    s.relabel f = s.relabel g := by
  cases s with
  | pending id => rw [relabel, relabel, h id rfl]
  | _ => rfl

namespace Agrees

/-- What can be told later follows from what can be told now. -/
theorem later (h : Agrees c now f s s') {now' : Nat} (hle : now ≤ now') : Agrees c now' f s s' := by
  unfold Agrees at h ⊢
  rw [← expire_expire hle, h, expire_relabel, expire_expire hle]

theorem congr (h : Agrees c now f s s') {g : Nat → Nat} (hg : ∀ id, s = pending id → f id = g id) :
    Agrees c now g s s' := by
  unfold Agrees at h ⊢
  rw [h]
  refine relabel_congr fun id hs => hg id ?_
  cases s with
  | unsupported t =>
    simp only [expire] at hs
    split at hs <;> cases hs
  | _ => exact hs

theorem counts (h : Agrees c now f s s') : s'.counts c now = s.counts c now := by
  rw [← counts_expire, h, counts_relabel, counts_expire]

/-- Marks that count are the same. -/
theorem marked (h : Agrees c now f s s') :
    (∃ t, s' = unsupported t ∧ c.remembers now t = true) ↔
      ∃ t, s = unsupported t ∧ c.remembers now t = true := by
  have hexpire : ∀ s : PeerState, (∃ t, s = unsupported t ∧ c.remembers now t = true) ↔
      ∃ t, s.expire c now = unsupported t := by
    intro s
    cases s with
    | unsupported t => cases hr : c.remembers now t <;> simp [expire, hr]
    | _ => simp [expire]
  rw [hexpire, hexpire, h]
  cases s.expire c now <;> simp [relabel]

theorem lookedUp (h : Agrees c now f s s') {fresh fresh' : Nat} (hf : f fresh = fresh') :
    s'.lookedUp c now fresh' = (s.lookedUp c now fresh).relabel f := by
  rw [← lookedUp_expire, h, ← lookedUp_expire (s := s)]
  unfold PeerState.lookedUp
  rw [counts_relabel]
  split
  · rfl
  · rw [relabel, hf]

theorem pending_iff (h : Agrees c now f s s') {id : Nat}
    (hf : ∀ id', s = pending id' → f id' = f id → id' = id) :
    s' = pending (f id) ↔ s = pending id := by
  have hexpire : ∀ (s : PeerState) (i : Nat), s.expire c now = pending i ↔ s = pending i := by
    intro s i
    cases s with
    | unsupported t => cases hr : c.remembers now t <;> simp [expire, hr]
    | _ => rfl
  rw [← hexpire, h]
  cases s with
  | pending id' =>
    simp only [expire, relabel, pending.injEq]
    exact ⟨hf id' rfl,congrArg f⟩
  | unsupported t => cases hr : c.remembers now t <;> simp [expire, relabel, hr]
  | _ => simp [expire, relabel]

end Agrees

theorem relabel_left (c : TokenConfig) (now : Nat) (f : Nat → Nat) (e : Ending Token TokenError) :
    (left c now e).relabel f = left c now e := by
  cases e with
  | loaded t =>
    simp only [left]
    split <;> rfl
  | failed e => cases e <;> rfl
  | lost => rfl

end PeerState

namespace Manager

def Deed.relabel (f : Nat → Nat) : Deed → Deed
  | .begin id => .begin (f id)
  | .finish id p result => .finish (f id) p result
  | .abandon id => .abandon (f id)
  | d => d

def Deed.Concerns (p : Nat) (own : Nat → Prop) : Deed → Prop
  | .lookup q | .check q | .forget q => q = p
  | .begin id | .finish id _ _ | .abandon id => own id

def Deed.Spares (p : Nat) (own : Nat → Prop) : Deed → Prop
  | .lookup q | .check q | .forget q => q ≠ p
  | .begin id | .finish id _ _ | .abandon id => ¬ own id

section
variable {d : Deed} {id p : Nat} {own : Nat → Prop}

theorem Deed.relabel_load? (f : Nat → Nat) (d : Deed) : (d.relabel f).load? = d.load?.map f := by
  cases d <;> rfl

theorem Deed.concerns_load (h : d.load? = some id) (hid : own id) : d.Concerns p own := by
  cases d <;> cases h <;> exact hid

theorem Deed.spares_load (h : d.load? = some id) (hid : ¬ own id) : d.Spares p own := by
  cases d <;> cases h <;> exact hid

theorem Deed.own_of_concerns (h : d.load? = some id) (hd : d.Concerns p own) : own id := by
  cases d <;> cases h <;> exact hd

end

end Manager

open Manager (Deed)

namespace PeerState

variable {c : TokenConfig} {now : Nat} {f : Nat → Nat} {s s' : PeerState} {p fresh fresh' : Nat}
  {own : Nat → Prop} {d : Deed}

/-- The same deed keeps two peer states in agreement. -/
theorem Agrees.next (h : Agrees c now f s s') (hd : d.Concerns p own)
    (hown : ∀ id, s = pending id → own id)
    (hinj : ∀ id id', own id → own id' → f id = f id' → id = id') (hf : f fresh = fresh') :
    Agrees c now f (s.next c now fresh p d) (s'.next c now fresh' p (d.relabel f)) := by
  have hp : ∀ id, own id → (s' = pending (f id) ↔ s = pending id) := fun id hid =>
    h.pending_iff fun id' hs he => hinj id' id (hown id' hs) hid he
  have hleft : ∀ e, Agrees c now f (left c now e) (left c now e) := by
    intro e
    unfold Agrees
    rw [← expire_relabel, relabel_left]
  cases d with
  | lookup q =>
    obtain rfl : q = p := hd
    simp only [Deed.relabel, PeerState.next, if_true]
    unfold Agrees
    rw [h.lookedUp hf, expire_relabel]
  | check q =>
    obtain rfl : q = p := hd
    simp only [Deed.relabel, PeerState.next, if_true]
    unfold Agrees at h ⊢
    rw [h, expire_relabel]
  | forget q =>
    obtain rfl : q = p := hd
    have hforget : ∀ s : PeerState, s.forgotten = (s.expire c now).forgotten := by
      intro s
      cases s with
      | unsupported t => cases hr : c.remembers now t <;> simp [expire, forgotten, hr]
      | _ => rfl
    simp only [Deed.relabel, PeerState.next, if_true]
    unfold Agrees at h ⊢
    rw [hforget s', h, hforget s]
    cases s.expire c now <;> rfl
  | begin id => exact h
  | finish id q result =>
    simp only [Deed.relabel, PeerState.next, hp id hd]
    split
    · exact hleft _
    · split
      · unfold Agrees at h ⊢
        rw [h, expire_relabel]
      · exact h
  | abandon id =>
    simp only [Deed.relabel, PeerState.next, hp id hd]
    split
    · exact hleft _
    · exact h

/-- Deeds about other peers do not count, even if marks are dropped in them. -/
theorem Agrees.next_other (h : Agrees c now f s s') (hd : d.Spares p own)
    (hown : ∀ id, s = pending id → own id) :
    Agrees c now f (s.next c now fresh p d) s' := by
  have hexpire : Agrees c now f (s.expire c now) s' := by
    unfold Agrees at h ⊢
    rw [h, expire_expire (Nat.le_refl now)]
  cases d with
  | lookup q | check q | forget q => simpa only [PeerState.next, if_neg hd] using h
  | begin id => exact h
  | finish id q result =>
    rw [PeerState.next, if_neg fun hs => hd (hown id hs)]
    split
    · exact hexpire
    · exact h
  | abandon id =>
    rw [PeerState.next, if_neg fun hs => hd (hown id hs)]
    exact h

end PeerState


namespace Manager

theorem begin_load (l : Loader Nat Token TokenError) (id : Nat) :
    (l.begin id).1.tasks.get? id =
      (l.tasks.get? id).map (fun t => if t.begun then t else { t with phase := .working }) ∧
    (l.begin id).1.endings = l.endings := by
  unfold Loader.begin
  cases ht : l.tasks.get? id with
  | none => exact ⟨ht,rfl⟩
  | some t =>
    obtain ⟨key,phase⟩ := t
    cases phase with
    | waiting => exact ⟨by rw [Loader.reach_tasks, if_pos rfl, ht]; rfl,rfl⟩
    | _ => exact ⟨ht,rfl⟩

/-- The same deed does the same to a load, whatever its number is. -/
theorem act_load {g g' : Manager} (hs : g.Sound) (hs' : g'.Sound) {now id : Nat} {f : Nat → Nat}
    {d : Deed} (hd : g.Fits d) (hd' : g'.Fits (d.relabel f)) (hl : d.load? = some id)
    (ht : g'.loader.tasks.get? (f id) = g.loader.tasks.get? id)
    (he : g'.loader.endings.get? (f id) = g.loader.endings.get? id) :
    (g'.act now (d.relabel f)).loader.tasks.get? (f id) = (g.act now d).loader.tasks.get? id ∧
    (g'.act now (d.relabel f)).loader.endings.get? (f id) =
      (g.act now d).loader.endings.get? id := by
  cases d with
  | begin i =>
    cases hl
    obtain ⟨htask,hend⟩ := begin_load g.loader id
    obtain ⟨htask',hend'⟩ := begin_load g'.loader (f id)
    simp only [act, Deed.relabel]
    rw [htask, htask', hend, hend', ht]
    exact ⟨rfl,he⟩
  | finish i p result =>
    cases hl
    obtain ⟨t,htask,hk,hu⟩ := hd
    obtain ⟨t',htask',hk',hu'⟩ := hd'
    have hc := hs.loader.finish_concluded htask hu (staleness g.config now) result
    have hc' := hs'.loader.finish_concluded htask' hu' (staleness g'.config now) result
    simp only [act, Deed.relabel]
    rw [hc.tasks, hc'.tasks, hc.endings, hc'.endings]
    simp
  | abandon i =>
    cases hl
    simp only [act, Deed.relabel]
    cases htask : g.loader.tasks.get? id with
    | none =>
      rw [htask] at ht
      rw [Loader.abandon_of_gone htask, Loader.abandon_of_gone ht, ht, htask]
      exact ⟨rfl,he⟩
    | some t =>
      rw [htask] at ht
      have hc := hs.loader.abandon_concluded htask (hs.live id t htask)
      have hc' := hs'.loader.abandon_concluded ht (hs'.live _ t ht)
      rw [hc.tasks, hc'.tasks, hc.endings, hc'.endings]
      simp
  | _ => cases hl

end Manager

end ChatToken
