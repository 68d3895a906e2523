import ChatToken.Proofs.Table
import ChatToken.Token.Marks

/-! # Marks of single peers

What the marks say about a peer after something was done to another peer or to the same one. A mark
that does not count any more may be dropped at any time.
-/
namespace ChatToken.Marks

variable {κ : Type}

theorem fresh_iff (ms : Marks κ) (now t : Nat) :
    ms.fresh now t = true ↔ now - t ≤ ms.ttl.nanos := by
  simp [fresh, Clock.elapsed]

variable [DecidableEq κ] (ms : Marks κ) (now : Nat) (p q : κ)

theorem standing_eq_marked :
    ms.standing now p = .marked ↔ ∃ t, ms.since.get? p = some t ∧ ms.fresh now t = true := by
  unfold standing
  cases ms.since.get? p with
  | none => simp
  | some t => cases hf : ms.fresh now t <;> simp [hf]

@[simp] theorem refresh_ttl : (ms.refresh now p).ttl = ms.ttl := by
  unfold refresh
  split <;> rfl

theorem refresh_since :
    (ms.refresh now p).since.get? q =
      if p = q then (ms.since.get? q).filter (ms.fresh now) else ms.since.get? q := by
  unfold refresh standing
  cases hp : ms.since.get? p with
  | none =>
    by_cases hq : p = q
    · subst hq
      simp [hp]
    · simp [hq]
  | some t =>
    by_cases hf : ms.fresh now t = true
    · by_cases hq : p = q
      · subst hq
        simp [hf, hp, Option.filter]
      · simp [hf, hq]
    · by_cases hq : p = q
      · subst hq
        simp [hf, hp, Table.get?_erase, Option.filter]
      · simp [hf, hq, Table.get?_erase]

theorem mark_since :
    (ms.mark now p).since.get? q =
      if p = q then some now else (ms.since.get? q).filter (ms.fresh now) := by
  rw [mark, Table.get?_insert, Table.get?_keep]

theorem remove_since :
    (ms.remove p).since.get? q = if p = q then none else ms.since.get? q :=
  Table.get?_erase ..

end ChatToken.Marks
