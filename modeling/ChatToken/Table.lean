/-! # Tables

A table is a finite list of keys with one value each. Looking a key up after an insertion or an
erasure is decided by the two keys alone. No key is listed twice: a table carries the proof of it.
-/
namespace ChatToken

structure Table (κ α : Type) where
  entries : List (κ × α) := []
  nodup : (entries.map Prod.fst).Nodup := by exact List.nodup_nil
  deriving DecidableEq, Repr

namespace Table

variable {κ α β : Type}

instance : Inhabited (Table κ α) := ⟨{}⟩

def size (t : Table κ α) : Nat := t.entries.length

def keys (t : Table κ α) : List κ := t.entries.map Prod.fst

def values (t : Table κ α) : List α := t.entries.map (·.2)

def keep (t : Table κ α) (p : κ → α → Bool) : Table κ α where
  entries := t.entries.filter fun e => p e.1 e.2
  nodup := t.nodup.sublist (List.filter_sublist.map _)

def mapValues (t : Table κ α) (f : κ → α → β) : Table κ β where
  entries := t.entries.map fun e => (e.1, f e.1 e.2)
  nodup := by simpa [List.map_map, Function.comp_def] using t.nodup

variable [DecidableEq κ]

def get? (t : Table κ α) (k : κ) : Option α :=
  (t.entries.find? (·.1 = k)).map (·.2)

def contains (t : Table κ α) (k : κ) : Bool := (t.get? k).isSome

def erase (t : Table κ α) (k : κ) : Table κ α := t.keep fun k' _ => k' ≠ k

theorem not_mem_keys_erase (t : Table κ α) (k : κ) :
    k ∉ (t.erase k).entries.map Prod.fst := by
  simp [erase, keep]

def insert (t : Table κ α) (k : κ) (v : α) : Table κ α where
  entries := (t.erase k).entries ++ [(k, v)]
  nodup := by
    have h := t.not_mem_keys_erase k
    rw [List.map_append, List.nodup_append]
    refine ⟨(t.erase k).nodup, by simp, ?_⟩
    intro a ha b hb hab
    simp only [List.map_cons, List.map_nil, List.mem_singleton] at hb
    subst hb hab
    exact h ha

def adjust (t : Table κ α) (k : κ) (f : α → α) : Table κ α :=
  t.mapValues fun k' v => if k' = k then f v else v

@[simp] theorem get?_empty (k : κ) : (({} : Table κ α)).get? k = none := rfl

theorem get?_erase (t : Table κ α) (k k' : κ) :
    (t.erase k).get? k' = if k = k' then none else t.get? k' := by
  simp only [get?, erase, keep]
  induction t.entries with
  | nil => simp
  | cons e es ih =>
    simp only [List.filter_cons]
    by_cases he : e.1 = k <;> by_cases hk : k = k' <;> by_cases h : e.1 = k' <;>
      simp_all

theorem erase_of_get?_eq_none {t : Table κ α} {k : κ} (h : t.get? k = none) : t.erase k = t := by
  obtain ⟨es, hn⟩ := t
  simp only [get?, Option.map_eq_none_iff, List.find?_eq_none, decide_eq_true_eq] at h
  simp only [erase, keep, mk.injEq, List.filter_eq_self]
  intro e he
  simpa using h e he

theorem get?_mapValues (t : Table κ α) (f : κ → α → β) (k : κ) :
    (t.mapValues f).get? k = (t.get? k).map (f k) := by
  simp only [get?, mapValues]
  induction t.entries with
  | nil => rfl
  | cons e es ih =>
    by_cases he : e.1 = k
    · simp [he]
    · simpa [he] using ih

theorem get?_adjust (t : Table κ α) (k k' : κ) (f : α → α) :
    (t.adjust k f).get? k' = if k = k' then (t.get? k').map f else t.get? k' := by
  rw [adjust, get?_mapValues]
  by_cases hk : k = k'
  · simp [hk]
  · simp [hk, Ne.symm hk]

theorem get?_insert (t : Table κ α) (k k' : κ) (v : α) :
    (t.insert k v).get? k' = if k = k' then some v else t.get? k' := by
  have h := t.get?_erase k k'
  simp only [get?] at h ⊢
  rw [insert, List.find?_append, Option.map_or, h]
  by_cases hk : k = k'
  · simp [hk]
  · simp [hk]

end Table

end ChatToken
