import Mathlib.Data.Set.Card
import Mathlib.Data.List.Nodup
import ChatToken.Table

/-! # The keys of a table

A table has as many entries as keys, because no key is listed twice. For the same reason, looking a
key up among the entries that are kept comes to looking at what the table has under it.
-/
namespace ChatToken.Table

variable {κ α : Type} [DecidableEq κ]

theorem mem_keys_iff (t : Table κ α) (k : κ) : k ∈ t.keys ↔ (t.get? k).isSome = true := by
  rw [get?, Option.isSome_map, List.find?_isSome, keys, List.mem_map]
  simp

theorem mem_entries_iff (t : Table κ α) (k : κ) (v : α) :
    (k, v) ∈ t.entries ↔ t.get? k = some v := by
  obtain ⟨es,hn⟩ := t
  simp only [get?]
  induction es with
  | nil => simp
  | cons e es ih =>
    obtain ⟨he,hes⟩ := List.nodup_cons.mp hn
    rw [List.mem_cons, ih hes]
    by_cases hk : e.1 = k
    · subst hk
      have hnone : ∀ v, (e.1, v) ∉ es := fun v hv => he (List.mem_map.mpr ⟨_,hv,rfl⟩)
      have hfind : (es.find? (·.1 = e.1)).map (·.2) ≠ some v := by
        rw [Ne, ← ih hes]
        exact hnone v
      rw [or_iff_left hfind, List.find?_cons_of_pos (by simp)]
      simp [Prod.ext_iff, eq_comm]
    · have hne : (k, v) ≠ e := fun h => hk (congrArg Prod.fst h).symm
      simp [hk, hne]

theorem encard_keys (t : Table κ α) : {k | (t.get? k).isSome = true}.encard = t.size := by
  have hk : {k | (t.get? k).isSome = true} = (t.keys.toFinset : Set κ) := by
    ext k
    rw [Finset.mem_coe, List.mem_toFinset, mem_keys_iff]
    rfl
  have hn : t.keys.Nodup := t.nodup
  rw [hk, Set.encard_coe_eq_coe_finsetCard, List.toFinset_card_of_nodup hn]
  simp [keys, size]

/-- A table that has lost one key is smaller by one. -/
theorem size_of_gone {t t' : Table κ α} {k : κ} (hk : (t.get? k).isSome = true)
    (h : ∀ k', t'.get? k' = if k = k' then none else t.get? k') : t'.size + 1 = t.size := by
  have hset : {k' | (t.get? k').isSome = true} = Insert.insert k {k' | (t'.get? k').isSome = true} := by
    ext k'
    rw [Set.mem_insert_iff, Set.mem_ofPred_eq, Set.mem_ofPred_eq, h]
    by_cases hkk : k = k'
    · subst hkk
      simp [hk]
    · simp [hkk, Ne.symm hkk]
  have hnot : k ∉ {k' | (t'.get? k').isSome = true} := by simp [h]
  have hcard := Set.encard_insert_of_notMem hnot
  rw [← hset, encard_keys, encard_keys] at hcard
  exact_mod_cast hcard.symm

theorem size_of_new {t t' : Table κ α} {k : κ} {v : α} (hk : t.get? k = none)
    (h : ∀ k', t'.get? k' = if k = k' then some v else t.get? k') : t'.size = t.size + 1 := by
  refine (@size_of_gone _ _ _ t' t k (by simp [h]) fun k' => ?_).symm
  by_cases hkk : k = k'
  · subst hkk
    simpa using hk
  · simp [h, hkk]

theorem size_congr {t t' : Table κ α} (h : ∀ k, t'.get? k = t.get? k) : t'.size = t.size := by
  have hset := encard_keys t'
  simp only [h] at hset
  rw [encard_keys] at hset
  exact_mod_cast hset.symm

theorem adjust_adjust (t : Table κ α) (k : κ) (f g : α → α) :
    (t.adjust k f).adjust k g = t.adjust k (g ∘ f) := by
  unfold adjust mapValues
  simp only [List.map_map, mk.injEq]
  apply List.map_congr_left
  intro e _
  by_cases he : e.1 = k <;> simp [he]

/-- A key is listed once, so an entry that is not kept leaves nothing behind. -/
theorem get?_keep (t : Table κ α) (p : κ → α → Bool) (k : κ) :
    (t.keep p).get? k = (t.get? k).filter (p k) := by
  obtain ⟨es,hn⟩ := t
  simp only [get?, keep]
  induction es with
  | nil => rfl
  | cons e es ih =>
    obtain ⟨he,hes⟩ := List.nodup_cons.mp hn
    have ih := ih hes
    by_cases hk : e.1 = k
    · subst hk
      have hnone : (es.filter fun e => p e.1 e.2).find? (·.1 = e.1) = none := by
        rw [List.find?_eq_none]
        intro e' he' hk
        simp only [decide_eq_true_eq] at hk
        exact he (List.mem_map.mpr ⟨e',(List.mem_filter.mp he').1,hk⟩)
      cases hp : p e.1 e.2 <;> simp [hp, hnone, Option.filter]
    · cases hp : p e.1 e.2 <;> simpa [List.filter_cons, hp, hk] using ih

end ChatToken.Table
