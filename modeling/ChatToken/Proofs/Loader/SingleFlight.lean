import ChatToken.Proofs.Loader.Invariant

/-! # At most one load of a key at a time

The registered loads are exactly those that run, so a key never has two of them, whatever lookups,
deaths and late guards come in between. A guard that is let go after its load was settled leaves
everything but its own task alone, also if the next load of the same key is registered by then.
-/
namespace ChatToken.Loader

variable {κ ι ε : Type} [DecidableEq κ]

/-- In every reachable state: the running load of a key is the registered one, and the only one;
registered numbers are distinct and were all given out; no key has an item and a running load; and
settling a settled load once more changes nothing, whether its task lets its guard go or dies. -/
theorem single_flight (rule : Nat → ι → Option ε) (es : List (Event κ ι ε)) :
    let l := ((World.new rule).run es).loader
    (∀ key id, l.loading.get? key = some id ↔ l.Running id key) ∧
    (∀ key id id', l.Running id key → l.Running id' key → id = id') ∧
    (∀ key key' id, l.loading.get? key = some id → l.loading.get? key' = some id → key = key') ∧
    (∀ key id, l.loading.get? key = some id → id < l.nextLoad) ∧
    (∀ key, ¬(l.cache.contains key = true ∧ l.loading.contains key = true)) ∧
    (∀ id t e, l.tasks.get? id = some t → t.phase = .settled e →
      l.settle t.key id none = l ∧ l.letGo id = l.reach id (.released e) ∧
      l.die id = l.reach id (.released .lost)) := by
  intro l
  have hs : l.Sound := World.run_sound _ .empty es
  refine ⟨hs.registered,?_,?_,?_,?_,?_⟩
  · intro key id id' h h'
    exact hs.load_unique h h'
  · intro key key' id h h'
    exact ((hs.registered _ _).mp h).key_unique ((hs.registered _ _).mp h')
  · intro key id h
    exact hs.registered_lt h
  · rintro key ⟨hc,hl⟩
    obtain ⟨id,hi⟩ := Option.isSome_iff_exists.mp hl
    simp [Table.contains, hs.apart key id hi] at hc
  · intro id t e ht hp
    have hu : t.phase.unsettled = false := by rw [hp]; rfl
    refine ⟨hs.settle_settled ht hu _ _,?_,?_⟩
    · rcases hs.letGo_cases l id with ⟨t',e',ht',hp',he⟩ | ⟨hn,_⟩
      · rw [ht] at ht'
        cases ht'
        rw [hp] at hp'
        cases hp'
        exact he
      · exact absurd hp (hn t e ht)
    · rcases hs.die_cases l id with ⟨t',ht',hu',_⟩ | ⟨_,_,_,he⟩ | ⟨hn,_⟩
      · rw [ht] at ht'
        cases ht'
        rw [hu] at hu'
        cases hu'
      · exact he
      · rw [hn] at ht
        cases ht

/-- The guard of a settled load can outlive the start of the next load of its key. -/
example :
    let l := ((World.new fun _ (_ : Nat) => (none : Option Nat)).run
      [.lookup true 7, .complete 0 (.ok 1), .invalidate 7, .lookup true 7]).loader
    l.tasks.get? 0 = some ⟨7, .settled (.loaded 1)⟩ ∧ l.loading.get? 7 = some 1 ∧
      (l.letGo 0).loading.get? 7 = some 1 := by
  decide

end ChatToken.Loader
