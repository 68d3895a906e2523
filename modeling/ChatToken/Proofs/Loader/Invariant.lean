import ChatToken.Loader.Run

/-! # The invariant of a loader

A load runs from its start until it is settled, and it is registered under its key exactly as long
as it runs. This is proved for every operation of a loader, and hence for every run. What a lookup
can do is said once, by `Looked`, and what the task of a load can do by `settle` and `reach`.
-/
namespace ChatToken.Loader

variable {κ ι ε : Type} [DecidableEq κ]

omit [DecidableEq κ] in
def Running (l : Loader κ ι ε) (id : Nat) (key : κ) : Prop :=
  ∃ t, l.tasks.get? id = some t ∧ t.key = key ∧ t.phase.unsettled = true

instance (l : Loader κ ι ε) (id : Nat) (key : κ) : Decidable (l.Running id key) :=
  match h : l.tasks.get? id with
  | some t => decidable_of_iff (t.key = key ∧ t.phase.unsettled = true) (by simp [Running, h])
  | none => .isFalse (by simp [Running, h])

structure Sound (l : Loader κ ι ε) : Prop where
  registered : ∀ key id, l.loading.get? key = some id ↔ l.Running id key
  numbered : ∀ id t, l.tasks.get? id = some t → id < l.nextLoad
  apart : ∀ key id, l.loading.get? key = some id → l.cache.get? key = none
  /-- A load has no ending as long as its task is there. -/
  open_ : ∀ id e, l.endings.get? id = some e → id < l.nextLoad ∧ l.tasks.get? id = none

omit [DecidableEq κ] in
theorem Running.key_unique {l : Loader κ ι ε} {id : Nat} {key key' : κ}
    (h : l.Running id key) (h' : l.Running id key') : key = key' := by
  obtain ⟨t,ht,hk,_⟩ := h
  obtain ⟨t',ht',hk',_⟩ := h'
  rw [ht] at ht'
  cases ht'
  exact hk.symm.trans hk'

namespace Sound
variable {l : Loader κ ι ε}

theorem load_unique (hs : l.Sound) {id id' : Nat} {key : κ}
    (h : l.Running id key) (h' : l.Running id' key) : id = id' := by
  have hr := (hs.registered key id).mpr h
  have hr' := (hs.registered key id').mpr h'
  rw [hr] at hr'
  exact Option.some.inj hr'

theorem registered_lt (hs : l.Sound) {id : Nat} {key : κ}
    (h : l.loading.get? key = some id) : id < l.nextLoad := by
  obtain ⟨t,ht,_⟩ := (hs.registered key id).mp h
  exact hs.numbered id t ht

theorem no_next_task (hs : l.Sound) : l.tasks.get? l.nextLoad = none := by
  cases h : l.tasks.get? l.nextLoad with
  | none => rfl
  | some t => exact absurd (hs.numbered _ _ h) (Nat.lt_irrefl _)

theorem no_next_ending (hs : l.Sound) : l.endings.get? l.nextLoad = none := by
  cases h : l.endings.get? l.nextLoad with
  | none => rfl
  | some e => exact absurd (hs.open_ _ _ h).1 (Nat.lt_irrefl _)

theorem no_ending (hs : l.Sound) {id : Nat} {t : LoadTask κ ι ε}
    (ht : l.tasks.get? id = some t) : l.endings.get? id = none := by
  cases h : l.endings.get? id with
  | none => rfl
  | some e => rw [(hs.open_ _ _ h).2] at ht; cases ht

end Sound

/-! ## What the operations change -/

omit [DecidableEq κ] in
@[simp] theorem reach_cache (l : Loader κ ι ε) (id : Nat) (p : Phase ι ε) :
    (l.reach id p).cache = l.cache := rfl

omit [DecidableEq κ] in
@[simp] theorem reach_loading (l : Loader κ ι ε) (id : Nat) (p : Phase ι ε) :
    (l.reach id p).loading = l.loading := rfl

omit [DecidableEq κ] in
@[simp] theorem reach_nextLoad (l : Loader κ ι ε) (id : Nat) (p : Phase ι ε) :
    (l.reach id p).nextLoad = l.nextLoad := rfl

omit [DecidableEq κ] in
@[simp] theorem reach_endings (l : Loader κ ι ε) (id : Nat) (p : Phase ι ε) :
    (l.reach id p).endings = l.endings := rfl

omit [DecidableEq κ] in
theorem reach_tasks (l : Loader κ ι ε) (id id' : Nat) (p : Phase ι ε) :
    (l.reach id p).tasks.get? id' =
      if id = id' then (l.tasks.get? id').map ({ · with phase := p }) else l.tasks.get? id' :=
  Table.get?_adjust ..

omit [DecidableEq κ] in
theorem running_reach_self (l : Loader κ ι ε) (id : Nat) (key : κ) (p : Phase ι ε) :
    (l.reach id p).Running id key ↔
      (∃ t, l.tasks.get? id = some t ∧ t.key = key) ∧ p.unsettled = true := by
  unfold Running
  rw [reach_tasks, if_pos rfl]
  cases l.tasks.get? id <;> simp

omit [DecidableEq κ] in
theorem running_reach_of_ne (l : Loader κ ι ε) {id id' : Nat} (h : id ≠ id') (key : κ)
    (p : Phase ι ε) : (l.reach id p).Running id' key ↔ l.Running id' key := by
  unfold Running
  rw [reach_tasks, if_neg h]

@[simp] theorem settle_tasks (l : Loader κ ι ε) (key : κ) (id : Nat) (item : Option ι) :
    (l.settle key id item).tasks = l.tasks := by
  unfold settle; split <;> rfl

@[simp] theorem settle_nextLoad (l : Loader κ ι ε) (key : κ) (id : Nat) (item : Option ι) :
    (l.settle key id item).nextLoad = l.nextLoad := by
  unfold settle; split <;> rfl

@[simp] theorem settle_endings (l : Loader κ ι ε) (key : κ) (id : Nat) (item : Option ι) :
    (l.settle key id item).endings = l.endings := by
  unfold settle; split <;> rfl

@[simp] theorem running_settle (l : Loader κ ι ε) (key key' : κ) (id id' : Nat) (item : Option ι) :
    (l.settle key id item).Running id' key' ↔ l.Running id' key' := by
  unfold Running
  rw [settle_tasks]

theorem settle_loading {l : Loader κ ι ε} {key : κ} {id : Nat} (h : l.loading.get? key = some id)
    (item : Option ι) (key' : κ) :
    (l.settle key id item).loading.get? key' =
      if key = key' then none else l.loading.get? key' := by
  unfold settle
  rw [if_pos h]
  exact Table.get?_erase ..

/-- The load of `key` leaves its item in the cache, and no other key is touched. -/
theorem settle_cache {l : Loader κ ι ε} {key : κ} {id : Nat} (h : l.loading.get? key = some id)
    (item : Option ι) (key' : κ) :
    (l.settle key id item).cache.get? key' =
      if key = key' then item.or (l.cache.get? key') else l.cache.get? key' := by
  unfold settle
  rw [if_pos h]
  cases item with
  | none => simp
  | some i => simpa using Table.get?_insert l.cache key key' i

/-- Whoever was settled before, or never was registered, changes nothing by settling. -/
theorem settle_of_not_registered {l : Loader κ ι ε} {key : κ} {id : Nat}
    (h : l.loading.get? key ≠ some id) (item : Option ι) : l.settle key id item = l := if_neg h

theorem start_loading (l : Loader κ ι ε) (key key' : κ) :
    (l.start key).loading.get? key' =
      if key = key' then some l.nextLoad else l.loading.get? key' :=
  Table.get?_insert ..

theorem start_tasks (l : Loader κ ι ε) (key : κ) (id : Nat) :
    (l.start key).tasks.get? id =
      if l.nextLoad = id then some { key } else l.tasks.get? id :=
  Table.get?_insert ..

theorem evict_cache (l : Loader κ ι ε) (key key' : κ) :
    (l.evict key).cache.get? key' = if key = key' then none else l.cache.get? key' :=
  Table.get?_erase ..

theorem evict_of_not_cached {l : Loader κ ι ε} {key : κ} (h : l.cache.get? key = none) :
    l.evict key = l := by
  unfold evict
  rw [Table.erase_of_get?_eq_none h]

/-! ## What a lookup can do -/

inductive Looked (l : Loader κ ι ε) (invalid : ι → Option ε) (canStart : Bool) (key : κ) :
    Lookup ι → Loader κ ι ε → Prop where
  | attached {id : Nat} : l.loading.get? key = some id → Looked l invalid canStart key (.loading id) l
  | hit {item : ι} : l.loading.get? key = none → l.cache.get? key = some item →
      invalid item = none → Looked l invalid canStart key (.cached item) l
  | started : l.loading.get? key = none →
      (∀ item, l.cache.get? key = some item → invalid item ≠ none) → canStart = true →
      Looked l invalid canStart key (.loading l.nextLoad) ((l.evict key).start key)
  | refused : l.loading.get? key = none →
      (∀ item, l.cache.get? key = some item → invalid item ≠ none) → canStart = false →
      Looked l invalid canStart key .refused (l.evict key)

theorem lookup_looked (l : Loader κ ι ε) (invalid : ι → Option ε) (canStart : Bool) (key : κ) :
    Looked l invalid canStart key (l.lookup invalid canStart key).1
      (l.lookup invalid canStart key).2.1 := by
  unfold lookup
  cases hl : l.loading.get? key with
  | some id => exact .attached hl
  | none =>
    cases hc : l.cache.get? key with
    | none =>
      have hn : ∀ item, l.cache.get? key = some item → invalid item ≠ none := by simp [hc]
      have he := evict_of_not_cached hc
      cases canStart with
      | true => simpa [lookupMissing, he] using Looked.started hl hn rfl
      | false => simpa [lookupMissing, he] using Looked.refused hl hn rfl
    | some item =>
      cases hi : invalid item with
      | none => simpa [hi] using Looked.hit hl hc hi
      | some reason =>
        have hn : ∀ item, l.cache.get? key = some item → invalid item ≠ none := by
          simp [hc, hi]
        cases canStart with
        | true =>
          simp only [hi, lookupMissing, if_true]
          exact .started hl hn rfl
        | false => simpa [lookupMissing, hi] using Looked.refused hl hn rfl

/-! ## Every operation keeps the invariant -/

namespace Sound
variable {l : Loader κ ι ε}

theorem empty : ({} : Loader κ ι ε).Sound where
  registered key id := by simp [Running]
  numbered id t h := by simp at h
  apart key id h := by simp at h
  open_ id e h := by simp at h

theorem evict (hs : l.Sound) (key : κ) : (l.evict key).Sound where
  registered := hs.registered
  numbered := hs.numbered
  apart key' id h := by
    rw [evict_cache]
    split
    · rfl
    · exact hs.apart key' id h
  open_ := hs.open_

/-- A new load may be started where neither a load runs nor an item is cached. -/
theorem start (hs : l.Sound) {key : κ} (hl : l.loading.get? key = none)
    (hc : l.cache.get? key = none) : (l.start key).Sound where
  registered key' id := by
    unfold Running
    rw [start_loading, start_tasks]
    by_cases hk : key = key'
    · subst hk
      rw [if_pos rfl]
      by_cases hi : l.nextLoad = id
      · simp [hi, Phase.unsettled]
      · have hr := hs.registered key id
        rw [hl] at hr
        simpa [hi, Running] using hr
    · rw [if_neg hk]
      by_cases hi : l.nextLoad = id
      · subst hi
        -- all registered numbers are smaller than the next one
        have hr : l.loading.get? key' ≠ some l.nextLoad :=
          fun h => Nat.lt_irrefl _ (hs.registered_lt h)
        simp [hr, hk]
      · simpa [hi, Running] using hs.registered key' id
  numbered id t h := by
    rw [start_tasks] at h
    change id < l.nextLoad + 1
    split at h
    · omega
    · exact Nat.lt_succ_of_lt (hs.numbered id t h)
  apart key' id h := by
    rw [start_loading] at h
    split at h
    · next hk => exact hk ▸ hc
    · exact hs.apart key' id h
  open_ id e h := by
    have ho := hs.open_ id e h
    refine ⟨Nat.lt_succ_of_lt ho.1, ?_⟩
    rw [start_tasks, if_neg (Nat.ne_of_gt ho.1)]
    exact ho.2

/-- A running load is settled, and its task gets to a phase in which it is. -/
theorem settle_reach (hs : l.Sound) {id : Nat} {t : LoadTask κ ι ε} (ht : l.tasks.get? id = some t)
    (hu : t.phase.unsettled = true) (item : Option ι) {p : Phase ι ε} (hp : p.unsettled = false) :
    ((l.settle t.key id item).reach id p).Sound := by
  have hl : l.loading.get? t.key = some id := (hs.registered _ _).mpr ⟨t,ht,rfl,hu⟩
  refine ⟨?_,?_,?_,?_⟩
  · intro key id'
    rw [reach_loading, settle_loading hl]
    by_cases hi : id = id'
    · subst hi
      rw [running_reach_self, hp]
      by_cases hk : t.key = key
      · simp [hk]
      · -- a number is registered under the key of its own task only
        have hn : l.loading.get? key ≠ some id := by
          intro h
          exact hk (((hs.registered _ _).mp hl).key_unique ((hs.registered _ _).mp h))
        simp [hk, hn]
    · rw [running_reach_of_ne _ hi, running_settle, ← hs.registered]
      by_cases hk : t.key = key
      · subst hk
        simp [hl, hi]
      · simp [hk]
  · intro id' t' h
    rw [reach_nextLoad, settle_nextLoad]
    rw [reach_tasks, settle_tasks] at h
    by_cases hi : id = id'
    · subst hi
      exact hs.numbered id t ht
    · rw [if_neg hi] at h
      exact hs.numbered id' t' h
  · intro key id' h
    rw [reach_loading, settle_loading hl] at h
    rw [reach_cache, settle_cache hl]
    by_cases hk : t.key = key
    · simp [hk] at h
    · rw [if_neg hk] at h ⊢
      exact hs.apart key id' h
  · intro id' e h
    rw [reach_endings, settle_endings] at h
    rw [reach_nextLoad, settle_nextLoad]
    have ho := hs.open_ id' e h
    refine ⟨ho.1,?_⟩
    rw [reach_tasks, settle_tasks, ho.2]
    simp

/-- A task gets on without settling its load. -/
theorem reach (hs : l.Sound) {id : Nat} {t : LoadTask κ ι ε} (ht : l.tasks.get? id = some t)
    {p : Phase ι ε} (hp : p.unsettled = t.phase.unsettled) : (l.reach id p).Sound := by
  refine ⟨?_,?_,hs.apart,?_⟩
  · intro key id'
    rw [reach_loading, hs.registered]
    by_cases hi : id = id'
    · subst hi
      rw [running_reach_self, hp]
      simp [Running, ht]
    · rw [running_reach_of_ne _ hi]
  · intro id' t' h
    rw [reach_tasks] at h
    by_cases hi : id = id'
    · subst hi
      exact hs.numbered id t ht
    · rw [if_neg hi] at h
      exact hs.numbered id' t' h
  · intro id' e h
    have ho := hs.open_ id' e h
    refine ⟨ho.1,?_⟩
    rw [reach_tasks, ho.2]
    simp

/-- The task of a settled load is not registered, so its guard settles nothing. -/
theorem settle_settled (hs : l.Sound) {id : Nat} {t : LoadTask κ ι ε}
    (ht : l.tasks.get? id = some t) (hu : t.phase.unsettled = false) (key : κ) (item : Option ι) :
    l.settle key id item = l := by
  apply settle_of_not_registered
  intro h
  obtain ⟨t',ht',_,hu'⟩ := (hs.registered key id).mp h
  rw [ht] at ht'
  cases ht'
  rw [hu] at hu'
  cases hu'

/-- The task of a load that is over is gone, and the ending stays. -/
theorem handOver (hs : l.Sound) {id : Nat} {t : LoadTask κ ι ε} (ht : l.tasks.get? id = some t)
    (hu : t.phase.unsettled = false) (e : Ending ι ε) :
    Sound { l with tasks := l.tasks.erase id, endings := l.endings.insert id e } := by
  refine ⟨?_,?_,hs.apart,?_⟩
  · intro key id'
    unfold Running
    rw [hs.registered, Table.get?_erase]
    by_cases hi : id = id'
    · subst hi
      simp [Running, ht, hu]
    · simp [Running, hi]
  · intro id' t' h
    rw [Table.get?_erase] at h
    split at h
    · cases h
    · exact hs.numbered id' t' h
  · intro id' e' h
    rw [Table.get?_insert] at h
    rw [Table.get?_erase]
    by_cases hi : id = id'
    · subst hi
      exact ⟨hs.numbered id t ht,by simp⟩
    · rw [if_neg hi] at h ⊢
      exact hs.open_ id' e' h

theorem looked (hs : l.Sound) {invalid : ι → Option ε} {canStart : Bool} {key : κ}
    {a : Lookup ι} {l' : Loader κ ι ε} (h : Looked l invalid canStart key a l') : l'.Sound := by
  cases h with
  | attached => exact hs
  | hit => exact hs
  | started hl => exact (hs.evict key).start hl (by simp [evict_cache])
  | refused => exact hs.evict key

end Sound

/-! ## What the task of a load can do -/

section Tasks
variable (l : Loader κ ι ε) (id : Nat)

omit [DecidableEq κ] in
theorem begin_cases :
    (∃ t, l.tasks.get? id = some t ∧ t.phase = .waiting ∧ (l.begin id).1 = l.reach id .working) ∨
    (l.begin id).1 = l := by
  unfold begin
  split
  · next key h => exact .inl ⟨_,h,rfl,rfl⟩
  · exact .inr rfl

theorem complete_cases (invalid : ι → Option ε) (result : Except ε ι) :
    (∃ t, l.tasks.get? id = some t ∧ t.phase.unsettled = true ∧
      (l.complete invalid id result).1 =
        (l.settle t.key id (keepResult invalid t.key result).1).reach id
          (.settled (endingOf result))) ∨
    ((∀ t, l.tasks.get? id = some t → t.phase.unsettled = false) ∧
      (l.complete invalid id result).1 = l) := by
  unfold complete
  cases h : l.tasks.get? id with
  | none => exact .inr ⟨by simp,rfl⟩
  | some t =>
    cases hu : t.phase.unsettled with
    | true => exact .inl ⟨t,rfl,hu,by simp [hu]⟩
    | false => exact .inr ⟨by simp [hu],by simp [hu]⟩

/-- Letting the guard go settles nothing: only the task gets on. -/
theorem Sound.letGo_cases (hs : l.Sound) :
    (∃ t e, l.tasks.get? id = some t ∧ t.phase = .settled e ∧
      l.letGo id = l.reach id (.released e)) ∨
    ((∀ t e, l.tasks.get? id = some t → t.phase ≠ .settled e) ∧ l.letGo id = l) := by
  unfold letGo
  split
  · next key e h => exact .inl ⟨_,e,h,rfl,by rw [hs.settle_settled h rfl]⟩
  · next hn =>
    refine .inr ⟨?_,rfl⟩
    rintro ⟨key,p⟩ e h rfl
    exact hn key e h

theorem Sound.die_cases (hs : l.Sound) :
    (∃ t, l.tasks.get? id = some t ∧ t.phase.unsettled = true ∧
      l.die id = (l.settle t.key id none).reach id (.released .lost)) ∨
    (∃ t, l.tasks.get? id = some t ∧ t.phase.unsettled = false ∧
      l.die id = l.reach id (.released .lost)) ∨
    (l.tasks.get? id = none ∧ l.die id = l) := by
  unfold die
  split
  · next h => exact .inr (.inr ⟨h,rfl⟩)
  · next key e h => exact .inr (.inl ⟨_,h,rfl,rfl⟩)
  · next key p hn h =>
    cases hu : p.unsettled with
    | true => exact .inl ⟨_,h,hu,rfl⟩
    | false => exact .inr (.inl ⟨_,h,hu,by rw [hs.settle_settled h hu]⟩)

omit [DecidableEq κ] in
theorem handOver_cases :
    (∃ t e, l.tasks.get? id = some t ∧ t.phase = .released e ∧
      l.handOver id =
        { l with tasks := l.tasks.erase id, endings := l.endings.insert id e }) ∨
    ((∀ t e, l.tasks.get? id = some t → t.phase ≠ .released e) ∧ l.handOver id = l) := by
  unfold handOver
  split
  · next key e h => exact .inl ⟨_,e,h,rfl,rfl⟩
  · next hn =>
    refine .inr ⟨?_,rfl⟩
    rintro ⟨key,p⟩ e h rfl
    exact hn key e h

end Tasks

/-! ## Steps and runs -/

theorem World.step_sound (w : World κ ι ε) (hs : w.loader.Sound) (e : Event κ ι ε) :
    (w.step e).loader.Sound := by
  cases e with
  | lookup canStart key => exact hs.looked (lookup_looked ..)
  | invalidate key => exact hs.evict key
  | begin id =>
    rcases begin_cases w.loader id with ⟨t,ht,hp,he⟩ | he
    · simp only [step, he]
      exact hs.reach ht (by rw [hp]; rfl)
    · simpa only [step, he] using hs
  | complete id result =>
    rcases complete_cases w.loader id w.invalid result with ⟨t,ht,hu,he⟩ | ⟨_,he⟩
    · simp only [step, he]
      exact hs.settle_reach ht hu _ rfl
    · simpa only [step, he] using hs
  | letGo id =>
    rcases hs.letGo_cases w.loader id with ⟨t,e,ht,hp,he⟩ | ⟨_,he⟩
    · simp only [step, he]
      exact hs.reach ht (by rw [hp]; rfl)
    · simpa only [step, he] using hs
  | die id =>
    rcases hs.die_cases w.loader id with ⟨t,ht,hu,he⟩ | ⟨t,ht,hu,he⟩ | ⟨_,he⟩
    · simp only [step, he]
      exact hs.settle_reach ht hu none rfl
    · simp only [step, he]
      exact hs.reach ht hu.symm
    · simpa only [step, he] using hs
  | handOver id =>
    rcases handOver_cases w.loader id with ⟨t,e,ht,hp,he⟩ | ⟨_,he⟩
    · simp only [step, he]
      exact hs.handOver ht (by rw [hp]; rfl) e
    · simpa only [step, he] using hs
  | pass nanos => exact hs
  | judge rule => exact hs

theorem World.run_sound (w : World κ ι ε) (hs : w.loader.Sound) (es : List (Event κ ι ε)) :
    (w.run es).loader.Sound := by
  induction es generalizing w with
  | nil => exact hs
  | cons e es ih => exact ih (w.step e) (w.step_sound hs e)

end ChatToken.Loader
