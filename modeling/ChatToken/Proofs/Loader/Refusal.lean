import ChatToken.Proofs.Loader.Counts
import ChatToken.Proofs.Loader.PerKey

/-! # Lookups where no load can be started

A lookup that finds a running load or a valid item does not care whether a load could be started. If
it finds neither, it is refused where none can be, and has then done to the loader what an
invalidation of its key does: at most an item that is not valid any more is gone. So the loader can
be used from then on as if the key had been invalidated.
-/
namespace ChatToken.Loader

variable {κ ι ε : Type} [DecidableEq κ]

/-! ## The loads that were started -/

omit [DecidableEq κ] in
/-- The number of loads that were ever started: of each there is a task, or else its ending. -/
def launched (l : Loader κ ι ε) : Nat := l.tasks.size + l.endings.size

omit [DecidableEq κ] in
theorem launched_reach (l : Loader κ ι ε) (id : Nat) (p : Phase ι ε) :
    (l.reach id p).launched = l.launched := by
  simp [launched, reach, Table.adjust, Table.mapValues, Table.size]

theorem launched_settle (l : Loader κ ι ε) (key : κ) (id : Nat) (item : Option ι) :
    (l.settle key id item).launched = l.launched := by
  unfold launched
  rw [settle_tasks, settle_endings]

theorem Sound.launched_start {l : Loader κ ι ε} (hs : l.Sound) (key : κ) :
    (l.start key).launched = l.launched + 1 := by
  have ht : (l.start key).tasks.size = l.tasks.size + 1 :=
    Table.size_of_new hs.no_next_task (l.start_tasks key)
  have he : (l.start key).endings = l.endings := rfl
  unfold launched
  rw [ht, he]
  omega

/-- A task that is gone has left an ending. -/
theorem Sound.launched_handOver {l : Loader κ ι ε} (hs : l.Sound) (id : Nat) :
    (l.handOver id).launched = l.launched := by
  rcases handOver_cases l id with ⟨t,e,ht,_,hc⟩ | ⟨_,hc⟩
  · rw [hc]
    have hgone : (l.tasks.erase id).size + 1 = l.tasks.size := by
      apply Table.size_of_gone (k := id) (by simp [ht])
      exact Table.get?_erase l.tasks id
    have hnew : (l.endings.insert id e).size = l.endings.size + 1 := by
      apply Table.size_of_new (hs.no_ending ht)
      exact fun id' => Table.get?_insert l.endings id id' e
    simp only [launched]
    omega
  · rw [hc]

theorem Looked.launched {l l' : Loader κ ι ε} {invalid : ι → Option ε} {canStart : Bool} {key : κ}
    {a : Lookup ι} (h : Looked l invalid canStart key a l') (hs : l.Sound)
    (hl : l.launched = l.nextLoad) : l'.launched = l'.nextLoad := by
  cases h with
  | attached => exact hl
  | hit => exact hl
  | started =>
    rw [(hs.evict key).launched_start]
    exact congrArg (· + 1) hl
  | refused => exact hl

theorem World.step_launched (w : World κ ι ε) (hs : w.loader.Sound)
    (h : w.loader.launched = w.loader.nextLoad) (e : Event κ ι ε) :
    (w.step e).loader.launched = (w.step e).loader.nextLoad := by
  cases e with
  | lookup canStart key => exact (lookup_looked ..).launched hs h
  | invalidate key => exact h
  | begin id =>
    rcases begin_cases w.loader id with ⟨_,_,_,hc⟩ | hc <;>
      simp only [step, hc, launched_reach, reach_nextLoad, h]
  | complete id result =>
    rcases complete_cases w.loader id w.invalid result with ⟨_,_,_,hc⟩ | ⟨_,hc⟩ <;>
      simp only [step, hc, launched_reach, launched_settle, reach_nextLoad, settle_nextLoad, h]
  | letGo id =>
    rcases hs.letGo_cases w.loader id with ⟨_,_,_,_,hc⟩ | ⟨_,hc⟩ <;>
      simp only [step, hc, launched_reach, reach_nextLoad, h]
  | die id =>
    rcases hs.die_cases w.loader id with ⟨_,_,_,hc⟩ | ⟨_,_,_,hc⟩ | ⟨_,hc⟩ <;>
      simp only [step, hc, launched_reach, launched_settle, reach_nextLoad, settle_nextLoad, h]
  | handOver id =>
    have hn : (w.loader.handOver id).nextLoad = w.loader.nextLoad := by
      rcases handOver_cases w.loader id with ⟨_,_,_,_,hc⟩ | ⟨_,hc⟩ <;> rw [hc]
    simp only [step, hs.launched_handOver, hn, h]
  | pass nanos => exact h
  | judge rule => exact h

/-- Loads are numbered without a gap: the next number is how many were ever started. -/
theorem World.run_launched (w : World κ ι ε) (hs : w.loader.Sound)
    (h : w.loader.launched = w.loader.nextLoad) (es : List (Event κ ι ε)) :
    (w.run es).loader.launched = (w.run es).loader.nextLoad := by
  induction es generalizing w with
  | nil => exact h
  | cons e es ih => exact ih (w.step e) (w.step_sound hs e) (w.step_launched hs h e)

/-! ## What a refusal leaves alone -/

structure Unharmed (key : κ) (l l' : Loader κ ι ε) : Prop where
  loading : l'.loading = l.loading
  running : l'.runningLoads = l.runningLoads
  nextLoad : l'.nextLoad = l.nextLoad
  launched : l'.launched = l.launched
  tasks : l'.tasks = l.tasks
  endings : l'.endings = l.endings
  others : ∀ key', key' ≠ key → l'.cache.get? key' = l.cache.get? key'
  gone : l'.cache.get? key = none
  /-- Where there was no item, nothing has changed at all. -/
  same : l.cache.get? key = none → l' = l

theorem unharmed_evict (l : Loader κ ι ε) (key : κ) : Unharmed key l (l.evict key) := by
  refine ⟨rfl,rfl,rfl,rfl,rfl,rfl,?_,?_,?_⟩
  · intro key' hk
    rw [evict_cache, if_neg hk.symm]
  · rw [evict_cache, if_pos rfl]
  · intro hc
    exact evict_of_not_cached hc

namespace World

def Serves (w : World κ ι ε) (key : κ) : Prop :=
  (w.loader.loading.get? key).isSome = true ∨
    ∃ item, w.loader.cache.get? key = some item ∧ w.invalid item = none

theorem not_serves_iff (w : World κ ι ε) (key : κ) :
    ¬w.Serves key ↔ w.loader.loading.get? key = none ∧
      ∀ item, w.loader.cache.get? key = some item → w.invalid item ≠ none := by
  simp [Serves]

/-- Whether a load can be started is asked only where one is needed. -/
theorem lookup_of_serves {w : World κ ι ε} {key : κ} (h : w.Serves key) (canStart : Bool) :
    w.loader.lookup w.invalid canStart key = w.loader.lookup w.invalid true key ∧
    w.look canStart key ≠ .refused ∧ w.step (.lookup canStart key) = w := by
  rcases h with hl | ⟨item,hc,hi⟩
  · obtain ⟨id,hl⟩ := Option.isSome_iff_exists.mp hl
    simp [look, step, Loader.lookup, hl]
  · cases hl : w.loader.loading.get? key <;> simp [look, step, Loader.lookup, hl, hc, hi]

/-- Where a load is needed and none can be started, the key is invalidated. -/
theorem refused_of_not_serves {w : World κ ι ε} {key : κ} (h : ¬w.Serves key) :
    w.look false key = .refused ∧ w.step (.lookup false key) = w.step (.invalidate key) := by
  obtain ⟨hnone,hinvalid⟩ := (w.not_serves_iff key).mp h
  have hk := lookup_looked w.loader w.invalid false key
  simp only [look, step, invalidate]
  generalize (w.loader.lookup w.invalid false key).1 = a at hk ⊢
  generalize (w.loader.lookup w.invalid false key).2.1 = l' at hk ⊢
  cases hk with
  | attached hl =>
    rw [hnone] at hl
    cases hl
  | hit _ hc hi => exact absurd hi (hinvalid _ hc)
  | started _ _ hstart => cases hstart
  | refused => exact ⟨rfl,rfl⟩

/-! ## A lookup that starts a load -/

/-- A lookup of `key` where a load can be started starts exactly one, which all others are told. -/
structure StartsOne (w : World κ ι ε) (key : κ) : Prop where
  answer : w.look true key = .loading w.loader.nextLoad
  nextLoad : (w.step (.lookup true key)).loader.nextLoad = w.loader.nextLoad + 1
  launched : (w.step (.lookup true key)).loader.launched = w.loader.launched + 1
  running : (w.step (.lookup true key)).loader.runningLoads = w.loader.runningLoads + 1
  registered : ∀ key', (w.step (.lookup true key)).loader.loading.get? key' =
    if key = key' then some w.loader.nextLoad else w.loader.loading.get? key'
  tasks : ∀ id, (w.step (.lookup true key)).loader.tasks.get? id =
    if w.loader.nextLoad = id then some { key } else w.loader.tasks.get? id
  /-- Later lookups attach to that load. -/
  attached : ∀ canStart,
    (w.step (.lookup true key)).look canStart key = .loading w.loader.nextLoad ∧
    (w.step (.lookup true key)).step (.lookup canStart key) = w.step (.lookup true key)

theorem startsOne {w : World κ ι ε} (hs : w.loader.Sound) {key : κ}
    (hl : w.loader.loading.get? key = none) (hc : w.loader.cache.get? key = none) :
    w.StartsOne key := by
  have hlook : w.look true key = .loading w.loader.nextLoad := by
    simp [look, Loader.lookup, lookupMissing, hl, hc]
  have hstep : w.step (.lookup true key) = { w with loader := w.loader.start key } := by
    simp [step, Loader.lookup, lookupMissing, hl, hc]
  have hreg : (w.loader.start key).loading.get? key = some w.loader.nextLoad := by
    rw [start_loading, if_pos rfl]
  refine ⟨hlook,?_,?_,?_,?_,?_,?_⟩ <;> rw [hstep]
  · rfl
  · exact hs.launched_start key
  · exact runningLoads_start hl
  · exact w.loader.start_loading key
  · exact w.loader.start_tasks key
  · intro canStart
    simp [look, step, Loader.lookup, hreg]

theorem slot_run_of_no_steps (w : World κ ι ε) (hs : w.loader.Sound) {key : κ}
    {es : List (Event κ ι ε)} (h : w.steps key es = []) :
    (w.run es).loader.slot key = w.loader.slot key := by
  induction es generalizing w with
  | nil => rfl
  | cons e es ih =>
    obtain ⟨hown,hrest⟩ := List.append_eq_nil_iff.mp h
    have hslot := (w.step_other hs (Option.toList_eq_nil_iff.mp hown)).2
    exact (ih (w.step e) (w.step_sound hs e) hrest).trans hslot

end World

theorem slot_eq_empty {l : Loader κ ι ε} {key : κ} :
    l.slot key = .empty ↔ l.loading.get? key = none ∧ l.cache.get? key = none := by
  unfold slot
  cases l.loading.get? key <;> cases l.cache.get? key <;> simp

/-- In every reachable state and for every key: a lookup made where no load can be started is
answered as one made where loads can be, and changes nothing, if a load of the key runs or its item
is valid now. Otherwise it is refused. Then the running loads, the next number, the number of loads
that were ever started and the items of all other keys are as before, and the state is the one in
which the item of the key was removed, from which every later operation goes on; a later lookup of
the key starts exactly one load, if loads can be started by then and nobody has asked for the key
since. -/
theorem lookup_without_start (rule : Nat → ι → Option ε) (es : List (Event κ ι ε)) (key : κ) :
    let w : World κ ι ε := (World.new rule).run es
    (w.Serves key →
      w.loader.lookup w.invalid false key = w.loader.lookup w.invalid true key ∧
      w.look false key ≠ .refused ∧ w.step (.lookup false key) = w) ∧
    (¬w.Serves key →
      w.look false key = .refused ∧
      Unharmed key w.loader (w.step (.lookup false key)).loader ∧
      (w.step (.lookup false key)).loader.launched = w.loader.nextLoad ∧
      w.step (.lookup false key) = w.step (.invalidate key) ∧
      ∀ later, (w.step (.lookup false key)).steps key later = [] →
        ((w.step (.lookup false key)).run later).StartsOne key) := by
  intro w
  have hs : w.loader.Sound := World.run_sound _ .empty es
  refine ⟨fun h => World.lookup_of_serves h false,?_⟩
  intro h
  obtain ⟨hlook,hstep⟩ := World.refused_of_not_serves h
  refine ⟨hlook,?_,?_,hstep,?_⟩
  · rw [hstep]
    exact unharmed_evict w.loader key
  · rw [hstep]
    exact World.run_launched _ .empty rfl es
  · intro later hlater
    have hs' := w.step_sound hs (.lookup false key)
    have hslot := World.slot_run_of_no_steps _ hs' hlater
    have hempty : (w.step (.lookup false key)).loader.slot key = .empty := by
      rw [hstep, slot_eq_empty]
      exact ⟨((w.not_serves_iff key).mp h).1,(unharmed_evict w.loader key).gone⟩
    rw [hempty, slot_eq_empty] at hslot
    exact World.startsOne (World.run_sound _ hs' later) hslot.1 hslot.2

/-- An item that was loaded is not valid by another rule. The lookup that finds it is refused and
takes it out, and the next one starts a load. -/
theorem stale_item_refused :
    let w : World Nat Nat Nat := (World.new fun _ _ => none).run
      [.lookup true 7, .begin 0, .complete 0 (.ok 1), .letGo 0, .handOver 0,
        .judge fun _ _ => some 3]
    w.loader.cache.get? 7 = some 1 ∧ ¬w.Serves 7 ∧ w.look false 7 = .refused ∧
      Unharmed 7 w.loader (w.step (.lookup false 7)).loader ∧
      (w.step (.lookup false 7)).StartsOne 7 := by
  intro w
  have hw : ¬w.Serves 7 := by
    rw [World.not_serves_iff]
    exact ⟨by decide,fun item _ => by simp [w, World.invalid, World.run, World.step]⟩
  have h := (lookup_without_start (fun _ _ => none) _ 7).2 hw
  exact ⟨by decide,hw,h.1,h.2.1,h.2.2.2.2 [] rfl⟩

end ChatToken.Loader
