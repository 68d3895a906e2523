import Mathlib.Order.Monotone.Basic
import ChatToken.Proofs.Loader.Invariant
import ChatToken.Proofs.Table

/-! # A loader is a product of automata, one for each key

The automaton of a key knows nothing of other keys. It is empty, waits for a load, or holds an item,
and it counts the loads that it has started. Every run of a loader is taken apart into the steps of
each key; the answers of the loader are those of the automata, whose loads only have to be given
their numbers.
-/
namespace ChatToken.Loader

variable {κ ι ε : Type}

inductive Slot (ι : Type) where
  | empty
  | pending (load : Nat)
  | settled (item : ι)

inductive Answer (ι : Type) where
  | cached (item : ι)
  | attached (load : Nat)
  | started (load : Nat)
  | refused
  | removed (item : Option ι)

inductive KeyStep (ι ε : Type) where
  | lookup (canStart : Bool) (invalid : ι → Option ε)
  | invalidate
  /-- A load ended with a result, which is judged at that moment. -/
  | finished (load : Nat) (invalid : ι → Option ε) (result : Except ε ι)
  | lost (load : Nat)

structure KeyState (ι : Type) where
  slot : Slot ι := .empty
  started : Nat := 0

namespace KeyState

def leaving (invalid : ι → Option ε) : Except ε ι → Slot ι
  | .ok item => match invalid item with
    | none => .settled item
    | some _ => .empty
  | .error _ => .empty

def endLoad (s : KeyState ι) (load : Nat) (left : Slot ι) : KeyState ι :=
  match s.slot with
  | .pending load' => if load' = load then { s with slot := left } else s
  | _ => s

variable (name : Nat → Nat)

/-- Starts the next load, if one can be started. The `n`-th load is called `name n`. -/
def launch (s : KeyState ι) (canStart : Bool) : Option (Answer ι) × KeyState ι :=
  if canStart then
    (some (.started (name s.started)),
      { slot := .pending (name s.started), started := s.started + 1 })
  else (some .refused, { s with slot := .empty })

def step (s : KeyState ι) : KeyStep ι ε → Option (Answer ι) × KeyState ι
  | .lookup canStart invalid => match s.slot with
    | .pending load => (some (.attached load), s)
    | .settled item => match invalid item with
      | none => (some (.cached item), s)
      | some _ => s.launch name canStart
    | .empty => s.launch name canStart
  | .invalidate => match s.slot with
    | .settled item => (some (.removed (some item)), { s with slot := .empty })
    | _ => (some (.removed none), s)
  | .finished load invalid result => (none, s.endLoad load (leaving invalid result))
  | .lost load => (none, s.endLoad load .empty)

def run (s : KeyState ι) (steps : List (KeyStep ι ε)) : KeyState ι :=
  steps.foldl (fun s x => (s.step name x).2) s

def answers (s : KeyState ι) : List (KeyStep ι ε) → List (Answer ι)
  | [] => []
  | x :: steps => (s.step name x).1.toList ++ answers (s.step name x).2 steps

end KeyState

/-! ## A run as seen from one key -/

variable [DecidableEq κ]

def slot (l : Loader κ ι ε) (key : κ) : Slot ι :=
  match l.loading.get? key with
  | some id => .pending id
  | none => match l.cache.get? key with
    | some item => .settled item
    | none => .empty

namespace World

def own (w : World κ ι ε) (key : κ) : Event κ ι ε → Option (KeyStep ι ε)
  | .lookup canStart key' => if key' = key then some (.lookup canStart w.invalid) else none
  | .invalidate key' => if key' = key then some .invalidate else none
  | .complete id result =>
    if w.loader.Running id key then some (.finished id w.invalid result) else none
  | .die id => if w.loader.Running id key then some (.lost id) else none
  | _ => none

def answer (w : World κ ι ε) (key : κ) : Event κ ι ε → Option (Answer ι)
  | .lookup canStart key' =>
    if key' = key then
      some (match w.look canStart key with
        | .cached item => .cached item
        | .loading id => if id = w.loader.nextLoad then .started id else .attached id
        | .refused => .refused)
    else none
  | .invalidate key' =>
    if key' = key then some (.removed (w.loader.invalidate key).1) else none
  | _ => none

def steps (w : World κ ι ε) (key : κ) : List (Event κ ι ε) → List (KeyStep ι ε)
  | [] => []
  | e :: es => (w.own key e).toList ++ steps (w.step e) key es

def answers (w : World κ ι ε) (key : κ) : List (Event κ ι ε) → List (Answer ι)
  | [] => []
  | e :: es => (w.answer key e).toList ++ answers (w.step e) key es

end World

/-! ## What the operations change for a key -/

def left : Option ι → Slot ι
  | some item => .settled item
  | none => .empty

omit [DecidableEq κ] in
theorem left_keepResult (invalid : ι → Option ε) (key : κ) (result : Except ε ι) :
    left (keepResult invalid key result).1 = KeyState.leaving invalid result := by
  cases result with
  | error e => rfl
  | ok item => cases h : invalid item <;> simp [keepResult, KeyState.leaving, left, h]

theorem slot_of_loading {l : Loader κ ι ε} {key : κ} {id : Nat}
    (h : l.loading.get? key = some id) : l.slot key = .pending id := by
  unfold slot
  rw [h]

theorem slot_of_not_loading {l : Loader κ ι ε} {key : κ} (h : l.loading.get? key = none) :
    l.slot key = left (l.cache.get? key) := by
  unfold slot left
  rw [h]

theorem slot_eq_pending {l : Loader κ ι ε} {key : κ} {id : Nat} :
    l.slot key = .pending id ↔ l.loading.get? key = some id := by
  constructor
  · intro h
    cases hl : l.loading.get? key with
    | some id' => rw [slot_of_loading hl] at h; cases h; rfl
    | none =>
      rw [slot_of_not_loading hl] at h
      cases hc : l.cache.get? key <;> simp [hc, left] at h
  · exact slot_of_loading

theorem exists_slot_eq_pending (l : Loader κ ι ε) (key : κ) :
    (∃ id, l.slot key = .pending id) ↔ (l.loading.get? key).isSome = true := by
  simp only [slot_eq_pending, Option.isSome_iff_exists]

theorem Sound.exists_slot_eq_settled {l : Loader κ ι ε} (hs : l.Sound) (key : κ) :
    (∃ item, l.slot key = .settled item) ↔ (l.cache.get? key).isSome = true := by
  cases hl : l.loading.get? key with
  | some id => simp [slot_of_loading hl, hs.apart key id hl]
  | none =>
    rw [slot_of_not_loading hl]
    cases l.cache.get? key <;> simp [left]

theorem slot_evict (l : Loader κ ι ε) (key key' : κ) :
    (l.evict key).slot key' =
      if key = key' then
        match l.slot key' with
        | .settled _ => .empty
        | s => s
      else l.slot key' := by
  unfold slot
  rw [evict_cache]
  change (match l.loading.get? key' with | some id => _ | none => _) = _
  by_cases hk : key = key'
  · subst hk
    cases l.loading.get? key with
    | some id => simp
    | none => cases l.cache.get? key <;> simp
  · simp [hk]

theorem slot_start (l : Loader κ ι ε) (key key' : κ) :
    (l.start key).slot key' = if key = key' then .pending l.nextLoad else l.slot key' := by
  unfold slot
  rw [start_loading]
  by_cases hk : key = key'
  · simp [hk]
  · simp [hk]; rfl

theorem slot_reach (l : Loader κ ι ε) (id : Nat) (p : Phase ι ε) (key : κ) :
    (l.reach id p).slot key = l.slot key := rfl

/-- Only the key of a load that is settled is touched. -/
theorem Sound.slot_settle {l : Loader κ ι ε} (hs : l.Sound) {id : Nat} {key : κ}
    (h : l.Running id key) (item : Option ι) (key' : κ) :
    (l.settle key id item).slot key' = if key = key' then left item else l.slot key' := by
  have hl : l.loading.get? key = some id := (hs.registered key id).mpr h
  by_cases hk : key = key'
  · subst hk
    rw [slot_of_not_loading (by rw [settle_loading hl, if_pos rfl]), settle_cache hl]
    simp [hs.apart key id hl]
  · unfold slot
    rw [settle_loading hl, settle_cache hl]
    simp [hk]

/-! ## The simulation -/

namespace KeyState
variable {s : KeyState ι}

theorem step_lookup_pending {load : Nat} (h : s.slot = .pending load) (name : Nat → Nat)
    (canStart : Bool) (invalid : ι → Option ε) :
    s.step name (.lookup canStart invalid) = (some (.attached load), s) := by
  simp [step, h]

theorem step_lookup_settled {item : ι} (h : s.slot = .settled item) (name : Nat → Nat)
    (canStart : Bool) {invalid : ι → Option ε} (hi : invalid item = none) :
    s.step name (.lookup canStart invalid) = (some (.cached item), s) := by
  simp [step, h, hi]

/-- Nothing is handed out where there is no load and no valid item. -/
theorem step_lookup_missing {found : Option ι} (h : s.slot = left found) (name : Nat → Nat)
    (canStart : Bool) {invalid : ι → Option ε}
    (hi : ∀ item, found = some item → invalid item ≠ none) :
    s.step name (.lookup canStart invalid) = s.launch name canStart := by
  cases found with
  | none => simp [step, h, left]
  | some item =>
    cases hr : invalid item with
    | none => exact absurd hr (hi item rfl)
    | some reason => simp [step, h, left, hr]

end KeyState

def Answer.start? : Answer ι → Option Nat
  | .started id => some id
  | _ => none

/-- A lookup of `key` is answered as the automaton of `key` answers it. -/
theorem World.lookup_key (w : World κ ι ε) (hs : w.loader.Sound) (key : κ) {s : KeyState ι}
    (h : w.loader.slot key = s.slot) (canStart : Bool) {name : Nat → Nat}
    (hn : ∀ id, w.answer key (.lookup canStart key) = some (.started id) → name s.started = id) :
    w.answer key (.lookup canStart key) = (s.step name (.lookup canStart w.invalid)).1 ∧
    (w.step (.lookup canStart key)).loader.slot key =
      (s.step name (.lookup canStart w.invalid)).2.slot ∧
    (s.step name (.lookup canStart w.invalid)).2.started = s.started +
      ((w.answer key (.lookup canStart key)).bind Answer.start?).toList.length := by
  have hk := lookup_looked w.loader w.invalid canStart key
  simp only [answer, look, step, if_true] at hn ⊢
  generalize (w.loader.lookup w.invalid canStart key).1 = a at hk hn ⊢
  generalize (w.loader.lookup w.invalid canStart key).2.1 = l' at hk ⊢
  cases hk with
  | attached hl =>
    rename_i id
    have hne : id ≠ w.loader.nextLoad := Nat.ne_of_lt (hs.registered_lt hl)
    rw [slot_of_loading hl] at h
    rw [KeyState.step_lookup_pending h.symm, slot_of_loading hl]
    simp [hne, h, Answer.start?]
  | hit hl hc hi =>
    rw [slot_of_not_loading hl, hc] at h
    rw [KeyState.step_lookup_settled h.symm name canStart hi, slot_of_not_loading hl, hc]
    simp [h, Answer.start?]
  | started hl hi hstart =>
    subst hstart
    rw [slot_of_not_loading hl] at h
    rw [KeyState.step_lookup_missing h.symm name true hi]
    simp only [if_true] at hn
    have hname := hn _ rfl
    rw [slot_start, if_pos rfl]
    simp [KeyState.launch, hname, Answer.start?, evict]
  | refused hl hi hstart =>
    subst hstart
    rw [slot_of_not_loading hl] at h
    rw [KeyState.step_lookup_missing h.symm name false hi, slot_evict, if_pos rfl,
      slot_of_not_loading hl]
    cases w.loader.cache.get? key <;> simp [KeyState.launch, Answer.start?, left]

/-- The lookup of another key is of no interest. -/
theorem slot_looked_of_ne {l l' : Loader κ ι ε} {invalid : ι → Option ε} {canStart : Bool}
    {key key' : κ} {a : Lookup ι} (h : Looked l invalid canStart key' a l') (hk : key' ≠ key) :
    l'.slot key = l.slot key := by
  cases h with
  | attached => rfl
  | hit => rfl
  | started => rw [slot_start, if_neg hk, slot_evict, if_neg hk]
  | refused => rw [slot_evict, if_neg hk]

theorem World.invalidate_key (w : World κ ι ε) (hs : w.loader.Sound) (key : κ) {s : KeyState ι}
    (h : w.loader.slot key = s.slot) (name : Nat → Nat) :
    w.answer key (.invalidate key) = (s.step name (.invalidate : KeyStep ι ε)).1 ∧
    (w.step (.invalidate key)).loader.slot key =
      (s.step name (.invalidate : KeyStep ι ε)).2.slot ∧
    (s.step name (.invalidate : KeyStep ι ε)).2.started = s.started := by
  simp only [answer, step, invalidate, if_true]
  rw [slot_evict, if_pos rfl]
  cases hl : w.loader.loading.get? key with
  | some id =>
    rw [slot_of_loading hl] at h ⊢
    simp [KeyState.step, ← h, hs.apart key id hl]
  | none =>
    rw [slot_of_not_loading hl] at h ⊢
    cases hc : w.loader.cache.get? key <;> simp [KeyState.step, ← h, hc, left]

/-- A load of `key` that runs is settled by its end, with or without a result. -/
theorem Sound.slot_end {l : Loader κ ι ε} (hs : l.Sound) {id : Nat} {key : κ}
    (h : l.Running id key) {s : KeyState ι} (hslot : l.slot key = s.slot) (item : Option ι)
    (p : Phase ι ε) :
    ((l.settle key id item).reach id p).slot key = (s.endLoad id (left item)).slot ∧
    (s.endLoad id (left item)).started = s.started := by
  have hp : s.slot = .pending id := by
    rw [← hslot, slot_of_loading ((hs.registered key id).mpr h)]
  rw [slot_reach, hs.slot_settle h, if_pos rfl]
  simp [KeyState.endLoad, hp]

/-- Every step of `key` is one of its automaton. -/
theorem World.step_own (w : World κ ι ε) (hs : w.loader.Sound) {key : κ} {s : KeyState ι}
    (h : w.loader.slot key = s.slot) {e : Event κ ι ε} {x : KeyStep ι ε}
    (hx : w.own key e = some x) {name : Nat → Nat}
    (hn : ∀ id, w.answer key e = some (.started id) → name s.started = id) :
    w.answer key e = (s.step name x).1 ∧
    (w.step e).loader.slot key = (s.step name x).2.slot ∧
    (s.step name x).2.started =
      s.started + ((w.answer key e).bind Answer.start?).toList.length := by
  cases e with
  | lookup canStart key' =>
    simp only [own, Option.ite_none_right_eq_some] at hx
    obtain ⟨rfl,hx⟩ := hx
    cases hx
    exact w.lookup_key hs key' h canStart hn
  | invalidate key' =>
    simp only [own, Option.ite_none_right_eq_some] at hx
    obtain ⟨rfl,hx⟩ := hx
    cases hx
    obtain ⟨h1,h2,h3⟩ := w.invalidate_key hs key' h name
    exact ⟨h1,h2,by simp [h3, answer, Answer.start?]⟩
  | complete id result =>
    simp only [own, Option.ite_none_right_eq_some] at hx
    obtain ⟨hr,hx⟩ := hx
    cases hx
    obtain ⟨t,ht,rfl,hu⟩ := hr
    rcases complete_cases w.loader id w.invalid result with ⟨t',ht',_,hc⟩ | ⟨hno,_⟩
    · rw [ht] at ht'
      cases ht'
      have hr := hs.slot_end ⟨t,ht,rfl,hu⟩ h (keepResult w.invalid t.key result).1
        (.settled (endingOf result))
      rw [left_keepResult] at hr
      refine ⟨rfl,?_,hr.2⟩
      simp only [step, hc]
      exact hr.1
    · rw [hno t ht] at hu
      cases hu
  | die id =>
    simp only [own, Option.ite_none_right_eq_some] at hx
    obtain ⟨hr,hx⟩ := hx
    cases hx
    obtain ⟨t,ht,rfl,hu⟩ := hr
    rcases hs.die_cases w.loader id with ⟨t',ht',_,hc⟩ | ⟨t',ht',hu',_⟩ | ⟨hno,_⟩
    · rw [ht] at ht'
      cases ht'
      have hr := hs.slot_end ⟨t,ht,rfl,hu⟩ h none (.released .lost)
      refine ⟨rfl,?_,hr.2⟩
      simp only [step, hc]
      exact hr.1
    · rw [ht] at ht'
      cases ht'
      rw [hu] at hu'
      cases hu'
    · rw [ht] at hno
      cases hno
  | begin id => cases hx
  | letGo id => cases hx
  | handOver id => cases hx
  | pass nanos => cases hx
  | judge rule => cases hx

/-- What is no step of `key` changes nothing for it. -/
theorem World.step_other (w : World κ ι ε) (hs : w.loader.Sound) {key : κ} {e : Event κ ι ε}
    (hx : w.own key e = none) :
    w.answer key e = none ∧ (w.step e).loader.slot key = w.loader.slot key := by
  cases e with
  | lookup canStart key' =>
    have hk : key' ≠ key := by
      intro hk
      simp [own, hk] at hx
    exact ⟨if_neg hk,slot_looked_of_ne (lookup_looked ..) hk⟩
  | invalidate key' =>
    have hk : key' ≠ key := by
      intro hk
      simp [own, hk] at hx
    exact ⟨if_neg hk,(slot_evict ..).trans (if_neg hk)⟩
  | begin id =>
    refine ⟨rfl,?_⟩
    rcases begin_cases w.loader id with ⟨t,ht,_,hc⟩ | hc
    · simp only [step, hc]
      rfl
    · simp only [step, hc]
  | complete id result =>
    refine ⟨rfl,?_⟩
    rcases complete_cases w.loader id w.invalid result with ⟨t,ht,hu,hc⟩ | ⟨_,hc⟩
    · have hk : t.key ≠ key := by
        rintro rfl
        simp [own, show w.loader.Running id t.key from ⟨t,ht,rfl,hu⟩] at hx
      simp only [step, hc]
      rw [slot_reach, hs.slot_settle ⟨t,ht,rfl,hu⟩, if_neg hk]
    · simp only [step, hc]
  | letGo id =>
    refine ⟨rfl,?_⟩
    rcases hs.letGo_cases w.loader id with ⟨t,e,ht,_,hc⟩ | ⟨_,hc⟩
    · simp only [step, hc]
      rfl
    · simp only [step, hc]
  | die id =>
    refine ⟨rfl,?_⟩
    rcases hs.die_cases w.loader id with ⟨t,ht,hu,hc⟩ | ⟨t,ht,hu,hc⟩ | ⟨_,hc⟩
    · have hk : t.key ≠ key := by
        rintro rfl
        simp [own, show w.loader.Running id t.key from ⟨t,ht,rfl,hu⟩] at hx
      simp only [step, hc]
      rw [slot_reach, hs.slot_settle ⟨t,ht,rfl,hu⟩, if_neg hk]
    · simp only [step, hc]
      rfl
    · simp only [step, hc]
  | handOver id =>
    refine ⟨rfl,?_⟩
    rcases handOver_cases w.loader id with ⟨t,e,ht,_,hc⟩ | ⟨_,hc⟩
    · simp only [step, hc]
      rfl
    · simp only [step, hc]
  | pass nanos => exact ⟨rfl,rfl⟩
  | judge rule => exact ⟨rfl,rfl⟩

/-! ## The numbers of the loads of a key -/

omit [DecidableEq κ] in
def startedIn (as : List (Answer ι)) : List Nat := as.filterMap Answer.start?

theorem Looked.nextLoad_le {l l' : Loader κ ι ε} {invalid : ι → Option ε} {canStart : Bool}
    {key : κ} {a : Lookup ι} (h : Looked l invalid canStart key a l') :
    l.nextLoad ≤ l'.nextLoad := by
  cases h with
  | attached => exact Nat.le_refl _
  | hit => exact Nat.le_refl _
  | started => exact Nat.le_succ _
  | refused => exact Nat.le_refl _

theorem World.nextLoad_le_step (w : World κ ι ε) (hs : w.loader.Sound) (e : Event κ ι ε) :
    w.loader.nextLoad ≤ (w.step e).loader.nextLoad := by
  cases e with
  | lookup canStart key => exact (lookup_looked ..).nextLoad_le
  | invalidate key => exact Nat.le_refl _
  | begin id =>
    rcases begin_cases w.loader id with ⟨_,_,_,hc⟩ | hc <;> simp [step, hc]
  | complete id result =>
    rcases complete_cases w.loader id w.invalid result with ⟨_,_,_,hc⟩ | ⟨_,hc⟩ <;> simp [step, hc]
  | letGo id =>
    rcases hs.letGo_cases w.loader id with ⟨_,_,_,_,hc⟩ | ⟨_,hc⟩ <;> simp [step, hc]
  | die id =>
    rcases hs.die_cases w.loader id with ⟨_,_,_,hc⟩ | ⟨_,_,_,hc⟩ | ⟨_,hc⟩ <;> simp [step, hc]
  | handOver id =>
    rcases handOver_cases w.loader id with ⟨_,_,_,_,hc⟩ | ⟨_,hc⟩ <;> simp [step, hc]
  | pass nanos => exact Nat.le_refl _
  | judge rule => exact Nat.le_refl _

theorem World.nextLoad_le_run (w : World κ ι ε) (hs : w.loader.Sound) (es : List (Event κ ι ε)) :
    w.loader.nextLoad ≤ (w.run es).loader.nextLoad := by
  induction es generalizing w with
  | nil => exact Nat.le_refl _
  | cons e es ih => exact (w.nextLoad_le_step hs e).trans (ih (w.step e) (w.step_sound hs e))

/-- A load that is started gets the next number, which is not given out again. -/
theorem World.started_fresh (w : World κ ι ε) (hs : w.loader.Sound) {key : κ} {e : Event κ ι ε}
    {id : Nat} (h : (w.answer key e).bind Answer.start? = some id) :
    id = w.loader.nextLoad ∧ (w.step e).loader.nextLoad = w.loader.nextLoad + 1 := by
  cases e with
  | lookup canStart key' =>
    by_cases hkey : key' = key
    · subst hkey
      have hk := lookup_looked w.loader w.invalid canStart key'
      simp only [answer, look, step, if_true, Option.bind_some] at h ⊢
      generalize (w.loader.lookup w.invalid canStart key').1 = a at hk h
      generalize (w.loader.lookup w.invalid canStart key').2.1 = l' at hk ⊢
      cases hk with
      | attached hl => simp [Answer.start?, Nat.ne_of_lt (hs.registered_lt hl)] at h
      | hit => cases h
      | started =>
        simp only [if_true, Answer.start?, Option.some.injEq] at h
        exact ⟨h.symm,rfl⟩
      | refused => cases h
    · simp [answer, hkey] at h
  | invalidate key' =>
    by_cases hkey : key' = key <;> simp [answer, hkey, Answer.start?] at h
  | begin id => cases h
  | complete id result => cases h
  | letGo id => cases h
  | die id => cases h
  | handOver id => cases h
  | pass nanos => cases h
  | judge rule => cases h

theorem World.startedIn_answers_cons (w : World κ ι ε) (key : κ) (e : Event κ ι ε)
    (es : List (Event κ ι ε)) :
    startedIn (w.answers key (e :: es)) =
      ((w.answer key e).bind Answer.start?).toList ++
        startedIn ((w.step e).answers key es) := by
  unfold startedIn
  rw [answers, List.filterMap_append]
  cases w.answer key e with
  | none => rfl
  | some a => cases h : a.start? <;> simp [h]

/-- The loads of a key are numbered in the order in which they are started. -/
theorem World.startedIn_sorted (w : World κ ι ε) (hs : w.loader.Sound) (key : κ)
    (es : List (Event κ ι ε)) :
    (startedIn (w.answers key es)).Pairwise (· < ·) ∧
    ∀ id ∈ startedIn (w.answers key es),
      w.loader.nextLoad ≤ id ∧ id < (w.run es).loader.nextLoad := by
  induction es generalizing w with
  | nil => exact ⟨.nil,by simp [answers, startedIn]⟩
  | cons e es ih =>
    obtain ⟨hp,hm⟩ := ih (w.step e) (w.step_sound hs e)
    have hle := w.nextLoad_le_step hs e
    rw [startedIn_answers_cons]
    cases hstart : (w.answer key e).bind Answer.start? with
    | none =>
      refine ⟨hp,?_⟩
      intro id hid
      exact ⟨hle.trans (hm id hid).1,(hm id hid).2⟩
    | some id =>
      obtain ⟨rfl,hnext⟩ := w.started_fresh hs hstart
      have hrun := (w.step e).nextLoad_le_run (w.step_sound hs e) es
      rw [hnext] at hm hrun
      refine ⟨List.pairwise_cons.mpr ⟨fun id hid => (hm id hid).1,hp⟩,?_⟩
      intro id hid
      rcases List.mem_cons.mp hid with rfl | hid
      · exact ⟨Nat.le_refl _,hrun⟩
      · exact ⟨Nat.le_of_succ_le (hm id hid).1,(hm id hid).2⟩

omit [DecidableEq κ] in
def numbering (loads : List Nat) (bound n : Nat) : Nat := loads[n]?.getD (bound + n)

theorem numbering_strictMono {loads : List Nat} (hp : loads.Pairwise (· < ·)) {bound : Nat}
    (hb : ∀ id ∈ loads, id < bound) : StrictMono (numbering loads bound) := by
  intro m n hmn
  unfold numbering
  by_cases hn : n < loads.length
  · have hm : m < loads.length := hmn.trans hn
    rw [List.getElem?_eq_getElem hm, List.getElem?_eq_getElem hn]
    exact List.pairwise_iff_getElem.mp hp m n hm hn hmn
  · rw [List.getElem?_eq_none (Nat.le_of_not_lt hn)]
    by_cases hm : m < loads.length
    · rw [List.getElem?_eq_getElem hm]
      have := hb _ (List.getElem_mem hm)
      simp only [Option.getD_some, Option.getD_none]
      omega
    · rw [List.getElem?_eq_none (Nat.le_of_not_lt hm)]
      simp only [Option.getD_none]
      omega

/-! ## Runs -/

theorem World.run_key (w : World κ ι ε) (hs : w.loader.Sound) {key : κ} {s : KeyState ι}
    (h : w.loader.slot key = s.slot) (es : List (Event κ ι ε)) {name : Nat → Nat}
    (hn : ∀ n id, (startedIn (w.answers key es))[n]? = some id → name (s.started + n) = id) :
    w.answers key es = s.answers name (w.steps key es) ∧
    (w.run es).loader.slot key = (s.run name (w.steps key es)).slot := by
  induction es generalizing w s with
  | nil => exact ⟨rfl,h⟩
  | cons e es ih =>
    rw [w.startedIn_answers_cons] at hn
    have hs' := w.step_sound hs e
    cases hx : w.own key e with
    | none =>
      obtain ⟨ha,hslot⟩ := w.step_other hs hx
      rw [ha] at hn
      simp only [answers, steps, hx, ha, Option.toList_none, List.nil_append]
      exact ih (w.step e) hs' (hslot.trans h) hn
    | some x =>
      have hfirst : ∀ id, w.answer key e = some (.started id) → name s.started = id := by
        intro id ha
        exact hn 0 id (by simp [ha, Answer.start?])
      obtain ⟨ha,hslot,hcount⟩ := w.step_own hs h hx hfirst
      -- behind a load that this step starts, the others move up by one place
      have hlater : ∀ n id, (startedIn ((w.step e).answers key es))[n]? = some id →
          name ((s.step name x).2.started + n) = id := by
        intro n id hid
        rw [hcount, Nat.add_assoc]
        apply hn
        rw [List.getElem?_append_right (Nat.le_add_right _ _), Nat.add_sub_cancel_left]
        exact hid
      obtain ⟨hanswers,hend⟩ := ih (w.step e) hs' hslot hlater
      simp only [answers, steps, hx, Option.toList_some, List.singleton_append, KeyState.answers]
      exact ⟨by rw [hanswers, ha],hend⟩

/-- A loader is a product of automata. In every run there is, for each key, a numbering of its
loads in the order in which they are started, such that the answers about the key are those of its
automaton on the steps of that key alone, and the automaton ends up with what the loader holds. The
cached items and the running loads are as many as the keys whose automata have one. -/
theorem loader_refines_product (rule : Nat → ι → Option ε) (es : List (Event κ ι ε)) :
    let w : World κ ι ε := World.new rule
    let l := (w.run es).loader
    ∃ name : κ → Nat → Nat, (∀ key, StrictMono (name key)) ∧
      (∀ key, w.answers key es = KeyState.answers (name key) {} (w.steps key es)) ∧
      (∀ key, l.slot key = (KeyState.run (name key) {} (w.steps key es)).slot) ∧
      {key | ∃ item, (KeyState.run (name key) {} (w.steps key es)).slot = .settled item}.encard =
        l.size ∧
      {key | ∃ load, (KeyState.run (name key) {} (w.steps key es)).slot = .pending load}.encard =
        l.runningLoads := by
  intro w l
  have hs₀ : w.loader.Sound := .empty
  have hs : l.Sound := w.run_sound hs₀ es
  let name : κ → Nat → Nat := fun key => numbering (startedIn (w.answers key es)) l.nextLoad
  have hsim : ∀ key, w.answers key es = KeyState.answers (name key) {} (w.steps key es) ∧
      l.slot key = (KeyState.run (name key) {} (w.steps key es)).slot := by
    intro key
    apply w.run_key hs₀ rfl es
    intro n id hid
    simp [name, numbering, hid]
  refine ⟨name,?_,fun key => (hsim key).1,fun key => (hsim key).2,?_,?_⟩
  · intro key
    obtain ⟨hp,hm⟩ := w.startedIn_sorted hs₀ key es
    exact numbering_strictMono hp fun id hid => (hm id hid).2
  · rw [size, ← Table.encard_keys]
    congr 1
    ext key
    rw [Set.mem_ofPred_eq, ← (hsim key).2, Set.mem_ofPred_eq]
    exact hs.exists_slot_eq_settled key
  · rw [runningLoads, ← Table.encard_keys]
    congr 1
    ext key
    rw [Set.mem_ofPred_eq, ← (hsim key).2, Set.mem_ofPred_eq]
    exact exists_slot_eq_pending l key

end ChatToken.Loader
