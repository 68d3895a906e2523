import ChatToken.Proofs.Table
import ChatToken.Loader.Basic

/-! # A loader does not look into its items

What a loader does depends on its items only as far as some of them may not be handed out. So if the
items are replaced by others of which the same is said, the loader does the same.
-/
namespace ChatToken

namespace Table
variable {κ α β : Type} [DecidableEq κ]

theorem mapValues_erase (t : Table κ α) (f : κ → α → β) (k : κ) :
    (t.erase k).mapValues f = (t.mapValues f).erase k := by
  simp [erase, keep, mapValues, List.filter_map, Function.comp_def]

theorem mapValues_insert (t : Table κ α) (f : κ → α → β) (k : κ) (v : α) :
    (t.insert k v).mapValues f = (t.mapValues f).insert k (f k v) := by
  have h := congrArg entries (t.mapValues_erase f k)
  simp only [insert, mapValues, mk.injEq, List.map_append, List.map_singleton] at h ⊢
  rw [h]

theorem mapValues_adjust (t : Table κ α) {f : κ → α → β} {g : α → α} {g' : β → β} (k : κ)
    (h : ∀ v, f k (g v) = g' (f k v)) :
    (t.adjust k g).mapValues f = (t.mapValues f).adjust k g' := by
  simp only [adjust, mapValues, mk.injEq, List.map_map, Function.comp_def]
  refine List.map_congr_left fun e _ => ?_
  by_cases he : e.1 = k
  · simp [he, h]
  · simp [he]

end Table

variable {κ ι ι' ε : Type} (f : ι → ι')

def Ending.map : Ending ι ε → Ending ι' ε
  | loaded item => loaded (f item)
  | failed e => failed e
  | lost => lost

def Phase.map : Phase ι ε → Phase ι' ε
  | waiting => waiting
  | working => working
  | settled ending => settled (ending.map f)
  | released ending => released (ending.map f)

def LoadTask.map (t : LoadTask κ ι ε) : LoadTask κ ι' ε := { key := t.key, phase := t.phase.map f }

theorem Phase.unsettled_map (p : Phase ι ε) : (p.map f).unsettled = p.unsettled := by
  cases p <;> rfl

theorem LoadTask.begun_map (t : LoadTask κ ι ε) : (t.map f).begun = t.begun := by
  obtain ⟨_,phase⟩ := t
  cases phase <;> rfl

def Lookup.map : Lookup ι → Lookup ι'
  | cached item => cached (f item)
  | loading id => loading id
  | refused => refused

namespace Loader

def map (l : Loader κ ι ε) : Loader κ ι' ε where
  cache := l.cache.mapValues fun _ => f
  loading := l.loading
  nextLoad := l.nextLoad
  tasks := l.tasks.mapValues fun _ => LoadTask.map f
  endings := l.endings.mapValues fun _ => Ending.map f

variable {f} (l : Loader κ ι ε) {invalid : ι → Option ε} {invalid' : ι' → Option ε}

theorem map_task (id : Nat) : (l.map f).tasks.get? id = (l.tasks.get? id).map (LoadTask.map f) :=
  Table.get?_mapValues ..

theorem map_ending? (id : Nat) : (l.map f).ending? id = (l.ending? id).map (Ending.map f) :=
  Table.get?_mapValues ..

theorem map_reach (id : Nat) (phase : Phase ι ε) :
    (l.map f).reach id (phase.map f) = (l.reach id phase).map f := by
  unfold reach map
  dsimp only
  rw [Table.mapValues_adjust]
  intro t
  rfl

theorem map_endingOf (result : Except ε ι) :
    endingOf (result.map f) = (endingOf result).map f := by
  cases result <;> rfl

theorem map_keepResult (h : ∀ item, invalid' (f item) = invalid item) (key : κ)
    (result : Except ε ι) : keepResult invalid' key (result.map f) =
      ((keepResult invalid key result).1.map f, (keepResult invalid key result).2) := by
  cases result with
  | error e => rfl
  | ok item =>
    simp only [Except.map, keepResult, h]
    cases invalid item <;> rfl

theorem map_begin (id : Nat) :
    (l.map f).begin id = ((l.begin id).1.map f, (l.begin id).2) := by
  unfold begin
  rw [map_task]
  cases l.tasks.get? id with
  | none => rfl
  | some t =>
    obtain ⟨key,phase⟩ := t
    cases phase with
    | waiting => exact congrArg (·, _) (map_reach l id .working)
    | _ => rfl

theorem map_handOver (id : Nat) : (l.map f).handOver id = (l.handOver id).map f := by
  unfold handOver
  rw [map_task]
  cases l.tasks.get? id with
  | none => rfl
  | some t =>
    obtain ⟨key,phase⟩ := t
    cases phase with
    | released ending =>
      simp only [map, Table.mapValues_erase, Table.mapValues_insert, Option.map_some, LoadTask.map,
        Phase.map]
    | _ => rfl

variable [DecidableEq κ]

theorem map_settle (key : κ) (id : Nat) (item : Option ι) :
    (l.map f).settle key id (item.map f) = (l.settle key id item).map f := by
  unfold settle map
  dsimp only
  split
  · cases item with
    | none => rfl
    | some i => simp only [Option.map_some, Table.mapValues_insert]
  · rfl

theorem map_start (key : κ) : (l.map f).start key = (l.start key).map f := by
  simp only [start, map, Table.mapValues_insert]
  rfl

theorem map_evict (key : κ) : (l.map f).evict key = (l.evict key).map f := by
  simp only [evict, map, Table.mapValues_erase]

theorem map_lookup (h : ∀ item, invalid' (f item) = invalid item) (canStart : Bool) (key : κ) :
    (l.map f).lookup invalid' canStart key =
      ((l.lookup invalid canStart key).1.map f, (l.lookup invalid canStart key).2.1.map f,
        (l.lookup invalid canStart key).2.2) := by
  have hmissing : ∀ l : Loader κ ι ε, lookupMissing canStart key (l.map f) =
      ((lookupMissing canStart key l).1.map f, (lookupMissing canStart key l).2.1.map f,
        (lookupMissing canStart key l).2.2) := by
    intro l
    unfold lookupMissing
    split
    · rw [map_start]
      rfl
    · rfl
  have hcache : (l.map f).cache.get? key = (l.cache.get? key).map f := Table.get?_mapValues ..
  have hloading : (l.map f).loading = l.loading := rfl
  unfold lookup
  rw [hcache, hloading]
  cases l.loading.get? key with
  | some id => rfl
  | none =>
    cases l.cache.get? key with
    | none =>
      dsimp only [Option.map_none]
      rw [hmissing]
    | some item =>
      dsimp only [Option.map_some]
      rw [h]
      cases invalid item with
      | none => rfl
      | some reason =>
        dsimp only
        rw [map_evict, hmissing]

theorem map_complete (h : ∀ item, invalid' (f item) = invalid item) (id : Nat)
    (result : Except ε ι) : (l.map f).complete invalid' id (result.map f) =
      ((l.complete invalid id result).1.map f, (l.complete invalid id result).2) := by
  unfold complete
  rw [map_task]
  cases l.tasks.get? id with
  | none => rfl
  | some t =>
    have hkey : (t.map f).key = t.key := rfl
    have hphase : (t.map f).phase.unsettled = t.phase.unsettled := t.phase.unsettled_map f
    dsimp only [Option.map_some]
    rw [hkey, hphase, map_keepResult h, map_endingOf]
    split
    · have hsettled : Phase.settled ((endingOf result).map f) =
          (Phase.settled (endingOf result)).map f := rfl
      dsimp only
      rw [map_settle, hsettled, map_reach]
    · rfl

theorem map_letGo (id : Nat) : (l.map f).letGo id = (l.letGo id).map f := by
  unfold letGo
  rw [map_task]
  cases l.tasks.get? id with
  | none => rfl
  | some t =>
    obtain ⟨key,phase⟩ := t
    cases phase with
    | settled ending =>
      have hs := map_settle (f := f) l key id none
      have hr := map_reach (f := f) (l.settle key id none) id (.released ending)
      rw [← hr, ← hs]
      rfl
    | _ => rfl

theorem map_die (id : Nat) : (l.map f).die id = (l.die id).map f := by
  have hrelease : ∀ l : Loader κ ι ε, (l.map f).reach id (.released .lost) =
      (l.reach id (.released .lost)).map f := fun l => map_reach l id (.released .lost)
  have hsettle : ∀ key, ((l.map f).settle key id none).reach id (.released .lost) =
      ((l.settle key id none).reach id (.released .lost)).map f := by
    intro key
    rw [← hrelease, ← map_settle]
    rfl
  unfold die
  rw [map_task]
  cases l.tasks.get? id with
  | none => rfl
  | some t =>
    obtain ⟨key,phase⟩ := t
    cases phase with
    | released ending => exact hrelease l
    | waiting | working | settled ending => exact hsettle key

theorem map_finish (h : ∀ item, invalid' (f item) = invalid item) (id : Nat)
    (result : Except ε ι) : (l.map f).finish invalid' id (result.map f) =
      ((l.finish invalid id result).1.map f, (l.finish invalid id result).2) := by
  unfold finish
  rw [map_complete l h]
  dsimp only
  rw [map_letGo, map_handOver]

theorem map_abandon (id : Nat) : (l.map f).abandon id = (l.abandon id).map f := by
  rw [abandon, map_die, map_handOver]
  rfl

end Loader

end ChatToken
