import ChatToken.Proofs.Loader.Invariant
import ChatToken.Proofs.Table

/-! # Loads that come to their end at once

A task that settles its load, lets its guard go and hands over without a pause leaves the loader as
if this was one step: the load is no longer registered, its item is in the cache if it may be, its
task is gone, and its ending is there. The same holds of a task that dies.
-/
namespace ChatToken.Loader

variable {κ ι ε : Type} [DecidableEq κ]

omit [DecidableEq κ] in
theorem reach_reach (l : Loader κ ι ε) (id : Nat) (p q : Phase ι ε) :
    (l.reach id p).reach id q = l.reach id q := by
  unfold reach
  rw [Table.adjust_adjust]
  rfl

/-- The loader `l'` is `l` after the load `id` of `key` came to its end. -/
structure Concluded (l : Loader κ ι ε) (key : κ) (id : Nat) (item : Option ι) (e : Ending ι ε)
    (l' : Loader κ ι ε) : Prop where
  cache : ∀ k, l'.cache.get? k = if key = k then item else l.cache.get? k
  loading : ∀ k, l'.loading.get? k = if key = k then none else l.loading.get? k
  tasks : ∀ i, l'.tasks.get? i = if id = i then none else l.tasks.get? i
  endings : ∀ i, l'.endings.get? i = if id = i then some e else l.endings.get? i
  next : l'.nextLoad = l.nextLoad
  sound : l'.Sound

/-- A load that leaves nothing in the cache leaves all that is there, because a key with a running
load has nothing there. -/
theorem Concluded.cache_of_failure {l l' : Loader κ ι ε} {key : κ} {id : Nat} {e : Ending ι ε}
    (h : Concluded l key id none e l') (hs : l.Sound) (hr : l.Running id key) (k : κ) :
    l'.cache.get? k = l.cache.get? k := by
  rw [h.cache]
  split
  · next hk => rw [← hk, hs.apart key id ((hs.registered key id).mpr hr)]
  · rfl

namespace Sound
variable {l : Loader κ ι ε} {id : Nat} {t : LoadTask κ ι ε}

theorem concluded (hs : l.Sound) (ht : l.tasks.get? id = some t) (hu : t.phase.unsettled = true)
    (item : Option ι) (e : Ending ι ε) :
    Concluded l t.key id item e
      (((l.settle t.key id item).reach id (.released e)).handOver id) := by
  have hl : l.loading.get? t.key = some id := (hs.registered _ _).mpr ⟨t,ht,rfl,hu⟩
  have hr : ((l.settle t.key id item).reach id (.released e)).tasks.get? id =
      some { t with phase := .released e } := by
    rw [reach_tasks, if_pos rfl, settle_tasks, ht]
    rfl
  have hs' := (hs.settle_reach ht hu item (rfl : (Phase.released e).unsettled = false)).handOver
    hr rfl e
  have hh : ((l.settle t.key id item).reach id (.released e)).handOver id =
      { (l.settle t.key id item).reach id (.released e) with
        tasks := ((l.settle t.key id item).reach id (.released e)).tasks.erase id
        endings := (l.settle t.key id item).endings.insert id e } := by
    unfold Loader.handOver
    rw [hr]
    rfl
  rw [hh]
  refine ⟨?_,?_,?_,?_,settle_nextLoad ..,hs'⟩
  · intro k
    rw [reach_cache, settle_cache hl]
    by_cases hk : t.key = k
    · subst hk
      simp [hs.apart _ _ hl]
    · simp [hk]
  · intro k
    exact settle_loading hl item k
  · intro i
    rw [Table.get?_erase, reach_tasks, settle_tasks]
    by_cases hi : id = i <;> simp [hi]
  · intro i
    rw [Table.get?_insert, settle_endings]

theorem finish_concluded (hs : l.Sound) (ht : l.tasks.get? id = some t)
    (hu : t.phase.unsettled = true) (invalid : ι → Option ε) (result : Except ε ι) :
    Concluded l t.key id (keepResult invalid t.key result).1 (endingOf result)
      (l.finish invalid id result).1 := by
  rcases complete_cases l id invalid result with ⟨t',ht',_,hc⟩ | ⟨hn,_⟩
  · rw [ht] at ht'
    cases ht'
    have hs' := hs.settle_reach ht hu (keepResult invalid t.key result).1
      (rfl : (Phase.settled (endingOf result)).unsettled = false)
    have hr : ((l.settle t.key id (keepResult invalid t.key result).1).reach id
        (.settled (endingOf result))).tasks.get? id =
        some { t with phase := .settled (endingOf result) } := by
      rw [reach_tasks, if_pos rfl, settle_tasks, ht]
      rfl
    have hf : (l.finish invalid id result).1 =
        ((l.settle t.key id (keepResult invalid t.key result).1).reach id
          (.released (endingOf result))).handOver id := by
      change ((l.complete invalid id result).1.letGo id).handOver id = _
      rw [hc]
      rcases hs'.letGo_cases _ id with ⟨_,e,hr',hp,hg⟩ | ⟨hn,_⟩
      · rw [hr] at hr'
        cases hr'
        cases hp
        rw [hg, reach_reach]
      · exact absurd rfl (hn _ _ hr)
    rw [hf]
    exact hs.concluded ht hu _ _
  · rw [hn t ht] at hu
    cases hu

theorem abandon_concluded (hs : l.Sound) (ht : l.tasks.get? id = some t)
    (hu : t.phase.unsettled = true) :
    Concluded l t.key id none .lost (l.abandon id) := by
  rcases hs.die_cases l id with ⟨t',ht',_,hd⟩ | ⟨t',ht',hu',_⟩ | ⟨hn,_⟩
  · rw [ht] at ht'
    cases ht'
    rw [abandon, hd]
    exact hs.concluded ht hu none .lost
  · rw [ht] at ht'
    cases ht'
    rw [hu] at hu'
    cases hu'
  · rw [ht] at hn
    cases hn

end Sound

/-! ## Tasks that have not run -/

theorem reach_settle (l : Loader κ ι ε) (key : κ) (id id' : Nat) (item : Option ι) (p : Phase ι ε) :
    (l.reach id' p).settle key id item = (l.settle key id item).reach id' p := by
  unfold settle
  rw [reach_loading]
  split <;> rfl

section
variable {l : Loader κ ι ε} {id : Nat} {t : LoadTask κ ι ε}

theorem finish_reach (ht : l.tasks.get? id = some t) (hp : t.phase = .waiting)
    (invalid : ι → Option ε) (result : Except ε ι) :
    ((l.reach id .working).finish invalid id result).1 = (l.finish invalid id result).1 := by
  have hc : ((l.reach id .working).complete invalid id result).1 =
      (l.complete invalid id result).1 := by
    unfold complete
    rw [reach_tasks, if_pos rfl, ht]
    simp [hp, Phase.unsettled, reach_settle, reach_reach]
  change ((Loader.complete (l.reach id .working) invalid id result).1.letGo id).handOver id = _
  rw [hc]
  rfl

theorem abandon_reach (ht : l.tasks.get? id = some t) (hp : t.phase = .waiting) :
    (l.reach id .working).abandon id = l.abandon id := by
  have hd : (l.reach id .working).die id = l.die id := by
    obtain ⟨key,p⟩ := t
    cases hp
    unfold die
    rw [reach_tasks, if_pos rfl, ht]
    simp [reach_settle, reach_reach]
  rw [abandon, hd, abandon]

/-- It makes no difference whether a task that comes to its end has run before. -/
theorem finish_begin (l : Loader κ ι ε) (id : Nat) (invalid : ι → Option ε)
    (result : Except ε ι) :
    ((l.begin id).1.finish invalid id result).1 = (l.finish invalid id result).1 := by
  rcases begin_cases l id with ⟨t,ht,hp,hb⟩ | hb <;> rw [hb]
  exact finish_reach ht hp invalid result

theorem abandon_begin (l : Loader κ ι ε) (id : Nat) :
    (l.begin id).1.abandon id = l.abandon id := by
  rcases begin_cases l id with ⟨t,ht,hp,hb⟩ | hb <;> rw [hb]
  exact abandon_reach ht hp

omit [DecidableEq κ] in
/-- A task that has begun has run. -/
theorem begun_of_begin {l : Loader κ ι ε} {id : Nat} {t : LoadTask κ ι ε}
    (h : (l.begin id).1.tasks.get? id = some t) : t.begun = true := by
  unfold begin at h
  split at h
  · next key ht =>
    rw [reach_tasks, if_pos rfl, ht] at h
    cases h
    rfl
  · next hno =>
    obtain ⟨key,phase⟩ := t
    cases phase with
    | waiting => exact absurd h (hno key)
    | _ => rfl

end

theorem abandon_of_gone {l : Loader κ ι ε} {id : Nat} (h : l.tasks.get? id = none) :
    l.abandon id = l := by
  simp [abandon, die, handOver, h]

end ChatToken.Loader
