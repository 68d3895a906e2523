import ChatToken.Network.Metering
import ChatToken.Proofs.Loader.Conclusion

/-! # How many loads run, and how many were lost

A lookup that starts a load adds a running one. A load that ends is running no more, and counts as
lost if its task died. What a lookup reports tells which way it went.
-/
namespace ChatToken.Loader

variable {κ ι ε : Type} [DecidableEq κ]

inductive Reported (l : Loader κ ι ε) (key : κ) :
    Lookup ι → Loader κ ι ε → List (LoaderNotice κ ε) → Prop where
  | attached (id : Nat) : Reported l key (.loading id) l [.accessed, .attached key]
  | hit (item : ι) : Reported l key (.cached item) l [.accessed, .hit]
  | started : l.loading.get? key = none →
      Reported l key (.loading l.nextLoad) ((l.evict key).start key) [.accessed, .missed]
  | replaced (reason : ε) : l.loading.get? key = none →
      Reported l key (.loading l.nextLoad) ((l.evict key).start key)
        [.accessed, .evicted key reason, .missed]
  | refused : Reported l key .refused (l.evict key) [.accessed]
  | evicted (reason : ε) : Reported l key .refused (l.evict key) [.accessed, .evicted key reason]

theorem lookup_reported (l : Loader κ ι ε) (invalid : ι → Option ε) (canStart : Bool) (key : κ) :
    Reported l key (l.lookup invalid canStart key).1 (l.lookup invalid canStart key).2.1
      (l.lookup invalid canStart key).2.2 := by
  unfold lookup
  cases hl : l.loading.get? key with
  | some id => exact .attached id
  | none =>
    cases hc : l.cache.get? key with
    | none =>
      have he := evict_of_not_cached hc
      cases canStart with
      | true => simpa [lookupMissing, he] using Reported.started (l := l) hl
      | false => simpa [lookupMissing, he] using @Reported.refused _ _ _ _ l key
    | some item =>
      cases hi : invalid item with
      | none => simpa [hi] using Reported.hit item
      | some reason =>
        cases canStart with
        | true =>
          simp only [hi, lookupMissing, if_true]
          exact .replaced reason hl
        | false => simpa [hi, lookupMissing] using Reported.evicted reason

/-- Where loads can be started, no lookup is refused. -/
theorem Looked.ne_refused {l l' : Loader κ ι ε} {invalid : ι → Option ε} {key : κ} {a : Lookup ι}
    (h : Looked l invalid true key a l') : a ≠ .refused := by
  cases h with
  | refused _ _ hc => cases hc
  | _ => simp

theorem runningLoads_start {l : Loader κ ι ε} {key : κ} (h : l.loading.get? key = none) :
    (l.start key).runningLoads = l.runningLoads + 1 :=
  Table.size_of_new h (l.start_loading key)

namespace Concluded
variable {l l' : Loader κ ι ε} {key : κ} {id : Nat} {item : Option ι} {e : Ending ι ε}

theorem runningLoads (h : Concluded l key id item e l') (hl : l.loading.get? key = some id) :
    l'.runningLoads + 1 = l.runningLoads :=
  Table.size_of_gone (by simp [hl]) h.loading

theorem lostLoads (h : Concluded l key id item e l') (hid : l.endings.get? id = none) :
    l'.lostLoads = l.lostLoads + if e.isLost then 1 else 0 := by
  have hget : ∀ i, (l'.endings.keep fun _ e => e.isLost).get? i =
      if id = i then (if e.isLost then some e else none)
      else (l.endings.keep fun _ e => e.isLost).get? i := by
    intro i
    rw [Table.get?_keep, Table.get?_keep, h.endings]
    by_cases hi : id = i
    · cases he : e.isLost <;> simp [hi, he, Option.filter]
    · simp [hi]
  have hnone : (l.endings.keep fun _ e => e.isLost).get? id = none := by
    rw [Table.get?_keep, hid]
    rfl
  cases he : e.isLost with
  | true =>
    simp only [he, if_true] at hget
    exact Table.size_of_new hnone hget
  | false =>
    simp only [he, Bool.false_eq_true, if_false] at hget
    refine Table.size_congr fun i => (hget i).trans ?_
    split
    · next hi => exact (hi ▸ hnone).symm
    · rfl

end Concluded

/-- Every task that is there has work to do: a load that ends is over at once. -/
structure Busy (l : Loader κ ι ε) : Prop where
  sound : l.Sound
  live : ∀ id t, l.tasks.get? id = some t → t.phase.unsettled = true

namespace Busy
variable {l l' : Loader κ ι ε} {key : κ} {id : Nat}

theorem looked (h : l.Busy) {invalid : ι → Option ε} {canStart : Bool} {a : Lookup ι}
    (hl : Looked l invalid canStart key a l') : l'.Busy := by
  refine ⟨h.sound.looked hl,?_⟩
  intro id t ht
  cases hl with
  | attached | hit | refused => exact h.live id t ht
  | started =>
    rw [start_tasks] at ht
    split at ht
    · cases ht
      rfl
    · exact h.live id t ht

theorem evict (h : l.Busy) (key : κ) : (l.evict key).Busy := ⟨h.sound.evict key,h.live⟩

theorem begin (h : l.Busy) (id : Nat) : (l.begin id).1.Busy := by
  rcases begin_cases l id with ⟨t,ht,hp,he⟩ | he
  · rw [he]
    refine ⟨h.sound.reach ht (by simp [hp, Phase.unsettled]),?_⟩
    intro id' t' ht'
    rw [reach_tasks] at ht'
    split at ht'
    · obtain ⟨t₀,_,rfl⟩ := Option.map_eq_some_iff.mp ht'
      rfl
    · exact h.live id' t' ht'
  · rwa [he]

theorem concluded {item : Option ι} {e : Ending ι ε} (h : l.Busy)
    (hc : Concluded l key id item e l') : l'.Busy := by
  refine ⟨hc.sound,?_⟩
  intro id' t ht
  rw [hc.tasks] at ht
  split at ht
  · cases ht
  · exact h.live id' t ht

end Busy

end ChatToken.Loader
