import ChatToken.Proofs.Loader.Invariant

/-! # What those who wait for a load get

The life of a load is told by what happens to its own task. Whoever was told the number of a load
gets what that life ends with: the item, whether it may be cached or not, the error, or the error of
a lost load. Other loads of the same key, before or after, have no part in it.
-/
namespace ChatToken.Loader

variable {κ ι ε : Type}

inductive Life (ι ε : Type) where
  | running
  | settled (ending : Ending ι ε)
  | released (ending : Ending ι ε)
  | finished (ending : Ending ι ε)

namespace Life

/-- What an event means to the load `id`. A task that dies leaves its load without a result, unless
the result was handed over before. -/
def step (id : Nat) (s : Life ι ε) (e : Event κ ι ε) : Life ι ε :=
  match s, e with
  | running, .complete id' result => if id' = id then settled (endingOf result) else s
  | settled ending, .letGo id' => if id' = id then released ending else s
  | released ending, .handOver id' => if id' = id then finished ending else s
  | finished _, _ => s
  | _, .die id' => if id' = id then released .lost else s
  | _, _ => s

def about : Event κ ι ε → Option Nat
  | .begin id | .complete id _ | .letGo id | .die id | .handOver id => some id
  | _ => none

theorem step_of_not_about {id : Nat} {e : Event κ ι ε} (h : about e ≠ some id) (s : Life ι ε) :
    s.step id e = s := by
  cases e <;> cases s <;> simp_all [step, about]

def run (id : Nat) (s : Life ι ε) (es : List (Event κ ι ε)) : Life ι ε := es.foldl (step id) s

def outcome (canceled : ε) : Life ι ε → Option (Except ε ι)
  | finished ending => some (ending.resolve canceled)
  | _ => none

theorem outcome_eq_none {canceled : ε} {s : Life ι ε} :
    s.outcome canceled = none ↔ ∀ e, s ≠ finished e := by
  cases s <;> simp [outcome]

theorem run_finished (id : Nat) (ending : Ending ι ε) (es : List (Event κ ι ε)) :
    run id (finished ending) es = finished ending := by
  induction es with
  | nil => rfl
  | cons e es ih => exact ih

end Life

def lifeAt : Phase ι ε → Life ι ε
  | .waiting | .working => .running
  | .settled ending => .settled ending
  | .released ending => .released ending

theorem lifeAt_eq_running {p : Phase ι ε} : lifeAt p = .running ↔ p.unsettled = true := by
  cases p <;> simp [lifeAt, Phase.unsettled]

theorem lifeAt_ne_finished (p : Phase ι ε) (e : Ending ι ε) : lifeAt p ≠ .finished e := by
  cases p <;> simp [lifeAt]

def life? (l : Loader κ ι ε) (id : Nat) : Option (Life ι ε) :=
  match l.tasks.get? id with
  | some t => some (lifeAt t.phase)
  | none => (l.endings.get? id).map .finished

theorem life?_of_task {l : Loader κ ι ε} {id : Nat} {t : LoadTask κ ι ε}
    (ht : l.tasks.get? id = some t) : l.life? id = some (lifeAt t.phase) := by
  unfold life?
  rw [ht]

/-- A load that is not over has its task. -/
theorem exists_task_of_life? {l : Loader κ ι ε} {id : Nat} {s : Life ι ε}
    (hl : l.life? id = some s) (ho : ∀ e, s ≠ .finished e) :
    ∃ t, l.tasks.get? id = some t ∧ lifeAt t.phase = s := by
  unfold life? at hl
  cases ht : l.tasks.get? id with
  | none =>
    rw [ht] at hl
    obtain ⟨e,_,rfl⟩ := Option.map_eq_some_iff.mp hl
    exact absurd rfl (ho e)
  | some t =>
    rw [ht] at hl
    exact ⟨t,rfl,Option.some.inj hl⟩

theorem life?_congr {l l' : Loader κ ι ε} {id : Nat} (ht : l'.tasks.get? id = l.tasks.get? id)
    (he : l'.endings.get? id = l.endings.get? id) : l'.life? id = l.life? id := by
  unfold life?
  rw [ht, he]

theorem life?_reach {l : Loader κ ι ε} {id : Nat} {t : LoadTask κ ι ε}
    (ht : l.tasks.get? id = some t) (p : Phase ι ε) (id' : Nat) :
    (l.reach id p).life? id' = if id = id' then some (lifeAt p) else l.life? id' := by
  unfold life?
  rw [reach_tasks, reach_endings]
  by_cases h : id = id'
  · subst h
    simp [ht]
  · simp [h]

theorem poll_eq_outcome {l : Loader κ ι ε} (canceled : ε) {id : Nat} {s : Life ι ε}
    (h : l.life? id = some s) (hn : ∀ t, l.tasks.get? id = some t → l.endings.get? id = none) :
    l.poll canceled id = s.outcome canceled := by
  unfold life? at h
  unfold poll ending?
  cases ht : l.tasks.get? id with
  | some t =>
    rw [ht] at h
    cases h
    rw [hn t ht]
    cases t.phase <;> rfl
  | none =>
    rw [ht] at h
    obtain ⟨e,he,rfl⟩ := Option.map_eq_some_iff.mp h
    rw [he]
    rfl

/-- A task gets on as the event says that it is about. -/
theorem life?_moved {l : Loader κ ι ε} {id id' : Nat} {s : Life ι ε} {t : LoadTask κ ι ε}
    (ht : l.tasks.get? id' = some t) (hl : l.life? id = some s) {e : Event κ ι ε}
    (he : Life.about e = some id') {p : Phase ι ε}
    (hp : (lifeAt t.phase).step id' e = lifeAt p) :
    (l.reach id' p).life? id = some (s.step id e) := by
  rw [life?_reach ht]
  by_cases hi : id' = id
  · subst hi
    rw [life?_of_task ht] at hl
    cases hl
    rw [if_pos rfl, hp]
  · rw [if_neg hi, hl, Life.step_of_not_about (by simpa [he] using hi)]

/-- An event that does not fit the phase of the task that it is about changes no life. -/
theorem step_of_unmoved {l : Loader κ ι ε} {id id' : Nat} {s : Life ι ε}
    (hl : l.life? id = some s) {e : Event κ ι ε} (he : Life.about e = some id')
    (hn : ∀ t, l.tasks.get? id' = some t → (lifeAt t.phase).step id' e = lifeAt t.phase) :
    s.step id e = s := by
  by_cases hi : id' = id
  · subst hi
    cases ht : l.tasks.get? id' with
    | some t =>
      rw [life?_of_task ht] at hl
      cases hl
      exact hn t ht
    | none =>
      unfold life? at hl
      rw [ht] at hl
      obtain ⟨ending,_,rfl⟩ := Option.map_eq_some_iff.mp hl
      cases e <;> rfl
  · exact Life.step_of_not_about (by simpa [he] using hi) s

section
variable [DecidableEq κ]

theorem life?_settle (l : Loader κ ι ε) (key : κ) (id : Nat) (item : Option ι) (id' : Nat) :
    (l.settle key id item).life? id' = l.life? id' :=
  life?_congr (by rw [settle_tasks]) (by rw [settle_endings])

namespace Sound
variable {l : Loader κ ι ε} {id : Nat} {s : Life ι ε}

/-- A lookup is of no interest to the loads that were started before. -/
theorem life?_looked (hs : l.Sound) (hl : l.life? id = some s) {l' : Loader κ ι ε}
    {invalid : ι → Option ε} {canStart : Bool} {key : κ} {a : Lookup ι}
    (h : Looked l invalid canStart key a l') : l'.life? id = some s := by
  cases h with
  | attached => exact hl
  | hit => exact hl
  | refused => exact hl
  | started =>
    have hn : l.nextLoad ≠ id := by
      rintro rfl
      simp [life?, hs.no_next_task, hs.no_next_ending] at hl
    rw [← hl]
    apply life?_congr
    · exact (start_tasks ..).trans (if_neg hn)
    · rfl

omit [DecidableEq κ] in
theorem life?_begin (hl : l.life? id = some s) (id' : Nat) :
    (l.begin id').1.life? id = some (s.step id (.begin id' : Event κ ι ε)) := by
  rcases begin_cases l id' with ⟨t,ht,hp,hb⟩ | hb
  · rw [hb]
    exact life?_moved ht hl rfl (by rw [hp]; rfl)
  · rw [hb, step_of_unmoved hl rfl, hl]
    intro t ht
    cases t.phase <;> rfl

theorem life?_complete (hl : l.life? id = some s) (invalid : ι → Option ε) (id' : Nat)
    (result : Except ε ι) :
    (l.complete invalid id' result).1.life? id =
      some (s.step id (.complete id' result : Event κ ι ε)) := by
  rcases complete_cases l id' invalid result with ⟨t,ht,hu,hc⟩ | ⟨hn,hc⟩
  · rw [hc]
    rw [← settle_tasks] at ht
    refine life?_moved ht ((life?_settle ..).trans hl) rfl ?_
    rw [lifeAt_eq_running.mpr hu]
    simp [Life.step, lifeAt]
  · rw [hc, step_of_unmoved hl rfl, hl]
    intro t ht
    have hu := hn t ht
    cases hp : t.phase with
    | waiting => simp [hp, Phase.unsettled] at hu
    | working => simp [hp, Phase.unsettled] at hu
    | settled e => rfl
    | released e => rfl

theorem life?_letGo (hs : l.Sound) (hl : l.life? id = some s) (id' : Nat) :
    (l.letGo id').life? id = some (s.step id (.letGo id' : Event κ ι ε)) := by
  rcases hs.letGo_cases l id' with ⟨t,e,ht,hp,hc⟩ | ⟨hn,hc⟩
  · rw [hc]
    exact life?_moved ht hl rfl (by simp [hp, Life.step, lifeAt])
  · rw [hc, step_of_unmoved hl rfl, hl]
    intro t ht
    cases hp : t.phase with
    | settled e => exact absurd hp (hn t e ht)
    | _ => rfl

theorem life?_die (hs : l.Sound) (hl : l.life? id = some s) (id' : Nat) :
    (l.die id').life? id = some (s.step id (.die id' : Event κ ι ε)) := by
  have hd : ∀ p : Phase ι ε, (lifeAt p).step id' (.die id' : Event κ ι ε) = .released .lost := by
    intro p
    cases p <;> simp [lifeAt, Life.step]
  rcases hs.die_cases l id' with ⟨t,ht,hu,hc⟩ | ⟨t,ht,hu,hc⟩ | ⟨hn,hc⟩
  · rw [hc]
    rw [← settle_tasks] at ht
    exact life?_moved ht ((life?_settle ..).trans hl) rfl (hd _)
  · rw [hc]
    exact life?_moved ht hl rfl (hd _)
  · rw [hc, step_of_unmoved hl rfl, hl]
    intro t ht
    rw [hn] at ht
    cases ht

omit [DecidableEq κ] in
theorem life?_handOver (hl : l.life? id = some s) (id' : Nat) :
    (l.handOver id').life? id = some (s.step id (.handOver id' : Event κ ι ε)) := by
  rcases handOver_cases l id' with ⟨t,e,ht,hp,hc⟩ | ⟨hn,hc⟩
  · rw [hc]
    by_cases hi : id' = id
    · subst hi
      rw [life?_of_task ht, hp] at hl
      cases hl
      simp [Life.step, lifeAt, life?, Table.get?_erase, Table.get?_insert]
    · rw [Life.step_of_not_about (by simpa [Life.about] using hi), ← hl]
      apply life?_congr
      · simp [Table.get?_erase, hi]
      · simp [Table.get?_insert, hi]
  · rw [hc, step_of_unmoved hl rfl, hl]
    intro t ht
    cases hp : t.phase with
    | released e => exact absurd hp (hn t e ht)
    | _ => rfl

end Sound

/-- Every event means to a load what its life says, however many other loads there are. -/
theorem World.step_life (w : World κ ι ε) (hs : w.loader.Sound) {id : Nat} {s : Life ι ε}
    (hl : w.loader.life? id = some s) (e : Event κ ι ε) :
    (w.step e).loader.life? id = some (s.step id e) := by
  cases e with
  | lookup canStart key =>
    rw [Life.step_of_not_about (by simp [Life.about])]
    exact hs.life?_looked hl (lookup_looked ..)
  | invalidate key =>
    rw [Life.step_of_not_about (by simp [Life.about])]
    exact hl
  | begin id' => exact Sound.life?_begin hl id'
  | complete id' result => exact Sound.life?_complete hl w.invalid id' result
  | letGo id' => exact hs.life?_letGo hl id'
  | die id' => exact hs.life?_die hl id'
  | handOver id' => exact Sound.life?_handOver hl id'
  | pass nanos =>
    rw [Life.step_of_not_about (by simp [Life.about])]
    exact hl
  | judge rule =>
    rw [Life.step_of_not_about (by simp [Life.about])]
    exact hl

theorem World.run_life (w : World κ ι ε) (hs : w.loader.Sound) {id : Nat} {s : Life ι ε}
    (hl : w.loader.life? id = some s) (es : List (Event κ ι ε)) :
    (w.run es).loader.life? id = some (s.run id es) := by
  induction es generalizing w s with
  | nil => exact hl
  | cons e es ih => exact ih (w.step e) (w.step_sound hs e) (w.step_life hs hl e)

/-- A lookup that says `loading` names the load that is registered and runs. -/
theorem Sound.running_of_look {l l' : Loader κ ι ε} (hs : l.Sound) {invalid : ι → Option ε}
    {canStart : Bool} {key : κ} {id : Nat} (h : Looked l invalid canStart key (.loading id) l') :
    l'.loading.get? key = some id ∧ l'.Running id key := by
  have hr : l'.loading.get? key = some id := by
    cases h with
    | attached hl => exact hl
    | started => simp [start_loading]; rfl
  exact ⟨hr,((hs.looked h).registered key id).mp hr⟩

omit [DecidableEq κ] in
theorem Running.life? {l : Loader κ ι ε} {id : Nat} {key : κ} (h : l.Running id key) :
    l.life? id = some .running := by
  obtain ⟨t,ht,_,hu⟩ := h
  rw [life?_of_task ht, lifeAt_eq_running.mpr hu]

/-- Whoever was told the number of a load was told the one that is registered for the key by then,
and gets what that load comes to, judged by the events of its own task alone. There is nothing to
get as long as the task is there, and the same for everybody and forever once it is gone. -/
theorem handle_resolves_to_own_load (rule : Nat → ι → Option ε) (before : List (Event κ ι ε))
    (canStart : Bool) (key : κ) {id : Nat}
    (h : ((World.new rule).run before).look canStart key = .loading id)
    (canceled : ε) (after : List (Event κ ι ε)) :
    let w := ((World.new rule).run before).step (.lookup canStart key)
    let l := (w.run after).loader
    (w.loader.loading.get? key = some id ∧ w.loader.Running id key) ∧
    l.poll canceled id = (Life.running.run id after).outcome canceled ∧
    (l.poll canceled id = none ↔ l.tasks.contains id = true) ∧
    (∀ o later, l.poll canceled id = some o →
      ((w.run after).run later).loader.poll canceled id = some o) := by
  intro w l
  have hs₀ := World.run_sound (World.new rule) .empty before
  have hs : w.loader.Sound := World.step_sound _ hs₀ _
  have hs' : l.Sound := World.run_sound w hs after
  have hk := lookup_looked ((World.new rule).run before).loader
    ((World.new rule).run before).invalid canStart key
  unfold World.look at h
  rw [h] at hk
  have hr : w.loader.loading.get? key = some id ∧ w.loader.Running id key := hs₀.running_of_look hk
  have hlife : l.life? id = some (Life.running.run id after) := w.run_life hs hr.2.life? after
  have hpoll : l.poll canceled id = (Life.running.run id after).outcome canceled :=
    poll_eq_outcome canceled hlife fun t ht => hs'.no_ending ht
  refine ⟨hr,hpoll,?_,?_⟩
  · rw [hpoll, Life.outcome_eq_none, Table.contains]
    constructor
    · intro ho
      obtain ⟨t,ht,_⟩ := exists_task_of_life? hlife ho
      rw [ht]
      rfl
    · intro hc e he
      obtain ⟨t,ht⟩ := Option.isSome_iff_exists.mp hc
      rw [life?_of_task ht, he] at hlife
      exact lifeAt_ne_finished _ _ (Option.some.inj hlife)
  · intro o later ho
    have hlater := (w.run after).run_life hs' hlife later
    have hs'' := World.run_sound (w.run after) hs' later
    rw [poll_eq_outcome canceled hlater fun t ht => hs''.no_ending ht]
    rw [hpoll] at ho
    cases hl : Life.running.run id after with
    | finished e =>
      rw [hl] at ho
      rw [Life.run_finished]
      exact ho
    | running => rw [hl] at ho; cases ho
    | settled e => rw [hl] at ho; cases ho
    | released e => rw [hl] at ho; cases ho

/-- The item of a load is handed out although it may not be cached, the next load of the key was
started before its task was done, and that load failed. -/
theorem handle_of_rejected_item :
    ((World.new fun _ (_ : Nat) => some 3).run [.lookup true 7]).look false 7 = .loading 0 ∧
    ((((World.new fun _ (_ : Nat) => some 3).run [.lookup true 7]).step (.lookup false 7)).run
      [.begin 0, .complete 0 (.ok 1), .lookup true 7, .letGo 0, .complete 1 (.error 5), .letGo 1,
        .handOver 1, .handOver 0]).loader.poll 9 0 = some (.ok 1) := by
  have h : ((World.new fun _ (_ : Nat) => some 3).run [.lookup true 7]).look false 7 =
      .loading 0 := by decide
  refine ⟨h,?_⟩
  have hr := handle_resolves_to_own_load (fun _ _ => some 3) [.lookup true 7] false 7 h 9
    [.begin 0, .complete 0 (.ok 1), .lookup true 7, .letGo 0, .complete 1 (.error 5), .letGo 1,
      .handOver 1, .handOver 0]
  exact hr.2.1.trans rfl

end

end ChatToken.Loader
