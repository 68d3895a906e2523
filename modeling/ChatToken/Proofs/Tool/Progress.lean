import Mathlib.Data.List.Chain
import ChatToken.Proofs.Tool.Course

/-! # A session makes progress as planned

What a session has done is what its plan makes of the outcomes so far, what it has printed and what
it has called is part of that, its lookups are answered by its manager, and it rests as long as the
plan says. Every attempt takes at most two steps, so that the steps it may take are never used up.
-/
namespace ChatToken.Session

variable {s₀ s s' t : Session} {cs : List Session} {f : FetchStep} {lines : List String}

/-! ## Traces -/

@[simp] theorem trace_nil : trace [] = [] := rfl

theorem trace_concat (cs : List Session) (c : Session) :
    trace (cs ++ [c]) = trace cs ++ c.deeds.map (c.net.now, ·) := by
  simp [trace]

/-- What was done at some stops, without the instants. -/
theorem map_trace (cs : List Session) : (trace cs).map (·.2) = cs.flatMap deeds := by
  simp [trace, List.map_flatMap, Function.comp_def]

@[simp] theorem outcomes_nil : outcomes [] = [] := rfl

theorem outcomes_concat (cs : List Session) (c : Session) :
    outcomes (cs ++ [c]) = outcomes cs ++ c.outcome?.toList := by
  cases h : c.outcome? <;> simp [outcomes, h]

/-! ## What is printed and called -/

theorem Reaches.plan (h : Reaches s₀ cs s) : s.plan = s₀.plan := by
  induction h with
  | start => rfl
  | drift _ hd ih => exact hd.plan.trans ih
  | step _ hs ih => exact (step_plan hs).trans ih

theorem Reaches.printed (h : Reaches s₀ cs s) :
    s.printed = s₀.printed ++ (cs.flatMap deeds).filterMap FetchEvent.line? := by
  induction h with
  | start => simp
  | drift _ hd ih => exact hd.printed.trans ih
  | step _ hs ih => simp [step_printed hs, ih]

theorem Reaches.calls (h : Reaches s₀ cs s) :
    s₀.net.Comes ((cs.flatMap deeds).filterMap FetchEvent.call?) s.net := by
  induction h with
  | start => exact .refl
  | drift _ hd ih => exact ih.then_idle hd.net
  | step _ hs ih => simpa using ih.trans (step_comes hs)

theorem Reaches.single (h : Reaches s₀ cs s) (h₀ : s₀.Started) : s.net.Single :=
  h₀.single.comes h.calls

/-! ## The plan is followed -/

/-- Behind a step that follows the plan the session stands where the plan puts it. -/
theorem follows_follow (t : Session) {os : List Outcome} {done : List FetchEvent}
    (hf : ∀ attempt, f = .pause attempt ∨ f = .lookUp attempt → attempt = os.length + 1)
    (hrun : t.plan.run os = (done ++ (t.plan.onward f).1, (t.plan.onward f).2)) :
    (t.follow f).Follows os (done ++ t.plan.deeds f) := by
  cases f with
  | pause attempt => exact ⟨hf attempt (.inl rfl),by rw [List.append_assoc]; exact hrun⟩
  | lookUp attempt => exact ⟨hf attempt (.inr rfl),hrun⟩
  | leave failure => cases failure <;> exact hrun

theorem follows_resumed {os : List Outcome} {done : List FetchEvent} (hs : s.Follows os done)
    (h : Resumes s f lines) (ht : Prepares s lines t) :
    (t.follow f).Follows (os ++ s.outcome?.toList) (done ++ s.deeds) := by
  rw [h.deeds, ← ht.plan]
  cases h with
  | accepted hstage =>
    simp only [Follows, hstage] at hs
    obtain ⟨rfl,rfl⟩ := hs
    have hnone : s.outcome? = none := by rw [outcome?, hstage]
    rw [hnone]
    refine t.follows_follow (fun attempt hf => ?_) ?_
    · unfold FetchPlan.first at hf
      split at hf <;> rcases hf with hf | hf <;> cases hf
      rfl
    · rw [← ht.plan]
      exact t.plan.run_nil
  | rested hstage =>
    simp only [Follows, hstage] at hs
    obtain ⟨rfl,hrun⟩ := hs
    have hnone : s.outcome? = none := by rw [outcome?, hstage]
    rw [hnone, Option.toList_none, List.append_nil]
    refine t.follows_follow (fun attempt hf => ?_) ?_
    · rcases hf with hf | hf <;> cases hf
      rfl
    · rw [ht.plan]
      exact hrun
  | @told _ _ _ o hstage ho =>
    simp only [Follows, hstage] at hs
    obtain ⟨rfl,hrun⟩ := hs
    rw [ho, ← List.append_assoc]
    refine t.follows_follow (fun attempt hf => ?_) ?_
    · rcases s.plan.next_cases (os.length + 1) o with ⟨_,rfl,-,hnext⟩ | ⟨failure,hnext⟩ <;>
        rw [hnext] at hf <;> rcases hf with hf | hf <;> cases hf
      simp
    · rw [ht.plan]
      exact s.plan.run_concat os o hrun

theorem Reaches.follows (h : Reaches s₀ cs s) (h₀ : s₀.Started) :
    s.Follows (outcomes cs) (cs.flatMap deeds) := by
  induction h with
  | start =>
    rw [Follows, h₀.stage]
    exact ⟨rfl,rfl⟩
  | drift _ hd ih =>
    rw [Follows, hd.stage, hd.plan]
    exact ih
  | @step cs s s' _ hs ih =>
    rw [outcomes_concat, List.flatMap_append, List.flatMap_singleton]
    cases stepped hs with
    | rejected e hstage hpoll ht =>
      have hnone : s.outcome? = none := by rw [outcome?, hstage]
      simp only [Follows, hstage] at ih
      simpa [Follows, hnone, deeds_of_rejected hstage hpoll] using ih
    | followed hf ht => exact follows_resumed ih hf ht

/-! ## Lookups are answered -/

/-- If `s` has looked up at the stop `c`, it goes by what its manager has said. -/
def Answers (c s : Session) : Prop :=
  ∀ attempt cached answer, s.stage = .asking attempt cached answer → answer = (c.net.lookup 0 0).1

theorem answers_of_step (hs : s.net.Single) (h : s.step = some s') : Answers s s' := by
  intro attempt cached answer hstage
  cases stepped h with
  | rejected => cases hstage
  | @followed f _ t hf ht =>
    cases f with
    | pause | leave => cases hstage
    | lookUp =>
      rw [← (SessionStage.asking.inj hstage).2.2]
      exact Network.lookup_congr hs.orderly ht.managers ht.now (hs.manager ▸ Nat.one_pos) 0

theorem Reaches.answered (h : Reaches s₀ cs s) (h₀ : s₀.Started) :
    (cs ++ [s]).IsChain Answers := by
  induction h with
  | start => exact .singleton _
  | drift _ hd ih =>
    rw [List.isChain_append] at ih ⊢
    refine ⟨ih.1,.singleton _,fun c hc s hs attempt cached answer hstage => ?_⟩
    obtain rfl := Option.some.inj hs
    exact ih.2.2 c hc _ rfl attempt cached answer (hd.stage ▸ hstage)
  | step h hs ih =>
    refine List.isChain_append.mpr ⟨ih,.singleton _,fun c hc s' hs' => ?_⟩
    rw [List.getLast?_concat] at hc
    obtain rfl := Option.some.inj hc
    obtain rfl := Option.some.inj hs'
    exact answers_of_step (h.single h₀) hs

/-! ## Pauses are kept -/

def KeepsPauses (done : List (Nat × FetchEvent)) : Prop :=
  done.IsChain fun a b => ∀ d, a.2 = .paused d → Clock.deadline a.1 d ≤ b.1

/-- The session pauses if and only if the last that it did was to begin a pause. Its timer was set
then. -/
structure Rests (cs : List Session) (s : Session) : Prop where
  keeps : KeepsPauses (trace cs)
  timer : ∀ timer attempt, s.stage = .pausing timer attempt → ∃ done now,
    trace cs = done ++ [(now, .paused s.plan.interval)] ∧
    timer.due = Clock.dueTick (Clock.deadline now s.plan.interval)
  pausing : ∀ done now d, trace cs = done ++ [(now, .paused d)] →
    ∃ timer attempt, s.stage = .pausing timer attempt

theorem Rests.congr (h : Rests cs s) (hstage : s'.stage = s.stage) (hplan : s'.plan = s.plan) :
    Rests cs s' where
  keeps := h.keeps
  timer := by
    rw [hstage, hplan]
    exact h.timer
  pausing := by
    rw [hstage]
    exact h.pausing

/-- A step only ends with a pause. -/
theorem keepsPauses_deeds (now : Nat) (lines : List String) (plan : FetchPlan) (f : FetchStep) :
    KeepsPauses ((lines.map FetchEvent.printed ++ plan.deeds f).map (now, ·)) := by
  unfold KeepsPauses
  induction lines with
  | nil => cases f <;> simp [FetchPlan.deeds]
  | cons line lines ih =>
    rw [List.map_cons, List.cons_append, List.map_cons, List.isChain_cons]
    exact ⟨by simp,ih⟩

theorem Rests.followed (h : Rests cs s) (hs : s.net.Timely) (hf : Resumes s f lines)
    (ht : Prepares s lines t) : Rests (cs ++ [s]) (t.follow f) := by
  have htrace : trace (cs ++ [s]) =
      trace cs ++ (lines.map FetchEvent.printed ++ s.plan.deeds f).map (s.net.now, ·) := by
    rw [trace_concat, hf.deeds]
  refine ⟨?_,?_,?_⟩
  · rw [htrace]
    refine h.keeps.append (keepsPauses_deeds ..) fun a ha b hb d had => ?_
    obtain ⟨now,x⟩ := a
    obtain rfl : x = .paused d := had
    have hb : b.1 = s.net.now := by
      obtain ⟨x,-,rfl⟩ := List.mem_map.mp (List.mem_of_mem_head? hb)
      rfl
    obtain ⟨done,hdone⟩ := List.getLast?_eq_some_iff.mp ha
    obtain ⟨timer,attempt,hstage⟩ := h.pausing _ _ _ hdone
    obtain ⟨done',now',htrace',hdue⟩ := h.timer _ _ hstage
    obtain ⟨-,hlast⟩ := List.append_inj' (hdone.symm.trans htrace') rfl
    obtain ⟨rfl,rfl⟩ : now = now' ∧ d = s.plan.interval := by simpa using hlast
    have hoff : timer.isOff s.net.sounded = true := by
      cases hf with
      | accepted hstage' | told hstage' => rw [hstage] at hstage'; cases hstage'
      | rested hstage' hoff =>
        rw [hstage] at hstage'
        cases hstage'
        exact hoff
    have hle : timer.due ≤ Clock.tick s.net.now := (of_decide_eq_true hoff).trans hs
    rw [hdue] at hle
    rw [hb]
    exact Clock.tick_dueTick_le _ _ hle
  · intro timer attempt hstage
    cases f with
    | pause attempt' =>
      cases hstage
      refine ⟨trace cs ++ (lines.map .printed).map (s.net.now, ·),s.net.now,?_,?_⟩
      · rw [htrace]
        simp [FetchPlan.deeds, ht.plan]
      · rw [follow_plan, ← ht.now]
        rfl
    | lookUp | leave => cases hstage
  · intro done now d hdone
    rw [htrace] at hdone
    cases f with
    | pause attempt => exact ⟨_,_,rfl⟩
    | lookUp | leave =>
      have hlast := congrArg List.getLast? hdone
      simp [FetchPlan.deeds] at hlast

theorem Reaches.rests (h : Reaches s₀ cs s) (h₀ : s₀.Started) : Rests cs s := by
  induction h with
  | start =>
    refine ⟨.nil,fun timer attempt hs => ?_,fun done now d hs => ?_⟩
    · rw [h₀.stage] at hs
      cases hs
    · simp at hs
  | drift _ hd ih => exact ih.congr hd.stage hd.plan
  | @step cs s s' h hs ih =>
    cases stepped hs with
    | rejected e hregistering hpoll ht =>
      have htrace : trace (cs ++ [s]) = trace cs := by
        rw [trace_concat, deeds_of_rejected hregistering hpoll]
        exact List.append_nil _
      refine ⟨htrace ▸ ih.keeps,fun timer attempt hs => ?_,fun done now d hdone => ?_⟩
      · cases hs
      obtain ⟨timer,attempt,hs⟩ := ih.pausing done now d (htrace ▸ hdone)
      rw [hregistering] at hs
      cases hs
    | followed hf ht => exact ih.followed (h.single h₀).timely hf ht

/-! ## The steps are never used up -/

def stepsLeft (s : Session) : Nat :=
  match s.stage with
  | .registering => 2 * s.plan.repeats + 3
  | .pausing _ attempt => 2 * (s.plan.repeats - attempt) + 2
  | .asking attempt _ _ => 2 * (s.plan.repeats - attempt) + 1
  | .left _ => 0

theorem stepsLeft_lt (s : Session) : s.stepsLeft < s.stepBound := by
  unfold stepsLeft stepBound
  split <;> omega

theorem stepsLeft_follow (s : Session) (f : FetchStep) : (s.follow f).stepsLeft =
    match f with
    | .pause attempt => 2 * (s.plan.repeats - attempt) + 2
    | .lookUp attempt => 2 * (s.plan.repeats - attempt) + 1
    | .leave _ => 0 := by
  cases f <;> rfl

theorem step_stepsLeft (h : s.step = some s') : s'.stepsLeft < s.stepsLeft := by
  cases stepped h with
  | rejected _ hstage =>
    simp only [stepsLeft, hstage]
    omega
  | followed hf ht =>
    rw [stepsLeft_follow, ht.plan]
    cases hf with
    | accepted hstage =>
      simp only [stepsLeft, hstage, FetchPlan.first]
      split <;> omega
    | rested hstage =>
      simp only [stepsLeft, hstage]
      omega
    | @told attempt _ _ o hstage =>
      simp only [stepsLeft, hstage]
      rcases s.plan.next_cases attempt o with ⟨_,-,hlt,hnext⟩ | ⟨_,hnext⟩ <;> rw [hnext] <;>
        dsimp only <;> omega

end ChatToken.Session
