import ChatToken.Tool.Run

/-! # Plans and outcomes

What a plan makes of the outcomes of its lookups, as a whole and one outcome after another.
-/
namespace ChatToken.FetchPlan

variable (plan : FetchPlan)

/-- A plan goes on behind a token, or comes to its end. -/
theorem next_cases (attempt : Nat) (o : Outcome) :
    (∃ t, o = .ok (some t) ∧ attempt < plan.repeats ∧ plan.next attempt o = .pause (attempt + 1)) ∨
    ∃ failure, plan.next attempt o = .leave failure := by
  rcases o with e | _ | t
  · exact .inr ⟨some e,rfl⟩
  · exact .inr ⟨none,rfl⟩
  · by_cases hlt : attempt < plan.repeats
    · exact .inl ⟨t,rfl,hlt,if_pos hlt⟩
    · exact .inr ⟨none,if_neg hlt⟩

/-! ## All outcomes -/

theorem attempts_lookedUp (ts : List Token) (events : List FetchEvent) :
    plan.attempts ts [.paused plan.interval] ++ .lookedUp :: events =
      plan.attempts ts [.paused plan.interval, .lookedUp] ++ events := by
  cases ts <;> simp [attempts]

theorem attempts_concat (ts : List Token) (t : Token) (last : List FetchEvent) :
    plan.attempts (ts ++ [t]) last =
      plan.attempts ts [.paused plan.interval, .lookedUp] ++ .printed t.value :: last := by
  cases ts <;> simp [attempts]

/-- The attempts behind those that brought the tokens `ts`. -/
theorem fetches_runLookup (ts : List Token) (hts : ts.length < plan.repeats) (os : List Outcome) :
    plan.Fetches (tokens ts ++ os)
      (plan.attempts ts [.paused plan.interval] ++ (plan.runLookup (ts.length + 1) os).1)
      (plan.runLookup (ts.length + 1) os).2 := by
  induction os generalizing ts with
  | nil =>
    simp only [runLookup, attempts_lookedUp, List.append_nil]
    exact .waiting ts hts
  | cons o os ih =>
    rcases o with e | _ | t
    · simp only [runLookup, next, printed, List.map_nil, List.cons_append, List.nil_append,
        attempts_lookedUp]
      exact .failed ts e os hts
    · simp only [runLookup, next, printed, List.map_cons, List.map_nil, List.cons_append,
        List.nil_append, attempts_lookedUp]
      exact .unsupported ts os hts
    · have houtcomes : tokens ts ++ .ok (some t) :: os = tokens (ts ++ [t]) ++ os := by
        simp [tokens]
      rw [houtcomes]
      by_cases hlt : ts.length + 1 < plan.repeats
      · have h := ih (ts ++ [t]) (by simpa using hlt)
        simp only [runLookup, next, hlt, if_true, printed, List.map_cons, List.map_nil,
          List.cons_append, List.nil_append, attempts_lookedUp]
        rw [List.length_append, attempts_concat, List.append_assoc] at h
        exact h
      · simp only [runLookup, next, hlt, if_false, printed, List.map_cons, List.map_nil,
          List.cons_append, List.nil_append, attempts_lookedUp]
        have h : plan.Fetches _ _ _ := .all (ts ++ [t]) os (by simp; omega)
        rw [attempts_concat, List.append_assoc] at h
        exact h

/-- The tool does what it ought to, whatever the outcomes of its lookups. -/
theorem fetches_run (os : List Outcome) : plan.Fetches os (plan.run os).1 (plan.run os).2 := by
  unfold run first
  by_cases hzero : plan.repeats = 0
  · rw [if_pos hzero]
    exact .all [] os hzero.symm
  · rw [if_neg hzero]
    exact plan.fetches_runLookup [] (Nat.pos_of_ne_zero hzero) os

/-- The second lookup fails, and there is no third one. -/
example :
    let plan : FetchPlan := { address := "irc", repeats := 3, interval := Span.ofSeconds 20 }
    plan.run [.ok (some { value := "t", acquiredAt := 0 }), .error .internal, .ok none] =
      ([.lookedUp, .printed "t", .paused plan.interval, .lookedUp, .quit, .forgot],
        .failed .internal) := by
  rfl

/-! ## One outcome after another -/

def onward : FetchStep → List FetchEvent × FetchEnd
  | .pause _ => ([.paused plan.interval, .lookedUp], .waiting)
  | .lookUp _ => ([.lookedUp], .waiting)
  | .leave failure => ([.quit, .forgot], ending failure)

theorem run_nil : plan.run [] = plan.onward plan.first := by
  unfold run first
  by_cases hzero : plan.repeats = 0
  · rw [if_pos hzero]
    rfl
  · rw [if_neg hzero]
    rfl

theorem ending_ne_waiting (failure : Option TokenError) : ending failure ≠ .waiting := by
  cases failure <;> nofun

theorem runLookup_concat (attempt : Nat) (os : List Outcome) (o : Outcome) {done : List FetchEvent}
    (h : plan.runLookup attempt os = (done, .waiting)) :
    plan.runLookup attempt (os ++ [o]) =
      (done ++ (plan.printed o).map .printed ++ (plan.onward (plan.next (attempt + os.length) o)).1,
        (plan.onward (plan.next (attempt + os.length) o)).2) := by
  induction os generalizing attempt done with
  | nil =>
    obtain ⟨rfl,-⟩ := Prod.mk.inj h
    simp only [List.nil_append, runLookup, List.length_nil, Nat.add_zero]
    cases plan.next attempt o <;> simp [onward]
  | cons o' os ih =>
    rcases plan.next_cases attempt o' with ⟨t,rfl,-,hnext⟩ | ⟨failure,hnext⟩
    · simp only [runLookup, hnext] at h
      obtain ⟨rfl,hwait⟩ := Prod.mk.inj h
      have hrest := ih (attempt + 1) (Prod.ext rfl hwait)
      simp only [List.cons_append, runLookup, hnext, hrest]
      simp [Nat.add_assoc, Nat.add_comm 1]
    · simp only [runLookup, hnext] at h
      exact absurd (Prod.mk.inj h).2 (ending_ne_waiting failure)

theorem run_concat (os : List Outcome) (o : Outcome) {done : List FetchEvent}
    (h : plan.run os = (done, .waiting)) :
    plan.run (os ++ [o]) =
      (done ++ (plan.printed o).map .printed ++ (plan.onward (plan.next (os.length + 1) o)).1,
        (plan.onward (plan.next (os.length + 1) o)).2) := by
  unfold run first at h ⊢
  by_cases hzero : plan.repeats = 0
  · rw [if_pos hzero] at h
    exact absurd (Prod.mk.inj h).2 (ending_ne_waiting none)
  · rw [if_neg hzero] at h ⊢
    rw [Nat.add_comm os.length]
    exact plan.runLookup_concat 1 os o h

end ChatToken.FetchPlan
