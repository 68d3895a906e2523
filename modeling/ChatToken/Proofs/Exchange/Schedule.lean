import ChatToken.Exchange.Run
import ChatToken.Proofs.Exchange.Verdicts

/-! # What a schedule says about an exchange

The outcome of looking at an exchange, told from the events since it was started and from nothing
else: which messages were received, whether the stream has ended, and whether the timer that the
first look sets has gone off.
-/
namespace ChatToken.Exchange

def Event.message? : Event → Option Message
  | deliver m => some m
  | _ => none

def ended (p : Peer) (es : List Event) : Bool := p.dropsNew || es.contains .disconnect

/-- The messages for an exchange that was started on `p`: those that are delivered before its stream
ends. -/
def received (p : Peer) (es : List Event) : List Message :=
  if p.dropsNew then [] else (es.takeWhile (· ≠ .disconnect)).filterMap Event.message?

def nowAfter (now : Nat) : List Event → Nat
  | [] => now
  | .pass nanos :: es => nowAfter (now + nanos) es
  | _ :: es => nowAfter now es

def soundedAfter (now sounded : Nat) : List Event → Nat
  | [] => sounded
  | .pass nanos :: es => soundedAfter (now + nanos) sounded es
  | .sound :: es => soundedAfter now (Clock.tick now) es
  | _ :: es => soundedAfter now sounded es

def firstLook (now : Nat) (es : List Event) : Nat := nowAfter now (es.takeWhile (· ≠ .poll))

def due (now : Nat) (timeout : Span) (es : List Event) : Nat :=
  Clock.dueTick (Clock.deadline (firstLook now es) timeout)

/-- What a look comes to. Messages count before the end of the stream, and the end of the stream
before the timer. -/
def outcome (vs : List Verdict) (ended fired : Bool) (timeout : Span) :
    Option (Except TokenError String) :=
  match Verdict.response vs with
  | some result => some result
  | none =>
    if ended then some (.error .disconnected)
    else if fired then some (.error (.timeout timeout))
    else none

section
variable (p : Peer) (es : List Event) (e : Event) (now sounded : Nat)

theorem ended_concat : ended p (es ++ [e]) = (ended p es || e == .disconnect) := by
  have he : [e].contains .disconnect = (e == .disconnect) := by cases e <;> rfl
  rw [ended, List.contains_append, he, ← Bool.or_assoc, ended]

theorem nowAfter_concat : nowAfter now (es ++ [e]) = nowAfter (nowAfter now es) [e] := by
  induction es generalizing now with
  | nil => rfl
  | cons e' es ih => cases e' <;> exact ih _

variable {es e}

theorem takeWhile_ne_of_not_mem {a : Event} (h : a ∉ es) (ls : List Event) :
    (es ++ ls).takeWhile (· ≠ a) = es ++ ls.takeWhile (· ≠ a) := by
  apply List.takeWhile_append_of_pos
  intro e he
  exact decide_eq_true fun hea => h (hea ▸ he)

theorem takeWhile_ne_of_mem {a : Event} (h : a ∈ es) (ls : List Event) :
    (es ++ ls).takeWhile (· ≠ a) = es.takeWhile (· ≠ a) := by
  obtain ⟨first,rest,rfl,hf⟩ := List.eq_append_cons_of_mem h
  rw [List.append_assoc, takeWhile_ne_of_not_mem hf, takeWhile_ne_of_not_mem hf]
  simp

theorem received_concat_of_ended (h : ended p es = true) :
    received p (es ++ [e]) = received p es := by
  unfold received
  by_cases hd : p.dropsNew = true
  · simp [hd]
  · have hm : Event.disconnect ∈ es := by simpa [ended, hd] using h
    rw [takeWhile_ne_of_mem hm]

theorem received_concat_of_open (h : ended p es = false) :
    received p (es ++ [e]) = received p es ++ e.message?.toList := by
  obtain ⟨hd,hm⟩ : p.dropsNew = false ∧ Event.disconnect ∉ es := by simpa [ended] using h
  have hes : es.takeWhile (· ≠ .disconnect) = es := by
    simpa using takeWhile_ne_of_not_mem hm []
  rw [received, received, hd, takeWhile_ne_of_not_mem hm, hes]
  cases e <;> simp [Event.message?]

theorem firstLook_of_not_mem (h : .poll ∉ es) : firstLook now es = nowAfter now es := by
  have hes : es.takeWhile (· ≠ .poll) = es := by simpa using takeWhile_ne_of_not_mem h []
  rw [firstLook, hes]

/-- Once an exchange was looked at, nothing moves its deadline. -/
theorem firstLook_append_of_mem (h : .poll ∈ es) (ls : List Event) :
    firstLook now (es ++ ls) = firstLook now es := by
  rw [firstLook, takeWhile_ne_of_mem h, firstLook]

theorem firstLook_concat_poll : firstLook now (es ++ [.poll]) = firstLook now es := by
  by_cases h : .poll ∈ es
  · exact firstLook_append_of_mem now h _
  · rw [firstLook, takeWhile_ne_of_not_mem h, firstLook_of_not_mem now h]
    simp

theorem soundedAfter_le (h : sounded ≤ Clock.tick now) (es : List Event) :
    soundedAfter now sounded es ≤ Clock.tick (nowAfter now es) := by
  induction es generalizing now sounded with
  | nil => exact h
  | cons e es ih =>
    cases e with
    | pass nanos =>
      apply ih
      exact Nat.le_trans h (Nat.div_le_div_right (Nat.le_add_right now nanos))
    | sound => exact ih _ _ (Nat.le_refl _)
    | _ => exact ih _ _ h

end

/-! ## The clock of a run -/

namespace World

variable {μ : Type} (classify : μ → Message → Verdict × μ) (w : World μ)

theorem run_concat (es : List Event) (e : Event) :
    w.run classify (es ++ [e]) = (w.run classify es).step classify e := by
  simp [run]

theorem step_now (e : Event) : (w.step classify e).now = nowAfter w.now [e] := by
  cases e with
  | leave id =>
    rw [step]
    split <;> rfl
  | poll =>
    rw [step]
    split <;> rfl
  | _ => rfl

theorem step_sounded (e : Event) :
    (w.step classify e).sounded = soundedAfter w.now w.sounded [e] := by
  cases e with
  | leave id =>
    rw [step]
    split <;> rfl
  | poll =>
    rw [step]
    split <;> rfl
  | _ => rfl

theorem run_now (es : List Event) : (w.run classify es).now = nowAfter w.now es := by
  induction es generalizing w with
  | nil => rfl
  | cons e es ih =>
    rw [run, List.foldl_cons, ← run, ih, step_now]
    cases e <;> rfl

theorem run_sounded (es : List Event) :
    (w.run classify es).sounded = soundedAfter w.now w.sounded es := by
  induction es generalizing w with
  | nil => rfl
  | cons e es ih =>
    rw [run, List.foldl_cons, ← run, ih, step_now, step_sounded]
    cases e <;> rfl

/-- A timer never goes off before the timeout has passed since the first look. -/
theorem elapsed_of_due_le (h : w.sounded ≤ Clock.tick w.now) {es : List Event} {timeout : Span}
    (hfar : firstLook w.now es + timeout.nanos < Clock.horizon)
    (hoff : due w.now timeout es ≤ (w.run classify es).sounded) :
    firstLook w.now es + timeout.nanos ≤ (w.run classify es).now := by
  rw [run_sounded] at hoff
  have hticks := Nat.le_trans hoff (soundedAfter_le _ _ h es)
  have hdue := Clock.tick_dueTick_le _ _ hticks
  rw [Clock.deadline, if_pos hfar] at hdue
  rwa [run_now]

end World

end ChatToken.Exchange
