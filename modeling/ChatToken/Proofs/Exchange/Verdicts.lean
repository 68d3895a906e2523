import ChatToken.Exchange

/-! # From verdicts to a response

What the verdicts on a list of messages say about the response, and that reading the messages comes
to the same result. Reading can be interrupted: the verdicts on the first messages add their pieces
to what the verdicts on the others say.
-/
namespace ChatToken

namespace Verdict

def isTerminal : Verdict → Bool
  | skip | fragment _ => false
  | complete _ | reject _ => true

def piece? : Verdict → Option String
  | fragment piece => some piece
  | _ => none

def pieces (vs : List Verdict) : List String :=
  (vs.takeWhile fun v => !v.isTerminal).filterMap piece?

/-- What the first verdict that ends the exchange says: the pieces in order with the last one behind
them, or the error. -/
def response (vs : List Verdict) : Option (Except TokenError String) :=
  match vs.find? isTerminal with
  | some (complete last) => some (.ok (String.join (pieces vs) ++ last))
  | some (reject e) => some (.error e)
  | _ => none

def behind (payload : String) (r : Option (Except TokenError String)) :
    Option (Except TokenError String) :=
  r.map (Except.map (payload ++ ·))

@[simp] theorem behind_empty (r : Option (Except TokenError String)) : behind "" r = r := by
  rcases r with _ | e | text <;> simp [behind, Except.map]

theorem behind_behind (a b : String) (r : Option (Except TokenError String)) :
    behind a (behind b r) = behind (a ++ b) r := by
  rcases r with _ | e | text <;> simp [behind, Except.map, String.append_assoc]

@[simp] theorem behind_eq_none {payload : String} {r : Option (Except TokenError String)} :
    behind payload r = none ↔ r = none := by
  simp [behind]

section
variable (piece last : String) (e : TokenError) (vs : List Verdict)

@[simp] theorem isTerminal_skip : skip.isTerminal = false := rfl
@[simp] theorem isTerminal_fragment : (fragment piece).isTerminal = false := rfl
@[simp] theorem isTerminal_complete : (complete last).isTerminal = true := rfl
@[simp] theorem isTerminal_reject : (reject e).isTerminal = true := rfl

@[simp] theorem pieces_nil : pieces [] = [] := rfl
@[simp] theorem pieces_skip : pieces (skip :: vs) = pieces vs := rfl
@[simp] theorem pieces_fragment : pieces (fragment piece :: vs) = piece :: pieces vs := rfl
@[simp] theorem pieces_complete : pieces (complete last :: vs) = [] := rfl
@[simp] theorem pieces_reject : pieces (reject e :: vs) = [] := rfl

@[simp] theorem response_nil : response [] = none := rfl
@[simp] theorem response_skip : response (skip :: vs) = response vs := rfl

@[simp] theorem response_fragment :
    response (fragment piece :: vs) = behind piece (response vs) := by
  simp only [response, List.find?_cons, isTerminal_fragment, pieces_fragment, String.join_cons,
    String.append_assoc]
  rcases vs.find? isTerminal with _ | v
  · rfl
  · cases v <;> rfl

@[simp] theorem response_complete : response (complete last :: vs) = some (.ok last) := by
  simp [response, List.find?_cons, String.join_nil]

@[simp] theorem response_reject : response (reject e :: vs) = some (.error e) := rfl

end

/-- Messages that are skipped never change the response. -/
theorem response_filter_skip (vs : List Verdict) :
    response (vs.filter (· ≠ skip)) = response vs := by
  induction vs with
  | nil => rfl
  | cons v vs ih =>
    cases v with
    | skip => simpa using ih
    | fragment piece => simpa using congrArg (behind piece) ih
    | complete last => simp
    | reject e => simp

theorem response_eq_none {vs : List Verdict} :
    response vs = none ↔ ∀ v ∈ vs, v.isTerminal = false := by
  induction vs with
  | nil => simp
  | cons v vs ih =>
    cases v with
    | skip => simpa using ih
    | fragment piece => simpa using ih
    | complete last => simp
    | reject e => simp

theorem response_append {vs : List Verdict} (hq : response vs = none) (ws : List Verdict) :
    response (vs ++ ws) = behind (String.join (pieces vs)) (response ws) := by
  induction vs with
  | nil => simp [String.join_nil]
  | cons v vs ih =>
    cases v with
    | skip => exact ih hq
    | fragment piece =>
      have hq' : response vs = none := by simpa using hq
      rw [List.cons_append, response_fragment, ih hq', behind_behind, pieces_fragment,
        String.join_cons]
    | complete last => simp at hq
    | reject e => simp at hq

theorem pieces_append {vs : List Verdict} (hq : response vs = none) (ws : List Verdict) :
    pieces (vs ++ ws) = pieces vs ++ pieces ws := by
  induction vs with
  | nil => rfl
  | cons v vs ih =>
    cases v with
    | skip => exact ih hq
    | fragment piece =>
      have hq' : response vs = none := by simpa using hq
      rw [List.cons_append, pieces_fragment, ih hq', pieces_fragment, List.cons_append]
    | complete last => simp at hq
    | reject e => simp at hq

/-- A response is not changed by what comes behind it. -/
theorem response_append_of_some {vs : List Verdict} {r : Except TokenError String}
    (h : response vs = some r) (ws : List Verdict) : response (vs ++ ws) = some r := by
  induction vs generalizing r with
  | nil => cases h
  | cons v vs ih =>
    cases v with
    | skip => exact ih h
    | fragment piece =>
      rw [response_fragment] at h
      rw [List.cons_append, response_fragment]
      cases hr : response vs with
      | none => rw [hr] at h; cases h
      | some r' =>
        rw [ih hr]
        rwa [hr] at h
    | complete last => simpa using h
    | reject e => simpa using h

end Verdict

namespace Exchange

variable {μ : Type} (classify : μ → Message → Verdict × μ)

def verdicts (s : μ) : List Message → List Verdict
  | [] => []
  | m :: ms => (classify s m).1 :: verdicts (classify s m).2 ms

def after (s : μ) (ms : List Message) : μ := ms.foldl (fun s m => (classify s m).2) s

def heard (s : μ) (ms : List Message) : List Message :=
  ms.take ((verdicts classify s ms).findIdx Verdict.isTerminal + 1)

variable {classify}

theorem verdicts_append (s : μ) (ms ns : List Message) :
    verdicts classify s (ms ++ ns) =
      verdicts classify s ms ++ verdicts classify (after classify s ms) ns := by
  induction ms generalizing s with
  | nil => rfl
  | cons m ms ih => simp [verdicts, after, ih]

theorem after_append (s : μ) (ms ns : List Message) :
    after classify s (ms ++ ns) = after classify (after classify s ms) ns :=
  List.foldl_append

theorem heard_cons (s : μ) (m : Message) (ms : List Message) :
    heard classify s (m :: ms) =
      m :: if (classify s m).1.isTerminal then [] else heard classify (classify s m).2 ms := by
  simp only [heard, verdicts, List.findIdx_cons]
  cases (classify s m).1.isTerminal <;> simp

/-- Messages that leave the exchange open are all heard, and those behind them as well. -/
theorem heard_append {s : μ} {ms : List Message}
    (hq : Verdict.response (verdicts classify s ms) = none) (ns : List Message) :
    heard classify s (ms ++ ns) = ms ++ heard classify (after classify s ms) ns := by
  induction ms generalizing s with
  | nil => rfl
  | cons m ms ih =>
    have hall := Verdict.response_eq_none.mp hq
    have hm : (classify s m).1.isTerminal = false := hall _ (by simp [verdicts])
    have hms : Verdict.response (verdicts classify (classify s m).2 ms) = none :=
      Verdict.response_eq_none.mpr fun v hv => hall v (by simp [verdicts, hv])
    rw [List.cons_append, heard_cons, hm, ih hms]
    rfl

/-! ## Reading -/

theorem read_result (x : Exchange μ) (ms : List Message) :
    (x.read classify ms).result =
      Verdict.behind x.payload (Verdict.response (verdicts classify x.matcher ms)) := by
  induction ms generalizing x with
  | nil => rfl
  | cons m ms ih =>
    rw [read, verdicts]
    rcases h : classify x.matcher m with ⟨v,s⟩
    cases v with
    | skip => simp [ih]
    | fragment piece => simp [ih, Verdict.behind_behind]
    | complete last => simp [Verdict.behind, Except.map]
    | reject e => simp [Verdict.behind, Except.map]

/-- Reading passes the messages that are heard to the matcher, and keeps their pieces. -/
theorem read_exchange (x : Exchange μ) (ms : List Message) :
    (x.read classify ms).exchange =
      { x with
        matcher := after classify x.matcher (heard classify x.matcher ms)
        payload := x.payload ++ String.join (Verdict.pieces (verdicts classify x.matcher ms)) } := by
  induction ms generalizing x with
  | nil => simp [read, heard, after, verdicts, String.join_nil]
  | cons m ms ih =>
    rw [read, verdicts, heard_cons]
    rcases h : classify x.matcher m with ⟨v,s⟩
    cases v with
    | skip => simp [ih, after, h]
    | fragment piece => simp [ih, after, h, String.join_cons, String.append_assoc]
    | complete last => simp [after, h, String.join_nil]
    | reject e => simp [after, h, String.join_nil]

theorem poll_exchange (x : Exchange μ) (now sounded ticket : Nat) (open_ : Bool)
    (unread : List Message) :
    (x.poll classify now sounded ticket open_ unread).exchange =
      ((x.arm now ticket).read classify unread).exchange := by
  rw [poll]
  cases ((x.arm now ticket).read classify unread).result with
  | some result => rfl
  | none =>
    dsimp only
    split
    · rfl
    · split <;> rfl

/-- Messages count before the end of the stream, and the end of the stream before the timer. -/
theorem poll_result (x : Exchange μ) (now sounded ticket : Nat) (open_ : Bool)
    (unread : List Message) :
    (x.poll classify now sounded ticket open_ unread).result =
      (Verdict.behind x.payload (Verdict.response (verdicts classify x.matcher unread))).or
        (if open_ = false then some (.error .disconnected)
          else if (x.arm now ticket).timedOut sounded then some (.error (.timeout x.timeout))
          else none) := by
  have hr : ((x.arm now ticket).read classify unread).result =
      Verdict.behind x.payload (Verdict.response (verdicts classify x.matcher unread)) :=
    read_result _ _
  have ht : ((x.arm now ticket).read classify unread).exchange.timedOut sounded =
      (x.arm now ticket).timedOut sounded := by
    rw [read_exchange]
    rfl
  rw [← hr, poll]
  cases hc : ((x.arm now ticket).read classify unread).result with
  | some result => exact hc
  | none =>
    simp only [ht, Bool.not_eq_true', Option.none_or]
    split
    · rfl
    · split
      · rfl
      · exact hc

end Exchange

end ChatToken
