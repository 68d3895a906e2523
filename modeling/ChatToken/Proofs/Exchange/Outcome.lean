import Mathlib.Data.List.Induction
import ChatToken.Proofs.Exchange.Schedule
import ChatToken.Proofs.Listeners

/-! # The outcome of an exchange

What an exchange comes to at each look. While it is open, the messages that it received are those
that its matcher has classified and those that wait in its inbox, in this order; its payload is made
of the pieces among the former, and its timer is the one that the first look has set.
-/
namespace ChatToken.Exchange

variable {μ : Type} {classify : μ → Message → Verdict × μ}

/-- How an exchange stands that was started on `p` and that the events `es` did not resolve: `old`
are the messages that were classified, and `unread` are those that wait. -/
structure Pending (classify : μ → Message → Verdict × μ) (s : μ) (p : Peer) (timeout : Span)
    (now : Nat) (es : List Event) (w : World μ) (old unread : List Message) : Prop where
  clock : w.now = nowAfter now es
  limit : w.exchange.timeout = timeout
  messages : received p es = old ++ unread
  hears : w.peer.Hears w.exchange.listener (!ended p es) unread
  undecided : Verdict.response (verdicts classify s old) = none
  matcher : w.exchange.matcher = after classify s old
  payload : w.exchange.payload = String.join (Verdict.pieces (verdicts classify s old))
  unset : w.exchange.timer = none → .poll ∉ es
  set : ∀ t, w.exchange.timer = some t → .poll ∈ es ∧ t.due = due now timeout es

section
variable {s : μ} {p : Peer} {timeout : Span} {now : Nat} {es : List Event} {w : World μ}
  {old unread : List Message}

theorem Pending.start (s : μ) (p : Peer) (timeout : Span) (now sounded tickets : Nat) :
    Pending classify s p timeout now [] (.start p s timeout now sounded tickets) [] [] where
  clock := rfl
  limit := rfl
  messages := by simp [received]
  hears := by
    have h := Peer.hears_subscribe p
    rw [← Bool.or_false p.dropsNew] at h
    exact h
  undecided := rfl
  matcher := rfl
  payload := String.join_nil.symm
  unset := by simp
  set := by
    intro t ht
    cases ht

/-- What an event leaves as it is that does not look at the exchange. -/
theorem Pending.undisturbed (h : Pending classify s p timeout now es w old unread) {e : Event}
    (he : e ≠ .poll) {w' : World μ} {unread' : List Message}
    (hx : w'.exchange = w.exchange) (hnow : w'.now = nowAfter w.now [e])
    (hr : received p (es ++ [e]) = old ++ unread')
    (hh : w'.peer.Hears w.exchange.listener (!ended p (es ++ [e])) unread') :
    Pending classify s p timeout now (es ++ [e]) w' old unread' where
  clock := by rw [hnow, h.clock, nowAfter_concat]
  limit := by rw [hx, h.limit]
  messages := hr
  hears := by rwa [hx]
  undecided := h.undecided
  matcher := by rw [hx, h.matcher]
  payload := by rw [hx, h.payload]
  unset := by
    intro ht
    rw [hx] at ht
    simp [h.unset ht, he.symm]
  set := by
    intro t ht
    rw [hx] at ht
    obtain ⟨hm,hd⟩ := h.set t ht
    rw [due, firstLook_append_of_mem now hm, hd, due]
    exact ⟨List.mem_append_left _ hm,rfl⟩

theorem received_of_no_message {e : Event} (he : e.message? = none) :
    received p (es ++ [e]) = received p es := by
  cases ho : ended p es with
  | true => exact received_concat_of_ended p ho
  | false => rw [received_concat_of_open p ho, he, Option.toList_none, List.append_nil]

theorem ended_of_ne {e : Event} (he : e ≠ .disconnect) : ended p (es ++ [e]) = ended p es := by
  rw [ended_concat, beq_eq_false_iff_ne.mpr he, Bool.or_false]

/-- What an event leaves as it is that concerns somebody else or the clock. -/
theorem Pending.elsewhere (h : Pending classify s p timeout now es w old unread) {e : Event}
    (he : e ≠ .poll) (hd : e ≠ .disconnect) (hm : e.message? = none) {w' : World μ}
    (hx : w'.exchange = w.exchange) (hnow : w'.now = nowAfter w.now [e])
    (hh : w'.peer.Hears w.exchange.listener (!ended p es) unread) :
    Pending classify s p timeout now (es ++ [e]) w' old unread := by
  apply h.undisturbed he hx hnow
  · rw [received_of_no_message hm, h.messages]
  · rwa [ended_of_ne hd]

theorem Pending.step (h : Pending classify s p timeout now es w old unread) {e : Event}
    (he : e ≠ .poll) :
    ∃ unread', Pending classify s p timeout now (es ++ [e]) (w.step classify e) old unread' := by
  have hnow := w.step_now classify e
  cases e with
  | deliver m =>
    refine ⟨if (!ended p es) = true then unread ++ [m] else unread,
      h.undisturbed he rfl hnow ?_ ?_⟩
    · cases ho : ended p es with
      | true => simpa [ho] using (received_concat_of_ended p ho).trans h.messages
      | false =>
        rw [received_concat_of_open p ho, h.messages]
        simp [Event.message?]
    · rw [ended_of_ne (by simp)]
      exact h.hears.dispatch m
  | disconnect =>
    refine ⟨unread,h.undisturbed he rfl hnow ?_ ?_⟩
    · rw [received_of_no_message rfl, h.messages]
    · rw [ended_concat, beq_self_eq_true, Bool.or_true]
      exact h.hears.disconnect
  | join => exact ⟨unread,h.elsewhere he (by simp) rfl rfl hnow h.hears.subscribe⟩
  | leave id =>
    by_cases hid : id = w.exchange.listener
    · rw [World.step, if_pos hid] at hnow ⊢
      exact ⟨unread,h.elsewhere he (by simp) rfl rfl hnow h.hears⟩
    · rw [World.step, if_neg hid] at hnow ⊢
      exact ⟨unread,h.elsewhere he (by simp) rfl rfl hnow (h.hears.hangUp hid)⟩
  | pass nanos => exact ⟨unread,h.elsewhere he (by simp) rfl rfl hnow h.hears⟩
  | sound => exact ⟨unread,h.elsewhere he (by simp) rfl rfl hnow h.hears⟩
  | poll => exact absurd rfl he

/-! ## A look -/

/-- The timer of an exchange that is looked at was set at the first look. -/
theorem Pending.armed (h : Pending classify s p timeout now es w old unread) (ticket : Nat) :
    ∃ t, (w.exchange.arm w.now ticket).timer = some t ∧ t.due = due now timeout es := by
  cases ht : w.exchange.timer with
  | none =>
    refine ⟨_,rfl,?_⟩
    rw [ht, due, firstLook_of_not_mem now (h.unset ht), ← h.clock, ← h.limit]
    rfl
  | some t =>
    refine ⟨t,by rw [arm, ht]; rfl,(h.set t ht).2⟩

/-- The pieces of the payload and the verdicts on what waits make the response. -/
theorem Pending.response_eq (h : Pending classify s p timeout now es w old unread) :
    Verdict.response (verdicts classify s (received p es)) =
      Verdict.behind w.exchange.payload
        (Verdict.response (verdicts classify w.exchange.matcher unread)) := by
  rw [h.messages, verdicts_append, Verdict.response_append h.undecided, h.payload, h.matcher]

theorem Pending.look_result (h : Pending classify s p timeout now es w old unread) :
    (w.look classify).result =
      outcome (verdicts classify s (received p es)) (ended p es)
        (decide (due now timeout es ≤ w.sounded)) timeout := by
  obtain ⟨t,ht,hdue⟩ := h.armed w.tickets
  have hoff : (w.exchange.arm w.now w.tickets).timedOut w.sounded =
      decide (due now timeout es ≤ w.sounded) := by
    rw [timedOut, ht, ← hdue]
    rfl
  rw [World.look, look]
  dsimp only
  rw [h.hears.unread_eq, h.hears.registered, poll_result, ← h.response_eq, hoff, h.limit, outcome]
  cases Verdict.response (verdicts classify s (received p es)) with
  | some result => rfl
  | none => simp

theorem Pending.look_exchange (h : Pending classify s p timeout now es w old unread) :
    (w.look classify).exchange =
      { w.exchange.arm w.now w.tickets with
        matcher := after classify s (heard classify s (received p es))
        payload := String.join (Verdict.pieces (verdicts classify s (received p es))) } := by
  have hm : (w.exchange.arm w.now w.tickets).matcher = after classify s old := h.matcher
  have hp : (w.exchange.arm w.now w.tickets).payload =
      String.join (Verdict.pieces (verdicts classify s old)) := h.payload
  rw [World.look, look]
  dsimp only
  rw [h.hears.unread_eq, poll_exchange, read_exchange, hm, hp, h.messages, heard_append h.undecided,
    after_append, verdicts_append, Verdict.pieces_append h.undecided, String.join_append]

/-- An exchange that a look leaves open has classified everything. -/
theorem Pending.look (h : Pending classify s p timeout now es w old unread)
    (hn : (w.look classify).result = none) :
    Pending classify s p timeout now (es ++ [.poll]) (w.look classify) (received p es) [] := by
  have hr : received p (es ++ [.poll]) = received p es := received_of_no_message rfl
  have hu : Verdict.response (verdicts classify s (received p es)) = none := by
    rw [h.look_result, outcome] at hn
    cases hv : Verdict.response (verdicts classify s (received p es)) with
    | some result => simp [hv] at hn
    | none => rfl
  obtain ⟨t,ht,hdue⟩ := h.armed w.tickets
  have hx := h.look_exchange
  refine ⟨?_,?_,?_,?_,hu,?_,?_,?_,?_⟩
  · rw [nowAfter_concat, ← h.clock]
    rfl
  · rw [hx]
    exact h.limit
  · rw [hr, List.append_nil]
  · have hpeer : (w.look classify).peer =
        { w.peer with listeners := w.peer.listeners.drain w.exchange.listener } := by
      change (if (w.look classify).result.isSome then _ else _) = _
      rw [hn]
      rfl
    rw [hpeer, hx, ended_of_ne (by simp)]
    exact h.hears.drain
  · have hall : heard classify s (received p es) = received p es := by
      simpa [heard] using heard_append hu []
    rw [hx, hall]
  · rw [hx]
  · intro hnone
    rw [hx] at hnone
    exact absurd (ht.symm.trans hnone) (by simp)
  · intro t' ht'
    rw [hx] at ht'
    obtain rfl : t = t' := Option.some.inj (ht.symm.trans ht')
    rw [due, firstLook_concat_poll]
    exact ⟨by simp,hdue⟩

end

/-! ## Runs -/

theorem World.step_of_ne_poll (w : World μ) {e : Event} (he : e ≠ .poll) :
    (w.step classify e).result = w.result ∧ (w.step classify e).exchange = w.exchange := by
  cases e with
  | leave id =>
    rw [step]
    split <;> exact ⟨rfl,rfl⟩
  | poll => exact absurd rfl he
  | _ => exact ⟨rfl,rfl⟩

theorem World.step_poll_of_isSome {w : World μ} (h : w.result.isSome = true) :
    w.step classify .poll = w := by
  rw [step, if_pos h]

theorem World.step_poll_of_none {w : World μ} (h : w.result = none) :
    w.step classify .poll = w.look classify := by
  simp [step, h]

/-- As long as an exchange is open, it stands as its schedule says. -/
theorem World.run_pending (s : μ) (p : Peer) (timeout : Span) (now sounded tickets : Nat)
    (es : List Event)
    (hn : ((World.start p s timeout now sounded tickets).run classify es).result = none) :
    ∃ old unread, Pending classify s p timeout now es
      ((World.start p s timeout now sounded tickets).run classify es) old unread := by
  -- from the last event on, since what a look comes to depends on everything before it
  induction es using List.reverseRecOn with
  | nil => exact ⟨_,_,.start s p timeout now sounded tickets⟩
  | append_singleton es e ih =>
    rw [run_concat] at hn ⊢
    by_cases he : e = .poll
    · subst he
      cases hr : ((World.start p s timeout now sounded tickets).run classify es).result with
      | some r => simp [step_poll_of_isSome, hr] at hn
      | none =>
        obtain ⟨old,unread,h⟩ := ih hr
        rw [step_poll_of_none hr] at hn ⊢
        exact ⟨_,_,h.look hn⟩
    · rw [(step_of_ne_poll _ he).1] at hn
      obtain ⟨old,unread,h⟩ := ih hn
      obtain ⟨unread',h'⟩ := h.step he
      exact ⟨old,unread',h'⟩

theorem World.run_poll_result (s : μ) (p : Peer) (timeout : Span) (now sounded tickets : Nat)
    (es : List Event) :
    let w := (World.start p s timeout now sounded tickets).run classify es
    (w.step classify .poll).result = w.result.or
      (outcome (verdicts classify s (received p es)) (ended p es)
        (decide (due now timeout es ≤ soundedAfter now sounded es)) timeout) := by
  intro w
  cases hr : w.result with
  | some r =>
    rw [step_poll_of_isSome (by rw [hr]; rfl), hr]
    rfl
  | none =>
    obtain ⟨old,unread,h⟩ := run_pending s p timeout now sounded tickets es hr
    have hs : w.sounded = soundedAfter now sounded es := run_sounded ..
    rw [step_poll_of_none hr, h.look_result, hs, Option.none_or]

theorem World.run_unlooked (s : μ) (p : Peer) (timeout : Span) (now sounded tickets : Nat)
    {es : List Event} (hm : .poll ∉ es) :
    ((World.start p s timeout now sounded tickets).run classify es).result = none := by
  induction es using List.reverseRecOn with
  | nil => rfl
  | append_singleton es e ih =>
    obtain ⟨hes,he⟩ : .poll ∉ es ∧ .poll ≠ e := by simpa using hm
    rw [run_concat, (step_of_ne_poll _ he.symm).1, ih hes]

/-! ## What the matcher is given -/

def logging (classify : μ → Message → Verdict × μ) (s : List Message × μ) (m : Message) :
    Verdict × (List Message × μ) :=
  ((classify s.2 m).1, s.1 ++ [m], (classify s.2 m).2)

theorem verdicts_logging (s : List Message × μ) (ms : List Message) :
    verdicts (logging classify) s ms = verdicts classify s.2 ms := by
  induction ms generalizing s with
  | nil => rfl
  | cons m ms ih =>
    rw [verdicts, ih]
    rfl

theorem after_logging (s : List Message × μ) (ms : List Message) :
    (after (logging classify) s ms).1 = s.1 ++ ms := by
  induction ms generalizing s with
  | nil => simp [after]
  | cons m ms ih =>
    rw [after, List.foldl_cons, ← after, ih]
    simp [logging]

/-- Recording the messages makes no difference to an exchange. -/
theorem World.run_logging (s : μ) (p : Peer) (timeout : Span) (now sounded tickets : Nat)
    (es : List Event) :
    ((World.start p ([],s) timeout now sounded tickets).run (logging classify) es).result =
      ((World.start p s timeout now sounded tickets).run classify es).result := by
  induction es using List.reverseRecOn with
  | nil => rfl
  | append_singleton es e ih =>
    rw [run_concat, run_concat]
    by_cases he : e = .poll
    · subst he
      rw [run_poll_result, run_poll_result, ih, verdicts_logging]
    · rw [(step_of_ne_poll _ he).1, (step_of_ne_poll _ he).1, ih]

theorem World.run_poll_log (s : μ) (p : Peer) (timeout : Span) (now sounded tickets : Nat)
    (es : List Event) :
    let w := (World.start p ([],s) timeout now sounded tickets).run (logging classify) es
    (w.step (logging classify) .poll).exchange.matcher.1 =
      if w.result.isSome then w.exchange.matcher.1 else heard classify s (received p es) := by
  intro w
  cases hr : w.result with
  | some r =>
    rw [step_poll_of_isSome (by rw [hr]; rfl)]
    rfl
  | none =>
    obtain ⟨old,unread,h⟩ := run_pending ([],s) p timeout now sounded tickets es hr
    rw [step_poll_of_none hr, h.look_exchange]
    simp only [after_logging, heard, verdicts_logging]
    rfl

/-- In every run, for every matcher: a look at an open exchange comes to the outcome that the events
before it determine, and after it the matcher was given the messages received so far, in order and
once each, up to the first one that ends the exchange. Nothing else resolves an exchange or uses its
matcher, and a resolved exchange stays as it is. Hence an exchange that is never looked at is never
resolved, skipped messages make no difference, and nothing moves the deadline after the first
look. -/
theorem look_outcome (classify : μ → Message → Verdict × μ) (s : μ) (p : Peer) (timeout : Span)
    (now sounded tickets : Nat) (es : List Event) :
    let w := (World.start p s timeout now sounded tickets).run classify es
    let logged := (World.start p ([],s) timeout now sounded tickets).run (logging classify) es
    let vs := verdicts classify s (received p es)
    let off := decide (due now timeout es ≤ soundedAfter now sounded es)
    (w.step classify .poll).result = w.result.or (outcome vs (ended p es) off timeout) ∧
    logged.result = w.result ∧
    (logged.step (logging classify) .poll).exchange.matcher.1 =
      (if w.result.isSome then logged.exchange.matcher.1
        else heard classify s (received p es)) ∧
    (∀ e, e ≠ .poll → (w.step classify e).result = w.result ∧
      (logged.step (logging classify) e).exchange.matcher.1 = logged.exchange.matcher.1) ∧
    (.poll ∉ es → w.result = none) ∧
    outcome (vs.filter (· ≠ .skip)) (ended p es) off timeout =
      outcome vs (ended p es) off timeout ∧
    (.poll ∈ es → ∀ later, due now timeout (es ++ later) = due now timeout es) := by
  intro w logged vs off
  have hlogged : logged.result = w.result := World.run_logging ..
  refine ⟨World.run_poll_result ..,hlogged,?_,?_,?_,?_,?_⟩
  · rw [← hlogged]
    exact World.run_poll_log ..
  · intro e he
    rw [(logged.step_of_ne_poll he).2]
    exact ⟨(w.step_of_ne_poll he).1,rfl⟩
  · intro hm
    exact World.run_unlooked s p timeout now sounded tickets hm
  · rw [outcome, outcome, Verdict.response_filter_skip]
  · intro hm later
    rw [due, due, firstLook_append_of_mem now hm]

/-- A waiting message counts although the stream has ended and the timer has gone off. -/
example :
    ((World.start { name := "peer" } () (Span.ofMillis 2) 0 0 0).run
      (fun s m => (if m.command = "PONG" then .complete "" else .skip, s))
      [.poll, .deliver ⟨none,"PONG",[]⟩, .disconnect, .pass 3000000, .sound, .poll]).result =
      some (.ok "") := by
  decide

end ChatToken.Exchange
