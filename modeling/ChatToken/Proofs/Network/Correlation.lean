import ChatToken.Network.Server
import ChatToken.Proofs.Network.Tokens
import ChatToken.Proofs.Response
import Mathlib.Data.List.Infix

/-! # Which response a request gets

A load takes the first response whose end its peer had not delivered yet when it asked. That is the
response to its own request if all requests before it had been answered by then. Otherwise it is the
response to an earlier request, or the rest of it, whether or not somebody else takes it as well.
-/
namespace ChatToken.Network

instance (n : Network) (p : Nat) (answer : Nat → Response) (es : List Event) :
    Decidable (n.Answered p answer es) :=
  decidable_of_iff (∀ es' ∈ es.inits,
      n.responded p es' <+: Response.first answer (n.requests p es')) (by
    simp only [List.mem_inits]
    rfl)

section
variable {n : Network} {ref ref' : LoadRef} {p k k' : Nat} {es : List Event} {ms ms' : List Message}

/-! ## Requests are numbered -/

theorem sent_onPeer (n : Network) (q : Nat) {f : Peer → Peer} (p : Nat)
    (hf : ∀ q, q.sent <+: (f q).sent) : (n.peer p).sent <+: ((n.onPeer q f).peer p).sent := by
  rw [peer_onPeer]
  split
  · exact hf _
  · exact List.prefix_refl _

theorem handle_sent {q changed : Peer} {m : Message} (h : q.handle m = some changed) :
    q.sent <+: changed.sent := by
  unfold Peer.handle Peer.queue at h
  split at h
  · split at h
    · cases h
      exact List.prefix_append ..
    · cases h
  · split at h <;> cases h <;> exact List.prefix_refl _

theorem endStream_sent (n : Network) (q p : Nat) :
    (n.peer p).sent <+: ((n.endStream q).peer p).sent := by
  rw [endStream, (quiet_wakeAll ..).sent]
  exact n.sent_onPeer q p fun _ => List.prefix_refl _

theorem accept_sent (n : Network) (q : Nat) (m : Message) (p : Nat) :
    (n.peer p).sent <+: ((n.accept q m).peer p).sent := by
  obtain ⟨notices,h⟩ := n.accept_eq q m
  rw [h]
  cases hh : (n.peer q).handle m with
  | none => exact (n.note notices).endStream_sent q p
  | some changed =>
    rw [(quiet_deliver ..).sent, peer_onPeer]
    split
    · next hq =>
      rw [← hq.1]
      exact handle_sent hh
    · exact List.prefix_refl _

theorem receive_sent (n : Network) (q : Nat) (r : Received) (p : Nat) :
    (n.peer p).sent <+: ((n.receive q r).peer p).sent := by
  unfold receive
  split
  · cases r with
    | failed reason => exact (n.note [.readFailed reason]).endStream_sent q p
    | line line =>
      dsimp only
      split
      · exact accept_sent (n.note [.lineReceived q line]) q _ p
      · exact List.prefix_refl _
  · exact List.prefix_refl _

/-- Nothing that was sent is forgotten. -/
theorem sent_step (hn : n.Orderly) (e : Event) (p : Nat) :
    (n.peer p).sent <+: ((n.step e).peer p).sent := by
  have keep : ∀ {n' : Network}, (n'.peer p).sent = (n.peer p).sent →
      (n.peer p).sent <+: (n'.peer p).sent := fun h => h ▸ List.prefix_refl _
  have managed : ∀ {m}, e.manager? = some m → (n.peer p).sent <+: ((n.step e).peer p).sent := by
    intro m he
    rw [step_sent hn he]
    exact List.prefix_append ..
  cases e with
  | listen c q matcher timeout =>
    simp only [step]
    split
    · exact List.prefix_refl _
    · exact keep ((n.quiet_openExchange ..).sent p)
  | look c => exact keep ((n.quiet_pollExchange _).sent p)
  | hangUp c => exact keep ((n.quiet_closeExchange _).sent p)
  | send q command args =>
    rw [step, n.send_sent q p]
    exact List.prefix_append ..
  | deliver q m => exact keep ((n.quiet_deliver q m).sent p)
  | disconnect q =>
    rw [step, disconnect, (quiet_wakeAll ..).sent]
    exact n.sent_onPeer q p fun _ => List.prefix_refl _
  | receive q r => exact n.receive_sent q r p
  | finishStream q =>
    simp only [step, finishStream]
    split
    · exact n.endStream_sent q p
    · exact List.prefix_refl _
  | failWriting q reason =>
    simp only [step, failWriting]
    split
    · exact n.sent_onPeer q p fun _ => List.prefix_refl _
    · exact List.prefix_refl _
  | prepare q replies => exact n.sent_onPeer q p fun _ => List.prefix_refl _
  | advertise q name value => exact n.sent_onPeer q p fun _ => List.prefix_refl _
  | pass nanos => exact List.prefix_refl _
  | sound => exact keep ((quiet_wakeAll ..).sent p)
  | _ => exact managed rfl

theorem sent_after (hn : n.Orderly) (es : List Event) (p : Nat) :
    (n.peer p).sent <+: ((n.after es).peer p).sent := by
  induction es generalizing n with
  | nil => exact List.prefix_refl _
  | cons e es ih => exact (sent_step hn e p).trans (ih (hn.step e))

theorem requests_append (hn : n.Orderly) (p : Nat) (es es' : List Event) :
    n.requests p es ≤ n.requests p (es ++ es') := by
  have hsent := sent_after (hn.after es) es' p
  rw [requests, requests, sentSince, sentSince, after_append]
  exact ((hsent.drop _).filter _).length_le

theorem request_command (c : TokenConfig) : (request c).command = Reply.extjwt :=
  show Message.upperText Reply.extjwt = Reply.extjwt by decide

/-- Every request has a number of its own. -/
theorem requests_lt (hn : n.Orderly) (hp : p < n.peers.length)
    (hasks : (n.after es).asks? ref = some p) (hc : ((n.after es).peer p).connected = true)
    (later : List Event) : n.requests p es < n.requests p (es ++ .turn ref :: later) := by
  have hsends : (n.after es).sends p (.turn ref) =
      [request ((n.after es).manager ref.manager).config] :=
    if_pos ⟨hasks,by rwa [after_peers_length],hc⟩
  have hsent := step_sent (hn.after es) (e := .turn ref) rfl p
  have hturn : n.requests p (es ++ [.turn ref]) = n.requests p es + 1 := by
    rw [hsends] at hsent
    rw [requests, requests, sentSince, sentSince, after_concat, hsent,
      List.drop_append_of_le_length (sent_after hn es p).length_le, List.filter_append,
      List.length_append]
    simp [request_command]
  have hle := requests_append hn p (es ++ [.turn ref]) later
  rw [List.append_assoc, List.singleton_append] at hle
  omega

theorem Requested.concat (h : n.Requested ref p es k ms) (es' : List Event) :
    n.Requested ref p (es ++ es') k ms := by
  obtain ⟨first,mid,rfl,h⟩ := h
  exact ⟨first,mid ++ es',by simp,h⟩

/-- Who asks later is another load, and its request has a higher number. -/
theorem asks_behind (hn : n.Orderly) (hp : p < n.peers.length)
    (hasks : (n.after es).asks? ref = some p) (hc : ((n.after es).peer p).connected = true)
    {gap : List Event} (hasks' : (n.after (es ++ .turn ref :: gap)).asks? ref' = some p) :
    ref ≠ ref' ∧ n.requests p es < n.requests p (es ++ .turn ref :: gap) := by
  refine ⟨?_,requests_lt hn hp hasks hc gap⟩
  rintro rfl
  rw [after_append, asks?_later (hn.after es) hasks] at hasks'
  cases hasks'

/-- Every load sends one request, and no two loads send the same one. -/
theorem Requested.number_iff (hn : n.Orderly) (hp : p < n.peers.length)
    (h : n.Requested ref p es k ms) (h' : n.Requested ref' p es k' ms') : ref = ref' ↔ k = k' := by
  obtain ⟨first,mid,hes,hasks,hc,rfl,_⟩ := h
  obtain ⟨first',mid',hes',hasks',hc',rfl,_⟩ := h'
  rcases List.append_eq_append_iff.mp (hes.symm.trans hes') with ⟨gap,rfl,hmid⟩ | ⟨gap,rfl,hmid⟩
  · cases gap with
    | nil =>
      cases hmid
      simp
    | cons e gap =>
      cases hmid
      obtain ⟨hne,hlt⟩ := asks_behind hn hp hasks hc hasks'
      exact iff_of_false hne (Nat.ne_of_lt hlt)
  · cases gap with
    | nil =>
      cases hmid
      simp
    | cons e gap =>
      cases hmid
      obtain ⟨hne,hlt⟩ := asks_behind hn hp hasks' hc' hasks
      exact iff_of_false hne.symm (Nat.ne_of_gt hlt)

/-- The request that a token came from was sent. -/
theorem Acquires.requested {peers : List Peer} {configs : List TokenConfig} {e : Event}
    {m id : Nat} {tok : Token} (h : (start peers configs).Acquires es e m p id tok) :
    ∃ k ms ms', (start peers configs).Requested ⟨m,id⟩ p (es ++ [e]) k ms ∧
      (start peers configs).responded p (es ++ [e]) = ms ++ ms' ∧
      Verdict.response (ms'.map Reply.classify) = some (.ok tok.value) := by
  obtain ⟨ms,⟨first,mid,hes,hasks,rfl⟩,hr⟩ := h.source
  let n := start peers configs
  have hn : (n.after first).Orderly := reached_orderly peers configs first
  cases hc : ((n.after first).peer p).connected with
  | false =>
    have hfailed := after_ending (hn.step _) mid (ends_of_disconnected hn hasks hc).2
    have hloaded := h.ends.2
    rw [← after_concat, hes, after_append, after_cons, hfailed] at hloaded
    cases hloaded
  | true =>
    refine ⟨_,_,((n.after first).delivered p (.turn ⟨m,id⟩ :: mid)).filter fun m => ¬ m.Unrelated,
      ⟨first,mid,hes,hasks,hc,rfl,rfl⟩,?_,?_⟩
    · rw [responded, hes, delivered_append, List.filter_append]
      rfl
    · rw [Reply.response_related, hr]

/-- When a request is sent, nothing has been delivered but responses to the requests before it. -/
theorem Requested.heard {answer : Nat → Response} (h : n.Requested ref p es k ms)
    (hanswered : n.Answered p answer es) : ms <+: Response.first answer k := by
  obtain ⟨first,mid,rfl,_,_,rfl,rfl⟩ := h
  exact hanswered first (List.prefix_append ..)

end

/-- Let a server answer every token request with one response, in the order of the requests. Then a
token is what its peer still had to deliver, when the token was requested, of the first response that
was not complete. So the token is the whole payload of the response to its own request if all
requests before that one had been answered completely. Every load sends one request, and no two loads
send the same one. -/
theorem token_of_first_open_response (peers : List Peer) (configs : List TokenConfig)
    (p : Fin peers.length) (answer : Nat → Response) (es : List Event)
    (hanswered : (start peers configs).Answered p answer es) :
    let n := start peers configs
    (∀ before e later m id tok, es = before ++ e :: later → n.Acquires before e m p id tok →
      ∃ k ms, n.Requested ⟨m,id⟩ p es k ms ∧
        (∃ j i, j ≤ k ∧ i < (answer j).messages.length ∧
          ms = Response.first answer j ++ (answer j).messages.take i ∧
          tok.value = (answer j).tail i) ∧
        (ms = Response.first answer k → tok.value = (answer k).payload)) ∧
    ∀ ref ref' k k' ms ms', n.Requested ref p es k ms → n.Requested ref' p es k' ms' →
      (ref = ref' ↔ k = k') := by
  intro n
  refine ⟨?_,fun _ _ _ _ _ _ h h' => h.number_iff (orderly_start peers configs) p.isLt h'⟩
  intro before e later m id tok hes hacquires
  obtain ⟨k,ms,ms',hrequested,hresponded,hr⟩ := hacquires.requested
  have hsplit : es = (before ++ [e]) ++ later := by simp [hes]
  have hrequested' : n.Requested ⟨m,id⟩ p es k ms := hsplit ▸ hrequested.concat later
  have hall : ms ++ ms' <+: Response.first answer (n.requests p (before ++ [e])) :=
    hresponded ▸ hanswered _ (hsplit ▸ List.prefix_append ..)
  have htail : ∀ j i, i < (answer j).messages.length →
      ms = Response.first answer j ++ (answer j).messages.take i →
      tok.value = (answer j).tail i := by
    rintro j i hi rfl
    exact Response.tail_of_response hall hi hr
  obtain ⟨j,i,hj,hi,hms⟩ := Response.split_of_prefix (hrequested'.heard hanswered)
  refine ⟨k,ms,hrequested',⟨j,i,hj,hi,hms,htail j i hi hms⟩,?_⟩
  intro hms'
  exact htail k 0 (Response.messages_ne_nil _) (by simpa using hms')

/-- The second manager asks when the first one has been answered, and both get their own tokens. -/
theorem own_responses_in_turn :
    let n := start [{ name := "irc" }] [{}, {}]
    let answer k := Response.ofPieces "*" ["a"] (if k = 0 then "b" else "c")
    let ask m := [Event.lookup m 0, .turn ⟨m,0⟩]
    let deliver k := (answer k).messages.map (Event.deliver 0)
    let es := ask 0 ++ deliver 0 ++ [.turn ⟨0,0⟩] ++ ask 1 ++ deliver 1 ++ [.turn ⟨1,0⟩]
    n.Answered 0 answer es ∧ n.Acquires (es.take 9) (.turn ⟨1,0⟩) 1 0 0 ⟨"ac",0⟩ ∧
    ∃ k ms, n.Requested ⟨1,0⟩ 0 es k ms ∧ ∃ j i, j ≤ k ∧ "ac" = (answer j).tail i := by
  intro n answer ask deliver es
  have hanswered : n.Answered 0 answer es := by decide +kernel
  have hacquires : n.Acquires (es.take 9) (.turn ⟨1,0⟩) 1 0 0 ⟨"ac",0⟩ :=
    reached_acquires _ _ ⟨0,by decide⟩ (by decide +kernel) (by decide +kernel)
  obtain ⟨k,ms,hrequested,⟨j,i,hj,_,_,hvalue⟩,_⟩ :=
    (token_of_first_open_response _ _ ⟨0,by decide⟩ answer es hanswered).1 _ _ [] 1 0 _ rfl hacquires
  exact ⟨hanswered,hacquires,k,ms,hrequested,j,i,hj,hvalue⟩

/-- Two managers ask one after the other, and both take the response to the first request. -/
theorem response_taken_twice :
    let n := start [{ name := "irc" }] [{}, {}]
    let answer k := Response.ofPieces "*" [] (if k = 0 then "first" else "second")
    let asked := [Event.lookup 0 0, .lookup 1 0, .turn ⟨0,0⟩, .turn ⟨1,0⟩]
    let before := asked ++ (Response.first answer 2).map (.deliver 0)
    n.Answered 0 answer (before ++ [.turn ⟨0,0⟩, .turn ⟨1,0⟩]) ∧
    n.Requested ⟨1,0⟩ 0 asked 1 [] ∧ (answer 1).payload = "second" ∧
    n.Acquires before (.turn ⟨0,0⟩) 0 0 0 ⟨"first",0⟩ ∧
    n.Acquires (before ++ [.turn ⟨0,0⟩]) (.turn ⟨1,0⟩) 1 0 0 ⟨"first",0⟩ := by
  intro n answer asked before
  refine ⟨by decide +kernel,?_,by decide +kernel,?_,?_⟩
  · exact ⟨asked.take 3,[],rfl,by decide +kernel,by decide +kernel,by decide +kernel,
      by decide +kernel⟩
  · exact reached_acquires _ _ ⟨0,by decide⟩ (by decide +kernel) (by decide +kernel)
  · exact reached_acquires _ _ ⟨0,by decide⟩ (by decide +kernel) (by decide +kernel)

/-- A request times out behind the first piece of its response, and the next request takes the rest
for its own response. -/
theorem rest_taken_for_response :
    let n := start [{ name := "irc" }] [{}]
    let answer k := Response.ofPieces "*" ["head"] (if k = 0 then "tail" else "end")
    let late := [Event.lookup 0 0, .turn ⟨0,0⟩, .deliver 0 (.of "EXTJWT" ["*", "*", "*", "head"]),
      .turn ⟨0,0⟩, .pass 10000000000, .sound, .turn ⟨0,0⟩]
    let asked := late ++ [.lookup 0 0, .turn ⟨0,1⟩]
    let before := asked ++ [.deliver 0 (.of "EXTJWT" ["*", "*", "tail"])]
    n.Answered 0 answer (before ++ [.turn ⟨0,1⟩]) ∧
    (n.after late).ending? ⟨0,0⟩ = some (.failed (.timeout (Span.ofSeconds 10))) ∧
    n.Requested ⟨0,1⟩ 0 asked 1 [.of "EXTJWT" ["*", "*", "*", "head"]] ∧
    (answer 0).payload = "headtail" ∧ (answer 1).payload = "headend" ∧
    n.Acquires before (.turn ⟨0,1⟩) 0 0 1 ⟨"tail",10000000000⟩ := by
  intro n answer late asked before
  refine ⟨by decide +kernel,by decide +kernel,?_,by decide +kernel,by decide +kernel,?_⟩
  · exact ⟨asked.take 8,[],rfl,by decide +kernel,by decide +kernel,by decide +kernel,
      by decide +kernel⟩
  · exact reached_acquires _ _ ⟨0,by decide⟩ (by decide +kernel) (by decide +kernel)

end ChatToken.Network
