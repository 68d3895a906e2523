import ChatToken.Proofs.Network.Attention
import ChatToken.Proofs.Stream.Users

/-! # After the end of a stream

When a stream ends, all who listen to its connection are dropped, and their exchanges come to a
result at the next look. A connection over a stream does not drop those who come to listen later, as
one in memory does. Nothing comes in for them any more, so if something can still be sent they wait
until their timers go off.
-/
namespace ChatToken

open Network (Call)

namespace Peer
variable {q q' : Peer} {first : Nat}

theorem Streaming.keepsNew (h : q.Streaming) : q.dropsNew = false := by
  rw [dropsNew, beq_false_of_ne h.link, Bool.false_and]

/-- The connection does not read any more. Whoever listened when `first` was the number of the next
listener is dropped, and nothing waits for those who came later. -/
structure Deaf (first : Nat) (q : Peer) : Prop where
  streaming : q.Streaming
  silent : q.isReading = false
  known : first ≤ q.listeners.nextId
  dropped : ∀ id < first, q.listeners.isRegistered id = false
  empty : ∀ id, first ≤ id → q.listeners.unread id = []

/-- A call with which no message comes in leaves an empty inbox empty. -/
theorem Attends.unread_nil {ls ls' : Listeners} {c : Call} {id : Nat} (h : Attends ls c [] ls')
    (hu : ls.unread id = []) : ls'.unread id = [] := by
  cases h with
  | keeps | clears | removes => exact hu
  | adds =>
    rw [Listeners.unread, Listeners.add, Table.get?_insert]
    split
    · rfl
    · exact hu
  | drains id' =>
    rw [Listeners.unread, Listeners.drain, Table.get?_adjust]
    split
    · cases ls.inboxes.get? id <;> rfl
    · exact hu
  | closes id' =>
    rw [Listeners.unread, Listeners.close, Table.get?_erase]
    split
    · rfl
    · exact hu

theorem Deaf.undergo (h : q.Deaf first) (c : Call) : (q.undergo c).Deaf first := by
  have ha := attends h.streaming.link c
  refine ⟨h.streaming.undergo c,undergo_not_reading h.streaming.plain h.silent c,
    Nat.le_trans h.known ha.nextId_le,?_,?_⟩
  · intro id hid
    by_contra hr
    rcases ha.registered_of (by simpa using hr) with hr | hr
    · rw [h.dropped id hid] at hr
      cases hr
    · exact absurd hid (Nat.not_lt.mpr (Nat.le_trans h.known hr.1))
  · intro id hid
    rw [takes_of_not_reading h.silent] at ha
    exact ha.unread_nil (h.empty id hid)

theorem Deaf.undergoes (h : q.Deaf first) (hu : q.Undergoes q') : q'.Deaf first :=
  hu.keeps h fun _ c hq => hq.undergo c

/-- Nothing waits for those who are still to come when the reading ends. -/
theorem Streaming.deaf (h : q.Streaming) : q.endReading.Deaf q.listeners.nextId where
  streaming := ⟨by simp [endReading],h.plain,by simp [endReading],h.inbox⟩
  silent := rfl
  known := Nat.le_refl _
  dropped id _ := by simp [endReading]
  empty id hid := by
    have hnone : q.listeners.hasInbox id = false := by
      by_contra hb
      exact absurd (h.inbox id (by simpa using hb)) (Nat.not_lt.mpr hid)
    rw [Listeners.hasInbox, Table.contains, Option.isSome_eq_false_iff,
      Option.isNone_iff_eq_none] at hnone
    change (q.listeners.inboxes.get? id).getD [] = []
    rw [hnone]
    rfl

end Peer

namespace Network

section
variable {n : Network} {p first : Nat} {holder : Holder} {x : Exchange Matcher} {ref : LoadRef}

/-! ## The end -/

/-- However a stream ends, that comes out of it, and ends nothing but the reading. -/
theorem peer_of_end (h : n.Streams p) {a : Act} (ht : a.told? ≠ some p)
    (hr : (n.peer p).isReading = true) (he : ((n.act a).peer p).isReading = false) :
    (n.act a).peer p = (n.peer p).endReading ∧ ∃ e, a = .event e ∧ e.holder? = none := by
  by_cases hreceive : ∃ r, a = .event (.receive p r)
  · obtain ⟨r,rfl⟩ := hreceive
    refine ⟨?_,_,rfl,rfl⟩
    have hpeer : (n.act (.event (.receive p r))).peer p = (n.peer p).undergo (.receive r) :=
      call_peer h.there h.streaming (.receive r)
    rw [hpeer] at he ⊢
    have hi := (n.peer p).intake r
    generalize accepted (n.peer p) r = ms, (n.peer p).undergo (.receive r) = q' at hi he ⊢
    cases hi with
    | unanswered | failed => rfl
    | handled line m changed _ _ hh =>
      rw [Peer.handle_eq_some hh] at he
      exact absurd (hr.symm.trans he) (by simp)
    | _ => exact absurd (hr.symm.trans he) (by simp)
  by_cases hfinish : a = .event (.finishStream p)
  · subst hfinish
    refine ⟨?_,_,rfl,rfl⟩
    have hpeer : (n.act (.event (.finishStream p))).peer p = (n.peer p).undergo .finishStream :=
      call_peer h.there h.streaming .finishStream
    rw [hpeer, Peer.undergo, if_pos hr]
  have hu := act_uses h ht (fun r he => hreceive ⟨r,he⟩) hfinish
  rw [Peer.isReading, hu.used.link h.streaming.plain] at he
  exact absurd (hr.symm.trans he) (by simp)

structure Stranded (n : Network) (p first : Nat) : Prop where
  there : p < n.peers.length
  deaf : (n.peer p).Deaf first
  late : ∀ h x, n.exchanges.get? h = some x → x.peer = p → first ≤ x.listener →
    x.listener ∈ n.registered p

theorem stranded_of_end (hn : n.Orderly) (hs : n.Sane) (ho : n.Owned) (h : n.Streams p) {a : Act}
    (ht : a.told? ≠ some p) (hr : (n.peer p).isReading = true)
    (he : ((n.act a).peer p).isReading = false) :
    (n.act a).Stranded p (n.peer p).listeners.nextId := by
  have hpeer := (peer_of_end h ht hr he).1
  have hthere : p < (n.act a).peers.length := n.act_peers_length a ▸ h.there
  refine ⟨hthere,hpeer ▸ h.streaming.deaf,?_⟩
  intro holder x hx hp hl
  have hknown := (ho.act hn hs a).tidy.known holder x hx (hp ▸ hthere)
  rw [hp, hpeer] at hknown
  exact absurd hl (Nat.not_le.mpr hknown)

theorem Stranded.act (hn : n.Orderly) (hs : n.Sane) (ho : n.Owned) (h : n.Stranded p first)
    {a : Act} (ht : a.told? ≠ some p) : (n.act a).Stranded p first := by
  obtain ⟨_,hu⟩ := act_undergoes ⟨h.there,h.deaf.streaming⟩ ht
  have hdeaf := h.deaf.undergoes hu
  refine ⟨n.act_peers_length a ▸ h.there,hdeaf,?_⟩
  intro holder x' hx' hp hl
  subst hp
  rcases exchange_act hn hs ho hx' with ⟨x,hx,hstays,hpeer,hlistener⟩ | ⟨_,hb⟩
  · have hopen : a ≠ .event (.disconnect x.peer) := by
      rintro rfl
      exact ht (congrArg some hpeer.symm)
    have hsilent : (n.peer x.peer).isReading = false := hpeer ▸ h.deaf.silent
    have hr := h.late holder x hx hpeer.symm (hlistener ▸ hl)
    rw [hpeer] at hr ⊢
    rw [hlistener]
    exact still_registered hn hs ho hx hstays hopen (by simp [hsilent]) hr
  · rw [hb.registered, if_pos ⟨rfl,h.there,h.deaf.streaming.keepsNew⟩]
    simp

theorem Stranded.play (hn : n.Orderly) (hs : n.Sane) (ho : n.Owned) (h : n.Stranded p first)
    {as : List Act} (ht : ∀ a ∈ as, a.told? ≠ some p) : (n.play as).Stranded p first := by
  induction as generalizing n with
  | nil => exact h
  | cons a as ih =>
    obtain ⟨ha,has⟩ := List.forall_mem_cons.mp ht
    exact ih (hn.act a) (hs.act hn a) (ho.act hn hs a) (h.act hn hs ho ha) has

/-! ## Looks -/

namespace Stranded

/-- An exchange that was dropped is resolved at the next look. -/
theorem looked_dropped (h : n.Stranded p first) (hp : x.peer = p) (hl : x.listener < first) :
    (n.looked x).result = some ((n.said x).getD (.error .disconnected)) := by
  subst hp
  rw [looked_said, h.deaf.dropped _ hl, if_pos rfl]
  cases n.said x <;> rfl

/-- An exchange that has begun later is resolved by its timer alone. -/
theorem looked_late (h : n.Stranded p first) (hx : n.exchanges.get? holder = some x)
    (hp : x.peer = p) (hl : first ≤ x.listener) :
    (n.looked x).result =
      if (x.arm n.now n.tickets).timedOut n.sounded then some (.error (.timeout x.timeout))
      else none := by
  have hr : (n.peer p).listeners.isRegistered x.listener = true :=
    List.contains_iff_mem.mpr (h.late holder x hx hp hl)
  subst hp
  have hsaid : n.said x = none := by
    rw [said, h.deaf.empty _ hl]
    rfl
  rw [looked_said, hsaid, hr]
  rfl

/-! ## Turns -/

/-- The next turn of a load whose exchange was dropped ends it, with what the messages say that wait
for it. -/
theorem turn_dropped (hn : n.Orderly) (hs : n.Sane) (h : n.Stranded p first)
    (hx : n.exchanges.get? (.load ref) = some x) (hp : x.peer = p) (hl : x.listener < first) :
    n.Ends (.turn ref) ref (Loader.endingOf
      (((n.said x).getD (.error .disconnected)).bind (Token.ofPayload n.now))) := by
  obtain ⟨t,ht,hb,_⟩ := hs.requests ref x hx
  let c := n.called ref
  have hr : (c.looked x).result = some ((n.said x).getD (.error .disconnected)) :=
    h.looked_dropped hp hl
  have hresult := pollRequest_result (n := c) hx
  rw [hr] at hresult
  have hwork : (c.work ref t).1 = .ended
      (((n.said x).getD (.error .disconnected)).bind (Token.ofPayload n.now)) := by
    rw [work, hb, if_pos rfl, inquire]
    generalize c.pollRequest (.load ref) = r at hresult ⊢
    obtain ⟨_ | result,n'⟩ := r <;> cases hresult
    rfl
  have hd := n.deed?_turn ht
  rw [hwork] at hd
  exact ends_of_finish hn hd

end Stranded

/-- What a load gets whose exchange was dropped does not say that it took too long. -/
theorem said_ne_timeout (hm : x.matcher = .extjwt) (t : Span) :
    Loader.endingOf (((n.said x).getD (.error .disconnected)).bind (Token.ofPayload n.now)) ≠
      .failed (.timeout t) := by
  cases hsaid : n.said x with
  | none => simp [Except.bind, Loader.endingOf]
  | some result =>
    cases result with
    | ok payload =>
      change Loader.endingOf (Token.ofPayload n.now payload) ≠ _
      rcases ofPayload_cases n.now payload with ⟨_,ho⟩ | ⟨detail,ho⟩ <;>
        simp [ho, Loader.endingOf]
    | error e =>
      rw [said, hm, verdicts_extjwt, Verdict.behind, Option.map_eq_some_iff] at hsaid
      obtain ⟨result,hresponse,hresult⟩ := hsaid
      cases result with
      | ok payload => cases hresult
      | error e' =>
        cases hresult
        rcases Reply.response_error hresponse with rfl | ⟨detail,rfl⟩ <;>
          simp [Except.bind, Loader.endingOf]

/-- A request without a manager that cannot be sent comes back at once. -/
theorem startRequest_of_disconnected (hc : (n.peer p).connected = false) (c : Nat)
    (service : Option String) (timeout : Span) :
    (n.startRequest c p service timeout).1 =
      some (.error (.sendFailed (n.peer p).sendFailure)) := by
  have hsend := n.openRequest_of_disconnected hc (.caller c) service timeout
  unfold startRequest
  rcases hs : n.openRequest (.caller c) p service timeout with ⟨_ | cause | line,n'⟩ <;>
    rw [hs] at hsend <;> cases hsend
  rfl

/-! ## After the end -/

structure PastEnd (n : Network) (p first : Nat) : Prop where
  link : (n.peer p).link = .stream false
  /-- Whoever listens has begun after the end. -/
  listeners : ∀ id ∈ n.registered p, first ≤ id
  /-- An exchange that was going on at the end is resolved at the next look: by the messages that
  wait for it, or because the connection is gone. -/
  looks : ∀ h x, n.exchanges.get? h = some x → x.peer = p → x.listener < first →
    (n.pollExchange h).1 = some ((n.said x).getD (.error .disconnected))
  /-- The next turn of a load whose exchange was going on at the end ends it, with no timeout. -/
  turns : ∀ ref x, n.exchanges.get? (.load ref) = some x → x.peer = p → x.listener < first →
    ∃ ending, n.Ends (.turn ref) ref ending ∧ ∀ t, ending ≠ .failed (.timeout t)
  /-- If nothing can be sent any more, whoever begins an exchange for a request is told. -/
  unsent : (n.peer p).connected = false →
    (∀ ref, n.asks? ref = some p →
      n.Ends (.turn ref) ref (.failed (.sendFailed "connection closed"))) ∧
    ∀ c service timeout,
      (n.startRequest c p service timeout).1 = some (.error (.sendFailed "connection closed"))
  /-- An exchange that has begun after the end listens, and is resolved by its timer alone. -/
  late : ∀ h x, n.exchanges.get? h = some x → x.peer = p → first ≤ x.listener →
    x.listener ∈ n.registered p ∧ (n.pollExchange h).1 =
      if (x.arm n.now n.tickets).timedOut n.sounded then some (.error (.timeout x.timeout))
      else none

theorem Stranded.pastEnd (hn : n.Orderly) (hs : n.Sane) (h : n.Stranded p first) :
    n.PastEnd p first := by
  have hlink : (n.peer p).link = .stream false := by
    have hsilent := h.deaf.silent
    have hstream := h.deaf.streaming.link
    rw [Peer.isReading] at hsilent
    cases hl : (n.peer p).link with
    | memory => exact absurd hl hstream
    | stream reading => cases reading <;> simp_all
  have hfailure : (n.peer p).sendFailure = "connection closed" := by rw [Peer.sendFailure, hlink]
  refine ⟨hlink,?_,?_,?_,?_,?_⟩
  · intro id hid
    by_contra hlt
    have hr := h.deaf.dropped id (Nat.lt_of_not_le hlt)
    rw [Listeners.isRegistered, Bool.eq_false_iff] at hr
    exact hr (List.contains_iff_mem.mpr hid)
  · intro holder x hx hp hl
    rw [pollExchange_eq hx]
    exact h.looked_dropped hp hl
  · intro ref x hx hp hl
    obtain ⟨_,_,_,hserves⟩ := hs.requests ref x hx
    exact ⟨_,h.turn_dropped hn hs hx hp hl,said_ne_timeout hserves.matcher⟩
  · intro hc
    refine ⟨fun ref hasks => ?_,fun c service timeout => ?_⟩
    · rw [← hfailure]
      exact ends_of_disconnected hn hasks hc
    · rw [← hfailure]
      exact startRequest_of_disconnected hc c service timeout
  · intro holder x hx hp hl
    refine ⟨h.late holder x hx hp hl,?_⟩
    rw [pollExchange_eq hx]
    exact h.looked_late hx hp hl

end

theorem streams_start (addresses : List String) (configs : List TokenConfig)
    (p : Fin addresses.length) : (start (addresses.map Peer.overStream) configs).Streams p := by
  have hpeer : (start (addresses.map Peer.overStream) configs).peer p =
      Peer.overStream addresses[p] := by
    simp [start, peer]
  refine ⟨by simp [start],?_⟩
  rw [hpeer]
  exact ⟨by simp [Peer.overStream],rfl,by simp [Peer.overStream, Listeners.isRegistered],
    by simp [Peer.overStream, Listeners.hasInbox, Table.contains]⟩

/-- When a stream ends, in whatever way, nobody listens to its connection any more, and the loads
that did stand in line. Whatever happens later, those exchanges and loads come to a result at the
next look or turn, and never because of their timers. What begins after the end fails at once if it
has something to send and cannot; otherwise it listens as before the end, and waits for its timer. -/
theorem listeners_after_end (addresses : List String) (configs : List TokenConfig)
    (p : Fin addresses.length) (before : List Act) (a : Act) (later : List Act)
    (ht : ∀ b ∈ before ++ a :: later, b.told? ≠ some (p : Nat)) :
    let n := (start (addresses.map Peer.overStream) configs).play before
    (n.peer p).link = .stream true → ((n.act a).peer p).link = .stream false →
    (n.act a).registered p = [] ∧
    (∀ ref x, n.exchanges.get? (.load ref) = some x → x.peer = p →
      x.listener ∈ n.registered p → ref ∈ (n.act a).ready) ∧
    ((n.act a).play later).PastEnd p (n.peer p).listeners.nextId := by
  intro n hreads hends
  let n₀ := start (addresses.map Peer.overStream) configs
  have hn₀ : n₀.Orderly := orderly_start _ configs
  have hs₀ : n₀.Sane := sane_start _ configs
  have ho₀ : n₀.Owned := owned_start (by simp [Peer.overStream]) configs
  have hn : n.Orderly := hn₀.play before
  have hs : n.Sane := hs₀.play hn₀ before
  have ho : n.Owned := ho₀.play hn₀ hs₀ before
  have ha := ht a (by simp)
  obtain ⟨hstreams,_⟩ := play_undergoes (streams_start addresses configs p)
    fun b hb => ht b (List.mem_append_left _ hb)
  have hr : (n.peer p).isReading = true := by rw [Peer.isReading, hreads]; rfl
  have he : ((n.act a).peer p).isReading = false := by rw [Peer.isReading, hends]; rfl
  obtain ⟨hpeer,e,rfl,hholder⟩ := peer_of_end hstreams ha hr he
  have hnone : (n.act (.event e)).registered p = [] := by
    rw [registered, hpeer]
    rfl
  refine ⟨hnone,?_,?_⟩
  · intro ref x hx hp hl
    rw [← hp] at hl hnone
    have hother : e.holder? ≠ some (.load ref) := by simp [hholder]
    rcases told_or_registered hn hs ho hx hl hother with htold | hstill
    · exact htold
    · change x.listener ∈ (n.act (.event e)).registered x.peer at hstill
      rw [hnone] at hstill
      cases hstill
  · have hstranded := stranded_of_end hn hs ho hstreams ha hr he
    have hplayed := hstranded.play (hn.act _) (hs.act hn _) (ho.act hn hs _)
      fun b hb => ht b (List.mem_append_right _ (List.mem_cons_of_mem _ hb))
    exact hplayed.pastEnd ((hn.act _).play later) ((hs.act hn _).play (hn.act _) later)

/-- A load waits when the stream ends with a line that is too long, and another manager starts one
later. The first one is told at once, the second one listens. -/
theorem first_told_second_late :
    let n := (start (["irc"].map Peer.overStream) [{}, {}]).play
      [.event (.lookup 0 0), .event (.turn ⟨0,0⟩)]
    let ended := n.act (.event (.receive 0 (.failed "max line length exceeded")))
    let l := ended.play [.event (.lookup 1 0), .event (.turn ⟨1,0⟩)]
    ended.registered 0 = [] ∧ ⟨0,0⟩ ∈ ended.ready ∧
    (∃ ending, l.Ends (.turn ⟨0,0⟩) ⟨0,0⟩ ending ∧ ∀ t, ending ≠ .failed (.timeout t)) ∧
    1 ∈ l.registered 0 := by
  intro n ended l
  obtain ⟨hnone,hready,hpast⟩ := listeners_after_end ["irc"] [{}, {}] ⟨0,by decide⟩
    [.event (.lookup 0 0), .event (.turn ⟨0,0⟩)]
    (.event (.receive 0 (.failed "max line length exceeded")))
    [.event (.lookup 1 0), .event (.turn ⟨1,0⟩)] (by decide) (by decide +kernel)
    (by decide +kernel)
  have hfirst : ∃ x, n.exchanges.get? (.load ⟨0,0⟩) = some x ∧ x.peer = 0 ∧
      x.listener ∈ n.registered 0 := by decide +kernel
  have hdropped : ∃ x, l.exchanges.get? (.load ⟨0,0⟩) = some x ∧ x.peer = 0 ∧
      x.listener < (n.peer 0).listeners.nextId := by decide +kernel
  have hlate : ∃ x, l.exchanges.get? (.load ⟨1,0⟩) = some x ∧ x.peer = 0 ∧ x.listener = 1 ∧
      (n.peer 0).listeners.nextId ≤ x.listener := by decide +kernel
  obtain ⟨x,hx,hp,hl⟩ := hfirst
  obtain ⟨x₀,hx₀,hp₀,hl₀⟩ := hdropped
  obtain ⟨x₁,hx₁,hp₁,hid,hl₁⟩ := hlate
  refine ⟨hnone,hready _ x hx hp hl,hpast.turns _ x₀ hx₀ hp₀ hl₀,?_⟩
  rw [← hid]
  exact (hpast.late _ x₁ hx₁ hp₁ hl₁).1

/-- A request over a connection whose stream has ended, but which still takes commands, is listened
for, and ends with a timeout. -/
theorem late_listener_kept :
    let n := (start (["irc"].map Peer.overStream) [{}]).play
      [.event (.receive 0 (.failed "max line length exceeded")), .event (.lookup 0 0),
        .event (.turn ⟨0,0⟩)]
    (n.peer 0).link = .stream false ∧ n.registered 0 = [0] ∧
    (n.play [.event (.pass 10001000000), .event .sound]).Ends (.turn ⟨0,0⟩) ⟨0,0⟩
      (.failed (.timeout (Span.ofSeconds 10))) := by
  decide +kernel

end Network
end ChatToken
