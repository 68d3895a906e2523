import ChatToken.Proofs.Stream.Ended
import ChatToken.Stream.Handshake
import Mathlib.Data.List.TakeWhile

/-! # The outcome of a registration

A caller that registers a connection listens before it asks the server, and gets every message that
comes in until the stream ends. So what it comes to know is decided by the first of them that says
so, whatever else comes in and whenever the caller looks.
-/
namespace ChatToken

open Network (Call Act answers accepted)

namespace Registration

/-! ## Verdicts -/

theorem verdicts_registration (ms : List Message) :
    Exchange.verdicts Matcher.classify .registration ms = ms.map classify := by
  induction ms with
  | nil => rfl
  | cons m ms ih => exact congrArg (classify m :: ·) ih

theorem after_registration (ms : List Message) :
    Exchange.after Matcher.classify .registration ms = .registration := by
  induction ms with
  | nil => rfl
  | cons m ms ih => exact ih

theorem classify_eq (m : Message) : classify m =
    if accepts m then .complete "" else if refuses m then .reject (.protocol m.lastParam)
    else .skip := by
  have ha : isWelcomeEnd m = accepts m := by rw [Bool.eq_iff_iff]; simp [isWelcomeEnd, accepts]
  have hr : isRefusal m = refuses m := by rw [Bool.eq_iff_iff]; simp [isRefusal, refuses]
  rw [classify, ha, hr]

theorem response_classify (ms : List Message) :
    Verdict.response (ms.map classify) = decided? ms := by
  induction ms with
  | nil => rfl
  | cons m ms ih =>
    rw [List.map_cons, classify_eq, decided?, List.find?_cons, decides]
    cases ha : accepts m with
    | true => simp [decision, ha]
    | false =>
      cases hr : refuses m with
      | true => simp [decision, ha]
      | false => simpa [decided?] using ih

theorem pieces_classify (ms : List Message) : Verdict.pieces (ms.map classify) = [] := by
  induction ms with
  | nil => rfl
  | cons m ms ih =>
    rw [List.map_cons, classify_eq]
    split
    · rfl
    · split
      · rfl
      · exact ih

theorem decided?_append (ms ms' : List Message) :
    decided? (ms ++ ms') = (decided? ms).or (decided? ms') := by
  rw [decided?, List.find?_append, Option.map_or]
  rfl

theorem refuses_of_accepts {m : Message} (h : accepts m = true) : refuses m = false := by
  have h : m.command = "376" ∨ m.command = "422" := by simpa [accepts] using h
  rcases h with h | h <;> simp [refuses, h]

theorem decided?_accepts {ms : List Message} : decided? ms = some (.ok "") ↔
    ∃ m, ms.find? decides = some m ∧ accepts m = true := by
  rw [decided?, Option.map_eq_some_iff]
  refine exists_congr fun m => and_congr_right fun _ => ?_
  rw [decision]
  cases accepts m <;> simp

theorem decided?_refuses {ms : List Message} {reason : String} :
    decided? ms = some (.error (.protocol reason)) ↔
      ∃ m, ms.find? decides = some m ∧ refuses m = true ∧ m.lastParam = reason := by
  rw [decided?, Option.map_eq_some_iff]
  refine exists_congr fun m => and_congr_right fun hm => ?_
  have hdecides := List.find?_some hm
  rw [decides, Bool.or_eq_true] at hdecides
  rw [decision]
  cases ha : accepts m with
  | true => simp [refuses_of_accepts ha]
  | false =>
    rw [ha] at hdecides
    simp [show refuses m = true by simpa using hdecides]

end Registration

namespace Peer
variable {q q' : Peer}

theorem Used.capabilities (h : q.Used q') (hp : q.replies = none) :
    q'.capabilities = q.capabilities := by
  obtain ⟨cs,hcs,rfl⟩ := h
  induction cs generalizing q with
  | nil => rfl
  | cons c cs ih =>
    obtain ⟨hc,hcs⟩ := List.forall_mem_cons.mp hcs
    have hf := follows hp c
    have hnone : q.takes c = [] := by cases c <;> first | rfl | cases hc
    have hp' : (q.undergo c).replies = none := by rw [hf.replies, hp]
    refine (ih hp' hcs).trans ?_
    rw [hf.capabilities, hnone]
    rfl

theorem undergo_send (hp : q.replies = none) (hc : q.connected = true) (command : String)
    (args : List String) :
    q.undergo (.send command args) = { q with sent := q.sent ++ [.of command args] } := by
  rw [undergo, send_plain hp, if_pos hc]

end Peer

namespace Network

open Registration

section
variable {n : Network} {p c : Nat} {a : Act} {as : List Act} {timeout : Span} {address : String}

/-! ## What comes in over a stream -/

theorem answers_stream {q : Peer} (hq : q.replies = none) (command : String) (args : List String) :
    answers q command args = [] := by
  rw [answers, Peer.send_plain hq]
  cases q.connected <;> rfl

/-- Nothing comes in over a stream but what comes out of it. -/
theorem conveys_stream (h : n.Streams p) (ht : a.told? ≠ some p)
    (hr : ∀ r, a ≠ .event (.receive p r)) : n.conveys p a = [] := by
  have hq := h.streaming.plain
  cases a with
  | event e =>
    cases e with
    | turn ref =>
      simp only [conveys, delivers, answers_stream hq, ite_self]
    | send q command args => simp only [conveys, delivers, answers_stream hq, ite_self]
    | deliver q m =>
      have hne : q ≠ p := fun hq => ht (congrArg some hq)
      exact if_neg hne
    | receive q r =>
      have hne : q ≠ p := fun hq => hr r (hq ▸ rfl)
      exact if_neg hne
    | _ => rfl
  | request c q service timeout => simp only [conveys, answers_stream hq, ite_self]
  | lookRequest c => rfl

theorem delivers_receive (r : Received) :
    n.conveys p (.event (.receive p r)) = accepted (n.peer p) r := if_pos rfl

/-- Nothing comes in over a stream that has ended. -/
theorem conveys_of_not_reading (h : n.Streams p) (ht : a.told? ≠ some p)
    (hr : (n.peer p).isReading = false) : n.conveys p a = [] := by
  by_cases hreceive : ∃ r, a = .event (.receive p r)
  · obtain ⟨r,rfl⟩ := hreceive
    exact (delivers_receive r).trans (Peer.takes_of_not_reading hr (.receive r))
  · exact conveys_stream h ht fun r ha => hreceive ⟨r,ha⟩

/-- No message comes in with the end of a stream. -/
theorem conveys_of_end (h : n.Streams p) (ht : a.told? ≠ some p)
    (hr : (n.peer p).isReading = true) (he : ((n.act a).peer p).isReading = false) :
    n.conveys p a = [] := by
  by_cases hreceive : ∃ r, a = .event (.receive p r)
  · obtain ⟨r,rfl⟩ := hreceive
    rw [delivers_receive]
    have hpeer : (n.act (.event (.receive p r))).peer p = (n.peer p).undergo (.receive r) :=
      call_peer h.there h.streaming (.receive r)
    rw [hpeer] at he
    have hi := (n.peer p).intake r
    generalize accepted (n.peer p) r = ms, (n.peer p).undergo (.receive r) = q' at hi he
    cases hi with
    | handled line m changed _ _ hh =>
      rw [Peer.handle_eq_some hh] at he
      exact absurd (hr.symm.trans he) (by simp)
    | _ => rfl
  · exact conveys_stream h ht fun r ha => hreceive ⟨r,ha⟩

theorem act_capabilities (h : n.Streams p) (ht : a.told? ≠ some p) :
    ((n.act a).peer p).capabilities =
      (n.conveys p a).foldl Capabilities.note (n.peer p).capabilities := by
  by_cases hreceive : ∃ r, a = .event (.receive p r)
  · obtain ⟨r,rfl⟩ := hreceive
    rw [delivers_receive]
    exact (h.follows (.receive r)).capabilities
  have hr := fun r ha => hreceive ⟨r,ha⟩
  rw [conveys_stream h ht hr]
  by_cases hfinish : a = .event (.finishStream p)
  · subst hfinish
    exact (h.follows .finishStream).capabilities
  · exact (act_uses h ht hr hfinish).used.capabilities h.streaming.plain

/-- What is advertised adds up. -/
theorem play_capabilities (h : n.Streams p) (ht : ∀ a ∈ as, a.told? ≠ some p) :
    ((n.play as).peer p).capabilities =
      (n.conveyed p as).foldl Capabilities.note (n.peer p).capabilities := by
  induction as generalizing n with
  | nil => rfl
  | cons a as ih =>
    obtain ⟨ha,has⟩ := List.forall_mem_cons.mp ht
    rw [play_cons, ih (act_undergoes h ha).1 has, act_capabilities h ha, conveyed,
      List.foldl_append]

/-- A stream that has ended does not go on. -/
theorem not_reading_play (h : n.Streams p) (hr : (n.peer p).isReading = false)
    (ht : ∀ a ∈ as, a.told? ≠ some p) :
    ((n.play as).peer p).isReading = false ∧ n.conveyed p as = [] := by
  induction as generalizing n with
  | nil => exact ⟨hr,rfl⟩
  | cons a as ih =>
    obtain ⟨ha,has⟩ := List.forall_mem_cons.mp ht
    obtain ⟨hs,hu⟩ := act_undergoes h ha
    have hr' : ((n.act a).peer p).isReading = false := by
      have hk := hu.keeps (P := fun q => q.replies = none ∧ q.isReading = false)
        ⟨h.streaming.plain,hr⟩ fun q c hq =>
          ⟨(Peer.follows hq.1 c).replies.trans hq.1,Peer.undergo_not_reading hq.1 hq.2 c⟩
      exact hk.2
    obtain ⟨hrs,hnone⟩ := ih hs hr' has
    exact ⟨hrs,by rw [conveyed, conveys_of_not_reading h ha hr, hnone, List.append_nil]⟩

theorem conveyed_append (n : Network) (p : Nat) (as bs : List Act) :
    n.conveyed p (as ++ bs) = n.conveyed p as ++ (n.play as).conveyed p bs := by
  induction as generalizing n with
  | nil => rfl
  | cons a as ih => rw [List.cons_append, conveyed, ih, conveyed, List.append_assoc, play_cons]

theorem play_append (n : Network) (as bs : List Act) : n.play (as ++ bs) = (n.play as).play bs :=
  List.foldl_append

/-! ## The timer -/

theorem unlooked_of_mem (h : lookOf c ∈ as) (bs : List Act) :
    unlooked c (as ++ bs) = unlooked c as := by
  obtain ⟨first,rest,rfl,hfirst⟩ := List.eq_append_cons_of_mem h
  have hpass : ∀ a ∈ first, decide (a ≠ lookOf c) = true :=
    fun a ha => decide_eq_true (ne_of_mem_of_not_mem ha hfirst)
  rw [unlooked, unlooked, List.append_assoc, List.takeWhile_append_of_pos hpass,
    List.takeWhile_append_of_pos hpass]
  simp [lookOf]

theorem unlooked_of_not_mem (h : lookOf c ∉ as) : unlooked c as = as :=
  List.takeWhile_eq_self_iff.mpr fun _ ha => decide_eq_true (ne_of_mem_of_not_mem ha h)

theorem unlooked_look (c : Nat) (as : List Act) : unlooked c (as ++ [lookOf c]) = unlooked c as := by
  by_cases h : lookOf c ∈ as
  · exact unlooked_of_mem h _
  · rw [unlooked_of_not_mem h, unlooked, List.takeWhile_append_of_pos]
    · simp [lookOf]
    · exact fun a ha => decide_eq_true (ne_of_mem_of_not_mem ha h)

theorem look_sounded (n : Network) (c : Nat) : (n.act (lookOf c)).sounded = n.sounded :=
  (n.act_sounded _).trans (if_neg (by simp [lookOf]))

theorem timedOut_look : n.TimedOut c timeout (as ++ [lookOf c]) ↔
    n.lookDue c timeout as ≤ (n.play as).sounded := by
  have hs : (n.play (as ++ [lookOf c])).sounded = (n.play as).sounded := by
    rw [play_append]
    exact look_sounded ..
  rw [TimedOut, lookDue, unlooked_look, hs]
  simp [lookOf, lookDue]

/-- A timer that has gone off stays so. -/
theorem TimedOut.append (ht : n.Timely) (h : n.TimedOut c timeout as) (bs : List Act) :
    n.TimedOut c timeout (as ++ bs) := by
  refine ⟨List.mem_append_left _ h.1,?_⟩
  rw [lookDue, unlooked_of_mem h.1, play_append]
  exact h.2.trans ((ht.play as).2.play bs).1

/-! ## Waiting for the server -/

/-- How the registration of `p` stands that the caller `c` has opened in `n` and that the acts `as`
have not settled: the messages `old` were read, and `unread` waits. -/
structure Awaits (n : Network) (c p : Nat) (timeout : Span) (as : List Act) (x : Exchange Matcher)
    (old unread : List Message) : Prop where
  exchange : (n.play as).exchanges.get? (.caller c) = some x
  peer : x.peer = p
  matcher : x.matcher = .registration
  limit : x.timeout = timeout
  payload : x.payload = ""
  messages : n.conveyed p as = old ++ unread
  hears : ((n.play as).peer p).Hears x.listener ((n.play as).peer p).isReading unread
  undecided : decided? old = none
  unset : x.timer = none → lookOf c ∉ as
  set : ∀ t, x.timer = some t → lookOf c ∈ as ∧ t.due = n.lookDue c timeout as

structure Opened (n : Network) (p : Nat) : Prop where
  orderly : n.Orderly
  sane : n.Sane
  owned : n.Owned
  timely : n.Timely
  streams : n.Streams p

theorem Opened.act (h : n.Opened p) (ht : a.told? ≠ some p) : (n.act a).Opened p where
  orderly := h.orderly.act a
  sane := h.sane.act h.orderly a
  owned := h.owned.act h.orderly h.sane a
  timely := (h.timely.act a).2
  streams := (act_undergoes h.streams ht).1

theorem Opened.play (h : n.Opened p) (ht : ∀ a ∈ as, a.told? ≠ some p) : (n.play as).Opened p := by
  induction as generalizing n with
  | nil => exact h
  | cons a as ih =>
    obtain ⟨ha,has⟩ := List.forall_mem_cons.mp ht
    exact ih (h.act ha) has

/-- A listener hears what comes in over its stream, until the stream ends. -/
theorem hears_act (h : n.Opened p) (ht : a.told? ≠ some p) {holder : Holder} {x : Exchange Matcher}
    (ha : a.holder? ≠ some holder) (hx : n.exchanges.get? holder = some x) (hp : x.peer = p)
    {unread : List Message} (hh : (n.peer p).Hears x.listener (n.peer p).isReading unread) :
    ((n.act a).peer p).Hears x.listener ((n.act a).peer p).isReading (unread ++ n.conveys p a) := by
  subst hp
  have hc := act_carries h.orderly h.owned.tidy a
  obtain ⟨open',got,hh',hgot,hclosed,hopen⟩ := hc.relays holder x ha hx h.streams.there _ _ hh
  cases hr : (n.peer x.peer).isReading with
  | false =>
    -- nothing is heard behind the end
    have ht' : ∀ b ∈ [a], b.told? ≠ some x.peer := by simpa using ht
    obtain ⟨hr',_⟩ := not_reading_play h.streams hr ht'
    have hr' : ((n.act a).peer x.peer).isReading = false := hr'
    have hopen' : open' = false := by
      by_contra hne
      have := (hopen (by simpa using hne)).1
      rw [hr] at this
      cases this
    rw [conveys_of_not_reading h.streams ht hr, hr', ← hclosed hr, ← hopen']
    exact hh'
  | true =>
    cases hr' : ((n.act a).peer x.peer).isReading with
    | true =>
      have hl : x.listener ∈ n.registered x.peer :=
        List.contains_iff_mem.mp (hh.registered.trans hr)
      have hlink : ((n.act a).peer x.peer).link ≠ .stream false := by
        intro hlink
        rw [Peer.isReading, hlink] at hr'
        cases hr'
      have hstill := still_registered h.orderly h.sane h.owned hx (fun hl => ha hl.holder)
        (fun he => ht (he ▸ rfl)) (fun _ => hlink) hl
      have hopen' : open' = true :=
        hh'.registered.symm.trans (List.contains_iff_mem.mpr hstill)
      rw [← (hopen hopen').2, ← hopen']
      exact hh'
    | false =>
      obtain ⟨hpeer,_⟩ := peer_of_end h.streams ht hr hr'
      rw [conveys_of_end h.streams ht hr hr', List.append_nil, hpeer]
      exact ⟨by simp [Peer.endReading],hh.inbox,hh.known⟩

variable {x : Exchange Matcher} {old unread : List Message}

/-- A registration has no pieces to put together, and its matcher does not change. -/
theorem looked_registration (hm : x.matcher = .registration) :
    (n.looked x).exchange.matcher = .registration ∧ (n.looked x).exchange.payload = x.payload := by
  unfold looked Exchange.look
  dsimp only
  have harm : (x.arm n.now n.tickets).matcher = .registration := hm
  rw [Exchange.poll_exchange, Exchange.read_exchange, harm, after_registration,
    verdicts_registration, pieces_classify]
  exact ⟨rfl,String.append_empty⟩

namespace Awaits

/-- What others do, or comes in, leaves a registration open. -/
theorem other (h : n.Awaits c p timeout as x old unread) (hn : (n.play as).Opened p)
    (ht : a.told? ≠ some p) (ha : a.holder? ≠ some (.caller c)) :
    n.Awaits c p timeout (as ++ [a]) x old (unread ++ (n.play as).conveys p a) := by
  have hc := act_carries hn.orderly hn.owned.tidy a
  have hplay : n.play (as ++ [a]) = (n.play as).act a := play_append ..
  have hlook : a ≠ lookOf c := by
    rintro rfl
    exact ha rfl
  refine ⟨?_,h.peer,h.matcher,h.limit,h.payload,?_,?_,h.undecided,?_,?_⟩
  · rw [hplay]
    exact (hc.exchanges _ ha).trans h.exchange
  · rw [conveyed_append, h.messages, List.append_assoc]
    simp [conveyed]
  · rw [hplay]
    exact hears_act hn ht ha h.exchange h.peer h.hears
  · intro hnone
    simpa [hlook.symm] using h.unset hnone
  · intro t hset
    obtain ⟨hmem,hdue⟩ := h.set t hset
    exact ⟨List.mem_append_left _ hmem,by rw [hdue, lookDue, lookDue, unlooked_of_mem hmem]⟩

/-- The timer is set at the first look. -/
theorem armed (h : n.Awaits c p timeout as x old unread) (ticket : Nat) :
    ∃ t, (x.arm (n.play as).now ticket).timer = some t ∧ t.due = n.lookDue c timeout as := by
  cases hx : x.timer with
  | none =>
    refine ⟨_,rfl,?_⟩
    rw [hx, lookDue, unlooked_of_not_mem (h.unset hx), ← h.limit]
    rfl
  | some t => exact ⟨t,by rw [Exchange.arm, hx]; rfl,(h.set t hx).2⟩

/-- What was read and what waits say together what has come in. -/
theorem said (h : n.Awaits c p timeout as x old unread) :
    (n.play as).said x = decided? (n.conveyed p as) := by
  rw [Network.said, h.peer, h.payload, Verdict.behind_empty, h.hears.unread_eq, h.matcher,
    verdicts_registration, response_classify, h.messages, decided?_append, h.undecided,
    Option.none_or]

theorem result (h : n.Awaits c p timeout as x old unread) :
    ((n.play as).looked x).result = n.lookOutcome c p timeout as := by
  obtain ⟨t,ht,hdue⟩ := h.armed (n.play as).tickets
  have hoff : (x.arm (n.play as).now (n.play as).tickets).timedOut (n.play as).sounded = true ↔
      n.TimedOut c timeout (as ++ [lookOf c]) := by
    rw [timedOut_look, ← hdue, Exchange.timedOut, ht]
    simp [Timer.isOff]
  simp only [lookOutcome, looked_said, h.said, h.peer, h.hears.registered, h.limit, hoff,
    StillReads, Bool.not_eq_true]

/-- A look that settles nothing has read everything. -/
theorem look (h : n.Awaits c p timeout as x old unread) (hp : p < (n.play as).peers.length)
    (hr : ((n.play as).looked x).result = none) :
    n.Awaits c p timeout (as ++ [lookOf c]) ((n.play as).looked x).exchange
      (n.conveyed p as) [] := by
  obtain ⟨hpeer,hlistener,hlimit⟩ := (n.play as).looked_exchange x
  obtain ⟨t,ht,hdue⟩ := h.armed (n.play as).tickets
  have hplay : n.play (as ++ [lookOf c]) = (n.play as).drained (.caller c) x := by
    rw [play_append]
    change ((n.play as).pollExchange (.caller c)).2 = _
    rw [pollExchange_eq h.exchange, hr]
  have hq : ((n.play as).drained (.caller c) x).peer p =
      { (n.play as).peer p with
        listeners := ((n.play as).peer p).listeners.drain x.listener } := by
    rw [drained_peer, if_pos ⟨h.peer,hp⟩, h.peer]
  have hnone : decided? (n.conveyed p as) = none := by
    rw [h.result, lookOutcome] at hr
    cases hd : decided? (n.conveyed p as) with
    | none => rfl
    | some result =>
      rw [hd] at hr
      cases hr
  refine ⟨?_,hpeer.trans h.peer,?_,hlimit.trans h.limit,?_,?_,?_,hnone,?_,?_⟩
  · rw [hplay, drained_exchange h.exchange, if_pos rfl]
  · exact (looked_registration h.matcher).1
  · exact (looked_registration h.matcher).2.trans h.payload
  · rw [conveyed_append, List.append_nil]
    exact List.append_nil _
  · rw [hplay, hq, hlistener]
    exact h.hears.drain
  · intro hunset
    rw [looked_timer, ht] at hunset
    cases hunset
  · intro t' ht'
    rw [looked_timer, ht] at ht'
    cases ht'
    exact ⟨by simp,by rw [hdue, lookDue, lookDue, unlooked_look]⟩

end Awaits

/-! ## Looks -/

theorem settled?_append (n : Network) (c : Nat) (as bs : List Act) :
    n.settled? c (as ++ bs) = (n.settled? c as).or ((n.play as).settled? c bs) := by
  induction as generalizing n with
  | nil => rfl
  | cons a as ih => rw [List.cons_append, settled?, ih, settled?, Option.or_assoc, play_cons]

theorem settled?_look (n : Network) (c : Nat) :
    n.settled? c [lookOf c] = (n.pollExchange (.caller c)).1 := by
  rw [settled?, if_pos rfl, settled?, Option.or_none]

theorem settled?_other (n : Network) (ha : a ≠ lookOf c) : n.settled? c [a] = none := by
  rw [settled?, if_neg ha]
  rfl

/-- What can happen while the caller `c` waits for the registration of `p`: nobody but the server and
its stream tells the connection anything, and the caller does nothing but look. -/
structure Undisturbed (c p : Nat) (as : List Act) : Prop where
  told : ∀ a ∈ as, a.told? ≠ some p
  own : ∀ a ∈ as, a.holder? = some (.caller c) → a = lookOf c

theorem Undisturbed.first {bs : List Act} (h : Undisturbed c p (as ++ bs)) : Undisturbed c p as :=
  ⟨fun a ha => h.told a (List.mem_append_left _ ha),fun a ha => h.own a (List.mem_append_left _ ha)⟩

theorem Undisturbed.rest {bs : List Act} (h : Undisturbed c p (as ++ bs)) : Undisturbed c p bs :=
  ⟨fun a ha => h.told a (List.mem_append_right _ ha),
    fun a ha => h.own a (List.mem_append_right _ ha)⟩

/-- As long as no look has settled it, a registration waits. -/
theorem awaits_play (hn : n.Opened p) (h : n.Awaits c p timeout [] x [] []) (hu : Undisturbed c p as)
    (hr : n.settled? c as = none) : ∃ x' old unread, n.Awaits c p timeout as x' old unread := by
  -- from the last act on, since what a look comes to depends on all acts before it
  induction as using List.reverseRecOn with
  | nil => exact ⟨x,[],[],h⟩
  | append_singleton as a ih =>
    rw [settled?_append, Option.or_eq_none_iff] at hr
    obtain ⟨x',old,unread,h'⟩ := ih hu.first hr.1
    have hplayed := hn.play hu.first.told
    by_cases ha : a.holder? = some (.caller c)
    · obtain rfl := hu.rest.own a (by simp) ha
      have hlook := hr.2
      rw [settled?_look, pollExchange_eq h'.exchange] at hlook
      exact ⟨_,_,_,h'.look hplayed.streams.there hlook⟩
    · exact ⟨x',old,_,h'.other hplayed (hu.rest.told a (by simp)) ha⟩

/-- What a registration comes to at a look, if no look before has settled it. -/
theorem settled?_eq (hn : n.Opened p) (h : n.Awaits c p timeout [] x [] []) (hu : Undisturbed c p as)
    (hr : n.settled? c as = none) :
    n.settled? c (as ++ [lookOf c]) = n.lookOutcome c p timeout as := by
  obtain ⟨x',old,unread,h'⟩ := awaits_play hn h hu hr
  rw [settled?_append, hr, Option.none_or, settled?_look, pollExchange_eq h'.exchange]
  exact h'.result

/-- A registration that is settled was settled by a look. -/
theorem settled?_by_look {result : Except TokenError String} (h : n.settled? c as = some result) :
    ∃ first later, as = first ++ lookOf c :: later ∧ n.settled? c first = none ∧
      n.settled? c (first ++ [lookOf c]) = some result := by
  induction as using List.reverseRecOn with
  | nil => cases h
  | append_singleton as a ih =>
    cases hr : n.settled? c as with
    | some result' =>
      rw [settled?_append, hr] at h
      cases h
      obtain ⟨first,later,rfl,hfirst⟩ := ih hr
      exact ⟨first,later ++ [a],by simp,hfirst⟩
    | none =>
      by_cases ha : a = lookOf c
      · subst ha
        exact ⟨as,[],rfl,hr,h⟩
      · rw [settled?_append, hr, settled?_other _ ha] at h
        cases h

/-- What a registration comes to is told by the last look, or by one before it. -/
theorem settled?_cases (hn : n.Opened p) (h : n.Awaits c p timeout [] x [] [])
    (hu : Undisturbed c p as) : ∃ first rest, as = first ++ rest ∧
      n.settled? c (as ++ [lookOf c]) = n.lookOutcome c p timeout first ∧
      (rest = [] ∨ n.lookOutcome c p timeout first ≠ none ∧ ∃ later, rest = lookOf c :: later) := by
  cases hr : n.settled? c as with
  | none => exact ⟨as,[],by simp,settled?_eq hn h hu hr,.inl rfl⟩
  | some result =>
    obtain ⟨first,later,rfl,hfirst,hlook⟩ := settled?_by_look hr
    have hlook' := (settled?_eq hn h hu.first hfirst).symm.trans hlook
    refine ⟨first,_,rfl,?_,.inr ⟨by simp [hlook'],later,rfl⟩⟩
    rw [settled?_append, hr, hlook']
    rfl

/-! ## What decides -/

theorem decided?_play (n : Network) (p : Nat) (as bs : List Act) :
    decided? (n.conveyed p (as ++ bs)) =
      (decided? (n.conveyed p as)).or (decided? ((n.play as).conveyed p bs)) := by
  rw [conveyed_append, decided?_append]

theorem conveyed_look (n : Network) (p c : Nat) (as : List Act) :
    n.conveyed p (as ++ [lookOf c]) = n.conveyed p as := by
  rw [conveyed_append]
  exact List.append_nil _

theorem stillReads_look (hn : n.Opened p) (ht : ∀ a ∈ as, a.told? ≠ some p)
    (h : n.StillReads p as) : n.StillReads p (as ++ [lookOf c]) := by
  have hs := (hn.play ht).streams
  have hu := act_uses hs (a := lookOf c) (by simp [Act.told?]) (by simp [lookOf])
    (by simp [lookOf])
  have hlink := hu.used.link hs.streaming.plain
  rw [StillReads, play_append]
  change ((n.play as).act (lookOf c) |>.peer p).isReading = true
  rw [Peer.isReading, hlink]
  exact h

theorem StillReads.first (hn : n.Opened p) {bs : List Act}
    (ht : ∀ a ∈ as ++ bs, a.told? ≠ some p) (h : n.StillReads p (as ++ bs)) :
    n.StillReads p as := by
  by_contra hr
  rw [StillReads, Bool.not_eq_true] at hr
  have hs := (hn.play fun a ha => ht a (List.mem_append_left _ ha)).streams
  have hend := (not_reading_play hs hr fun a ha => ht a (List.mem_append_right _ ha)).1
  rw [StillReads, play_append, hend] at h
  cases h

theorem decided?_of_ended (hn : n.Opened p) {bs : List Act}
    (ht : ∀ a ∈ as ++ bs, a.told? ≠ some p) (h : ¬ n.StillReads p as) :
    decided? (n.conveyed p (as ++ bs)) = decided? (n.conveyed p as) := by
  rw [StillReads, Bool.not_eq_true] at h
  have hs := (hn.play fun a ha => ht a (List.mem_append_left _ ha)).streams
  rw [conveyed_append,
    (not_reading_play hs h fun a ha => ht a (List.mem_append_right _ ha)).2, List.append_nil]

section
variable (hn : n.Opened p) (h : n.Awaits c p timeout [] x [] []) (hu : Undisturbed c p as)
include hn h hu

theorem known_of_settled {result : Except TokenError String}
    (hr : n.settled? c (as ++ [lookOf c]) = some result) :
    decided? (n.conveyed p as) = some result ∨ result = .error .disconnected ∨
      result = .error (.timeout timeout) := by
  obtain ⟨first,rest,rfl,hlook,_⟩ := settled?_cases hn h hu
  rw [hlook, lookOutcome] at hr
  cases hd : decided? (n.conveyed p first) with
  | some result' =>
    rw [hd] at hr
    rw [decided?_play, hd]
    exact .inl hr
  | none =>
    rw [hd, Option.none_or] at hr
    split at hr
    · exact .inr (.inl (Option.some.inj hr).symm)
    · split at hr
      · exact .inr (.inr (Option.some.inj hr).symm)
      · cases hr

theorem settled_of_decided (hin : n.DecidedInTime c p timeout as)
    {result : Except TokenError String} (hd : decided? (n.conveyed p as) = some result) :
    n.settled? c (as ++ [lookOf c]) = some result := by
  obtain ⟨first,rest,rfl,hlook,hrest⟩ := settled?_cases hn h hu
  rw [hlook, lookOutcome]
  cases hfirst : decided? (n.conveyed p first) with
  | some result' =>
    rw [decided?_play, hfirst] at hd
    exact hd
  | none =>
    rcases hrest with rfl | ⟨hsome,later,rfl⟩
    · rw [List.append_nil, hfirst] at hd
      cases hd
    · -- the look came before the message that decides, so it told nothing
      have hreads : n.StillReads p first := by
        by_contra hr
        rw [decided?_of_ended hn hu.told hr, hfirst] at hd
        cases hd
      have hearly : ¬ n.TimedOut c timeout (first ++ [lookOf c]) :=
        hin _ later (by simp) (by rw [conveyed_look, hfirst]) (by rw [hd]; simp)
      exact absurd (by simp [lookOutcome, hfirst, hreads, hearly]) hsome

theorem settled_of_end (hd : decided? (n.conveyed p as) = none) (hr : ¬ n.StillReads p as)
    (hin : n.EndedInTime c p timeout as) :
    n.settled? c (as ++ [lookOf c]) = some (.error .disconnected) := by
  obtain ⟨first,rest,rfl,hlook,hrest⟩ := settled?_cases hn h hu
  rw [decided?_play, Option.or_eq_none_iff] at hd
  rw [hlook, lookOutcome, hd.1, Option.none_or]
  by_cases hreads : n.StillReads p first
  · rcases hrest with rfl | ⟨hsome,later,rfl⟩
    · rw [List.append_nil] at hr
      exact absurd hreads hr
    · have hearly : ¬ n.TimedOut c timeout (first ++ [lookOf c]) :=
        hin _ later (by simp) (stillReads_look hn hu.first.told hreads)
      exact absurd (by simp [lookOutcome, hd.1, hreads, hearly]) hsome
  · rw [if_pos hreads]

theorem settled_of_timer (hd : decided? (n.conveyed p as) = none) (hr : n.StillReads p as) :
    n.settled? c (as ++ [lookOf c]) =
      if n.TimedOut c timeout (as ++ [lookOf c]) then some (.error (.timeout timeout))
      else none := by
  obtain ⟨first,rest,rfl,hlook,hrest⟩ := settled?_cases hn h hu
  rw [decided?_play, Option.or_eq_none_iff] at hd
  have hreads := hr.first hn hu.told
  have houtcome : n.lookOutcome c p timeout first =
      if n.TimedOut c timeout (first ++ [lookOf c]) then some (.error (.timeout timeout))
      else none := by
    rw [lookOutcome, hd.1, Option.none_or, if_neg (not_not_intro hreads)]
  rw [hlook, houtcome]
  rcases hrest with rfl | ⟨hsome,later,rfl⟩
  · rw [List.append_nil]
  · have hoff : n.TimedOut c timeout (first ++ [lookOf c]) := by
      by_contra hoff
      exact hsome (houtcome.trans (if_neg hoff))
    have hsplit : first ++ lookOf c :: later ++ [lookOf c] =
        first ++ [lookOf c] ++ (later ++ [lookOf c]) := by simp
    rw [hsplit, if_pos hoff, if_pos (hoff.append hn.timely _)]

end

/-- A ping is answered with the next line that goes out. -/
theorem ping_answered (h : n.Streams p) (hr : (n.peer p).isReading = true)
    (hc : (n.peer p).connected = true) {line : String} {m : Message}
    (hl : Message.parse? line = some m) (hping : m.command = "PING") :
    ((n.receive p (.line line)).peer p).sent = (n.peer p).sent ++ [.of "PONG" m.params] := by
  rw [receive_peer h.there, if_pos hr, Peer.takeIn, hl]
  dsimp only
  cases hh : (n.peer p).handle m with
  | none =>
    have hc' := (((n.peer p).handle_eq_none m).mp hh).2
    rw [hc] at hc'
    cases hc'
  | some changed =>
    rw [Peer.handle_eq_some hh, if_pos hping]
    rfl

theorem registers (hn : n.Opened p) (h : n.Awaits c p timeout [] x [] [])
    (hu : Undisturbed c p as) (hcap : (n.peer p).capabilities = {}) :
    n.Registers c p timeout as where
  look := settled?_eq hn h hu
  accepted hin := by
    rw [← decided?_accepts]
    constructor
    · intro hr
      simpa using known_of_settled hn h hu hr
    · exact settled_of_decided hn h hu hin
  refused hin reason := by
    rw [← decided?_refuses]
    constructor
    · intro hr
      simpa using known_of_settled hn h hu hr
    · exact settled_of_decided hn h hu hin
  ended := settled_of_end hn h hu
  waits := settled_of_timer hn h hu
  capabilities := by
    rw [play_capabilities hn.streams hu.told, hcap]
    rfl
  answered hr hc line m hl hping := by
    rw [play_append]
    exact ping_answered (hn.play hu.told).streams hr hc hl hping

/-! ## The opening -/

theorem send_connected (h : n.Streams p) (hc : (n.peer p).connected = true) (command : String)
    (args : List String) : n.send p command args = (.sent, n.call p (.send command args)) := by
  have hs := Peer.send_plain h.streaming.plain command args
  rw [if_pos hc] at hs
  refine Prod.ext ?_ rfl
  unfold send
  simp only [note_peer, hs]
  rfl

/-- On a connection that takes commands, a registration listens, and then sends its two commands. -/
theorem openRegistration_eq (h : n.Streams p) (hc : (n.peer p).connected = true) (holder : Holder)
    (nick : String) (timeout : Span) : n.openRegistration holder p nick timeout =
      (.sent, (n.openExchange holder p .registration timeout).calls p
        [.send "NICK" [nick], .send "USER" [nick, "0", "*", nick]]) := by
  let listening := n.openExchange holder p .registration timeout
  have hl : listening.Streams p := (uses_openExchange h holder p .registration timeout).streams
  have hc' : (listening.peer p).connected = true := by
    rw [openExchange_peer, if_pos ⟨rfl,h.there⟩]
    exact hc
  have hnick := send_connected hl hc' "NICK" [nick]
  have hsent : ((listening.call p (.send "NICK" [nick])).peer p).connected = true :=
    (hl.follows _).connected.mpr ⟨hc',by simp⟩
  rw [openRegistration, hnick]
  exact send_connected (hl.call _) hsent "USER" _

/-- A registration is opened in three acts. -/
theorem openRegistration_play (h : n.Streams p) (hc : (n.peer p).connected = true)
    (hno : n.exchanges.get? (.caller c) = none) (nick : String) (timeout : Span) :
    (n.openRegistration (.caller c) p nick timeout).2 =
      n.play [.event (.listen c p .registration timeout), .event (.send p "NICK" [nick]),
        .event (.send p "USER" [nick, "0", "*", nick])] := by
  have hcontains : n.exchanges.contains (.caller c) = false := by
    rw [Table.contains, hno]
    rfl
  rw [openRegistration_eq h hc]
  simp only [play_cons, play_nil, act, step, hcontains, Bool.false_eq_true, if_false]
  rfl

theorem openRegistration_peer (h : n.Streams p) (hq : n.peer p = Peer.overStream address)
    (holder : Holder) (nick : String) (timeout : Span) :
    (n.openRegistration holder p nick timeout).2.peer p =
      { (Peer.overStream address).subscribe.2 with
        sent := [.of "NICK" [nick], .of "USER" [nick, "0", "*", nick]] } := by
  have hl := (uses_openExchange h holder p .registration timeout).streams
  have hpeer : (n.openExchange holder p .registration timeout).peer p =
      (Peer.overStream address).subscribe.2 := by
    rw [openExchange_peer, if_pos ⟨rfl,h.there⟩, hq]
  rw [openRegistration_eq h (by rw [hq]; rfl)]
  change (((n.openExchange holder p .registration timeout).call p (.send "NICK" [nick])).call p
    (.send "USER" [nick, "0", "*", nick])).peer p = _
  rw [call_peer (hl.call _).there (hl.call _).streaming, call_peer hl.there hl.streaming, hpeer,
    Peer.undergo_send rfl rfl, Peer.undergo_send rfl rfl]
  rfl

theorem openRegistration_exchange (h : n.Streams p) (hc : (n.peer p).connected = true)
    (holder : Holder) (nick : String) (timeout : Span) :
    (n.openRegistration holder p nick timeout).2.exchanges.get? holder =
      some (Exchange.listen (n.peer p) p .registration timeout n.now).1 := by
  rw [openRegistration_eq h hc]
  change (((n.openExchange holder p .registration timeout).send p "NICK" [nick]).2.send p "USER"
    [nick, "0", "*", nick]).2.exchanges.get? holder = _
  rw [send_exchanges, send_exchanges, openExchange_exchange, if_pos rfl]

theorem awaits_openRegistration (h : n.Streams p) (hq : n.peer p = Peer.overStream address)
    (nick : String) (timeout : Span) :
    (n.openRegistration (.caller c) p nick timeout).2.Awaits c p timeout []
      (Exchange.listen (n.peer p) p .registration timeout n.now).1 [] [] where
  exchange := openRegistration_exchange h (by rw [hq]; rfl) ..
  peer := rfl
  matcher := rfl
  limit := rfl
  payload := rfl
  messages := rfl
  hears := by
    rw [play_nil, openRegistration_peer h hq, hq]
    exact (Peer.hears_subscribe (Peer.overStream address)).congr rfl
  undecided := rfl
  unset _ := List.not_mem_nil
  set t ht := by cases ht

/-! ## Registrations -/

/-- A new connection over a stream is a new connection. -/
theorem regular_connect {peers : List Peer} (hfresh : ∀ q ∈ peers, q.listeners = {})
    (configs : List TokenConfig) (address : String) :
    ((start peers configs).connect address).Regular := by
  have hall : ∀ q ∈ peers ++ [Peer.overStream address], q.listeners = {} := by
    intro q hq
    rcases List.mem_append.mp hq with hq | hq
    · exact hfresh q hq
    · rw [List.mem_singleton.mp hq]
      rfl
  exact (regular_start hall configs).inner ⟨rfl,rfl,rfl,rfl⟩ rfl ⟨rfl,rfl⟩

/-- New connections, the last of which goes over a stream. -/
theorem opened_connect {peers : List Peer} (hfresh : ∀ q ∈ peers, q.listeners = {})
    (configs : List TokenConfig) (address : String) :
    ((start peers configs).connect address).Opened peers.length := by
  have h := regular_connect hfresh configs address
  exact ⟨h.orderly,h.sane,h.owned,timely_start peers configs,
    ((start peers configs).streams_connect address).2⟩

/-- A registration listens before it sends its two commands. The first message that decides says what
it comes to, if it comes before the timer has gone off; if no message decides, the end of the stream
or the timer does. No other message matters, but pings are answered meanwhile, and everything that is
advertised before the server accepts the connection is known then. -/
theorem registration_outcome {peers : List Peer} (hfresh : ∀ q ∈ peers, q.listeners = {})
    (configs : List TokenConfig) (address nick : String) (timeout : Span) (c : Nat)
    (before as : List Act) :
    let p := peers.length
    let n := ((start peers configs).connect address).play before
    let opening := n.openRegistration (.caller c) p nick timeout
    -- nobody has used the connection, and the caller has no other exchange
    (∀ a ∈ before, a.told? ≠ some p) → n.peer p = Peer.overStream address →
    n.exchanges.get? (.caller c) = none →
    Undisturbed c p as →
    opening.1 = .sent ∧
    (opening.2.peer p).sent = [.of "NICK" [nick], .of "USER" [nick, "0", "*", nick]] ∧
    opening.2.Registers c p timeout as := by
  intro p n opening hbefore hq hno hu
  have hn : n.Opened p := (opened_connect hfresh configs address).play hbefore
  have hc : (n.peer p).connected = true := by
    rw [hq]
    rfl
  have hpeer := openRegistration_peer hn.streams hq (.caller c) nick timeout
  refine ⟨?_,?_,?_⟩
  · exact congrArg Prod.fst (openRegistration_eq hn.streams hc (.caller c) nick timeout)
  · rw [hpeer]
  · have hopened : opening.2.Opened p := by
      change (n.openRegistration (.caller c) p nick timeout).2.Opened p
      rw [openRegistration_play hn.streams hc hno]
      exact hn.play (by simp [Act.told?])
    refine registers hopened (awaits_openRegistration hn.streams hq nick timeout) hu ?_
    rw [hpeer]
    rfl

/-- A server that pings and advertises before the end of its welcome. -/
theorem accepted_after_welcome :
    let as : List Act := [lookOf 0, .event (.receive 0 (.line ":s 001 al :Welcome")),
      .event (.receive 0 (.line "PING :x")),
      .event (.receive 0 (.line ":s 005 al EXTJWT=1 :are supported")),
      .event (.pass 29000000000), .event .sound, .event (.receive 0 (.line ":s 422 al :No MOTD"))]
    let opening := ((start [] []).connect "irc").openRegistration (.caller 0) 0 "al"
      (Span.ofSeconds 30)
    opening.2.settled? 0 (as ++ [lookOf 0]) = some (.ok "") ∧
    ((opening.2.play as).peer 0).capability? "ExtJwt" = some "1" ∧
    ((opening.2.play as).peer 0).sent.map Message.text =
      ["NICK al", "USER al 0 * al", "PONG x"] := by
  intro as opening
  have hfresh : ∀ q ∈ ([] : List Peer), q.listeners = {} := by simp
  obtain ⟨_,_,h⟩ := registration_outcome hfresh [] "irc" "al" (Span.ofSeconds 30) 0 [] as
    (by simp) rfl rfl ⟨by decide,by decide⟩
  have hearly : ¬ opening.2.TimedOut 0 (Span.ofSeconds 30) as := by decide +kernel
  have htimely : opening.2.sounded ≤ Clock.tick opening.2.now := by decide +kernel
  have hin : opening.2.DecidedInTime 0 0 (Span.ofSeconds 30) as := by
    intro first rest has _ _ hoff
    exact hearly (has ▸ hoff.append htimely rest)
  exact ⟨(h.accepted hin).mpr ⟨⟨some "s","422",["al", "No MOTD"]⟩,by decide +kernel,rfl⟩,
    by decide +kernel,by decide +kernel⟩

end

end Network

end ChatToken
