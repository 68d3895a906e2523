import ChatToken.Proofs.Network.Queue

/-! # Networks that look alike from one connection

What happens over a connection is decided by the connection, the exchange it happens for and the
clock. So the same event comes to the same in two networks that agree in these, whatever else they
hold. The tickets of timers count all timers of a network, and make no difference to when a timer
goes off.
-/
namespace ChatToken

namespace Exchange

variable {μ : Type} {classify : μ → Message → Verdict × μ}

def unnumbered (x : Exchange μ) : Exchange μ :=
  { x with timer := x.timer.map fun t => { t with ticket := 0 } }

theorem peer_of_unnumbered {x x' : Exchange μ} (h : x'.unnumbered = x.unnumbered) :
    x'.peer = x.peer ∧ x'.listener = x.listener := by
  have hp := congrArg Exchange.peer h
  have hl := congrArg Exchange.listener h
  exact ⟨hp,hl⟩

theorem timedOut_unnumbered (x : Exchange μ) (sounded : Nat) :
    x.unnumbered.timedOut sounded = x.timedOut sounded := by
  unfold timedOut unnumbered
  cases x.timer <;> rfl

theorem arm_unnumbered (x : Exchange μ) (now ticket : Nat) :
    (x.arm now ticket).unnumbered = (x.unnumbered.arm now 0).unnumbered := by
  unfold arm unnumbered
  cases x.timer <;> rfl

theorem poll_result_unnumbered (x : Exchange μ) (now sounded ticket : Nat) (open_ : Bool)
    (ms : List Message) : (x.poll classify now sounded ticket open_ ms).result =
      (x.unnumbered.poll classify now sounded 0 open_ ms).result := by
  rw [poll_result, poll_result, ← timedOut_unnumbered (x.arm now ticket), arm_unnumbered,
    timedOut_unnumbered]
  rfl

theorem poll_exchange_unnumbered (x : Exchange μ) (now sounded ticket : Nat) (open_ : Bool)
    (ms : List Message) : (x.poll classify now sounded ticket open_ ms).exchange.unnumbered =
      (x.unnumbered.poll classify now sounded 0 open_ ms).exchange.unnumbered := by
  have ht := congrArg timer (arm_unnumbered x now ticket)
  rw [poll_exchange, poll_exchange, read_exchange, read_exchange]
  unfold unnumbered at ht ⊢
  dsimp only at ht ⊢
  rw [ht]
  rfl

end Exchange

namespace Network

def held (n : Network) (h : Holder) : Option (Exchange Matcher) :=
  (n.exchanges.get? h).map Exchange.unnumbered

def GoesOver (n : Network) (p : Nat) (h : Holder) : Prop :=
  ∀ x, n.exchanges.get? h = some x → x.peer = p

/-- The connection `p` and the clock are the same in `n` and `n'`. -/
structure Alike (p : Nat) (n n' : Network) : Prop where
  now : n'.now = n.now
  sounded : n'.sounded = n.sounded
  length : n'.peers.length = n.peers.length
  peer : n'.peer p = n.peer p

variable {n n' n₁ n₁' : Network} {p : Nat} {h h' : Holder}

/-- Only the death of a task has to do with anything but its manager. -/
theorem inner_record (n : Network) (ref : LoadRef) (p : Nat) {w : Turn} (hw : w ≠ .died) :
    Inner n (n.record ref p w) := by
  cases w with
  | withheld =>
    rw [record]
    exact (n.inner_note [.requestWithheld p]).trans (inner_finishLoad _ ref _)
  | waits => exact .refl n
  | ended result => exact n.inner_concludeLoad ref p result
  | died => exact absurd rfl hw

namespace Alike

/-- What changes neither connections nor the clock. -/
theorem inner (ha : Alike p n n') (hi : Inner n n₁) (hs : n₁.sounded = n.sounded)
    (hi' : Inner n' n₁') (hs' : n₁'.sounded = n'.sounded) : Alike p n₁ n₁' where
  now := by rw [hi'.now, hi.now, ha.now]
  sounded := by rw [hs', hs, ha.sounded]
  length := by rw [hi'.peers, hi.peers, ha.length]
  peer := by rw [hi'.peer, hi.peer, ha.peer]

theorem note (ha : Alike p n n') (notices notices' : List Notice) :
    Alike p (n.note notices) (n'.note notices') :=
  ha.inner (n.inner_note notices) rfl (n'.inner_note notices') rfl

theorem wakeAll (ha : Alike p n n') (refs refs' : List LoadRef) :
    Alike p (n.wakeAll refs) (n'.wakeAll refs') :=
  ha.inner (n.inner_wakeAll refs) (n.calm_wakeAll refs).sounded (n'.inner_wakeAll refs')
    (n'.calm_wakeAll refs').sounded

theorem onPeer (ha : Alike p n n') {f f' : Peer → Peer} (hf : f' (n.peer p) = f (n.peer p)) :
    Alike p (n.onPeer p f) (n'.onPeer p f') where
  now := ha.now
  sounded := ha.sounded
  length := by
    rw [(n'.outer_onPeer p f').length, (n.outer_onPeer p f).length, ha.length]
  peer := by rw [peer_onPeer, peer_onPeer, ha.length, ha.peer, hf]

theorem deliver (ha : Alike p n n') (m : Message) : Alike p (n.deliver p m) (n'.deliver p m) :=
  (ha.onPeer rfl).wakeAll ..

theorem deliverLines (ha : Alike p n n') (lines : List String) :
    (n'.deliverLines p lines).1 = (n.deliverLines p lines).1 ∧
    Alike p (n.deliverLines p lines).2 (n'.deliverLines p lines).2 := by
  induction lines generalizing n n' with
  | nil => exact ⟨rfl,ha⟩
  | cons line lines ih =>
    unfold Network.deliverLines
    cases Message.parse? line with
    | none => exact ⟨rfl,ha⟩
    | some m => exact ih (ha.deliver m)

/-- The same is sent, and the same is answered. -/
theorem send (ha : Alike p n n') (command : String) (args : List String) :
    (n'.send p command args).1 = (n.send p command args).1 ∧
    Alike p (n.send p command args).2 (n'.send p command args).2 := by
  have hh : Alike p (n.handed p command args) (n'.handed p command args) :=
    (ha.note _ _).onPeer (by rw [ha.peer])
  unfold Network.send
  dsimp only
  rw [note_peer, note_peer, ha.peer]
  unfold handed at hh
  rw [ha.peer] at hh
  generalize (n.peer p).send command args = r at hh ⊢
  obtain ⟨_ | lines,changed⟩ := r
  · exact ⟨rfl,hh⟩
  · obtain ⟨hr,hd⟩ := hh.deliverLines lines
    dsimp only at hr hd ⊢
    generalize Network.deliverLines _ p lines = r' at hr hd ⊢
    generalize Network.deliverLines _ p lines = r at hr hd ⊢
    obtain ⟨l,m⟩ := r
    obtain ⟨l',m'⟩ := r'
    obtain rfl : l' = l := hr
    cases l' <;> exact ⟨rfl,hd⟩

theorem receive (ha : Alike p n n') (r : Received) : Alike p (n.receive p r) (n'.receive p r) := by
  have hend : ∀ {m m' : Network}, Alike p m m' → Alike p (m.endStream p) (m'.endStream p) :=
    fun h => ((h.onPeer rfl).note _ _).wakeAll ..
  unfold Network.receive
  rw [ha.peer]
  split
  · cases r with
    | failed reason => exact hend (ha.note _ _)
    | line line =>
      dsimp only
      cases Message.parse? line with
      | none => exact ha.note _ _
      | some m =>
        have hnoted := ha.note [.lineReceived p line] [.lineReceived p line]
        obtain ⟨notices,h⟩ := (n.note [.lineReceived p line]).accept_eq p m
        obtain ⟨notices',h'⟩ := (n'.note [.lineReceived p line]).accept_eq p m
        dsimp only
        rw [h, h', hnoted.peer]
        cases ((n.note [.lineReceived p line]).peer p).handle m with
        | none => exact hend (hnoted.note _ _)
        | some changed => exact ((hnoted.note _ _).onPeer rfl).deliver m
  · exact ha

theorem disconnect (ha : Alike p n n') : Alike p (n.disconnect p) (n'.disconnect p) :=
  (ha.onPeer rfl).wakeAll _ _

theorem finishStream (ha : Alike p n n') : Alike p (n.finishStream p) (n'.finishStream p) := by
  simp only [Network.finishStream, ha.peer]
  split
  · exact ((ha.onPeer rfl).note _ _).wakeAll _ _
  · exact ha

theorem failWriting (ha : Alike p n n') (reason : String) :
    Alike p (n.failWriting p reason) (n'.failWriting p reason) := by
  simp only [Network.failWriting, ha.peer]
  split
  · exact (ha.onPeer rfl).note _ _
  · exact ha

theorem soundTimers (ha : Alike p n n') : Alike p n.soundTimers n'.soundTimers := by
  have hsounded : Alike p { n with sounded := Clock.tick n.now }
      { n' with sounded := Clock.tick n'.now } :=
    ⟨ha.now,congrArg Clock.tick ha.now,ha.length,ha.peer⟩
  exact hsounded.wakeAll _ _

theorem openExchange (ha : Alike p n n') (h h' : Holder) (matcher : Matcher) (timeout : Span) :
    Alike p (n.openExchange h p matcher timeout) (n'.openExchange h' p matcher timeout) ∧
    (n'.openExchange h' p matcher timeout).held h' = (n.openExchange h p matcher timeout).held h ∧
    (n.openExchange h p matcher timeout).GoesOver p h := by
  refine ⟨⟨ha.now,ha.sounded,?_,?_⟩,?_,?_⟩
  · rw [openExchange_length, openExchange_length, ha.length]
  · rw [openExchange_peer, openExchange_peer, ha.length, ha.peer]
  · rw [held, held, openExchange_exchange, openExchange_exchange, if_pos rfl, if_pos rfl, ha.peer,
      ha.now]
  · intro x hx
    rw [openExchange_exchange, if_pos rfl] at hx
    cases hx
    rfl

/-- An exchange over `p`, and the one that takes its place. -/
theorem exchange (hh : n'.held h' = n.held h) {x : Exchange Matcher}
    (hx : n.exchanges.get? h = some x) :
    ∃ x', n'.exchanges.get? h' = some x' ∧ x'.unnumbered = x.unnumbered := by
  rw [held, held, hx, Option.map_some, Option.map_eq_some_iff] at hh
  exact hh

theorem no_exchange (hh : n'.held h' = n.held h) (hx : n.exchanges.get? h = none) :
    n'.exchanges.get? h' = none := by
  rw [held, held, hx, Option.map_none, Option.map_eq_none_iff] at hh
  exact hh

theorem goesOver_closeExchange (n : Network) (p : Nat) (h : Holder) :
    (n.closeExchange h).GoesOver p h := by
  intro x hx
  rw [closeExchange_exchange, if_pos rfl] at hx
  cases hx

theorem closeExchange (ha : Alike p n n') (hh : n'.held h' = n.held h) (ho : n.GoesOver p h) :
    Alike p (n.closeExchange h) (n'.closeExchange h') ∧
    (n'.closeExchange h').held h' = (n.closeExchange h).held h := by
  have hheld : (n'.closeExchange h').held h' = (n.closeExchange h).held h := by
    rw [held, held, closeExchange_exchange, closeExchange_exchange, if_pos rfl, if_pos rfl]
  refine ⟨?_,hheld⟩
  cases hx : n.exchanges.get? h with
  | none => rwa [closeExchange_of_none hx, closeExchange_of_none (no_exchange hh hx)]
  | some x =>
    obtain ⟨x',hx',he⟩ := exchange hh hx
    obtain ⟨hp,hl⟩ := Exchange.peer_of_unnumbered he
    refine ⟨?_,?_,?_,?_⟩
    · rw [(n'.quiet_closeExchange h').now, (n.quiet_closeExchange h).now, ha.now]
    · rw [(n'.still_closeExchange h').sounded, (n.still_closeExchange h).sounded, ha.sounded]
    · rw [(n'.quiet_closeExchange h').length, (n.quiet_closeExchange h).length, ha.length]
    · rw [closeExchange_peer hx, closeExchange_peer hx', hp, hl, ho x hx, ha.length, ha.peer]

theorem goesOver_drained {x : Exchange Matcher} (hx : n.exchanges.get? h = some x) (hp : x.peer = p) :
    (n.drained h x).GoesOver p h := by
  intro y hy
  rw [drained_exchange hx, if_pos rfl] at hy
  cases hy
  rw [(n.looked_exchange x).1, hp]

theorem looked (ha : Alike p n n') {x x' : Exchange Matcher} (hx : x'.unnumbered = x.unnumbered)
    (hp : x.peer = p) : (n'.looked x').result = (n.looked x).result ∧
    (n'.looked x').exchange.unnumbered = (n.looked x).exchange.unnumbered := by
  obtain ⟨hp',hl⟩ := Exchange.peer_of_unnumbered hx
  unfold Network.looked Exchange.look
  dsimp only
  rw [hp', hl, hp, ha.peer, ha.now, ha.sounded]
  constructor
  · rw [Exchange.poll_result_unnumbered, hx, ← Exchange.poll_result_unnumbered]
  · rw [Exchange.poll_exchange_unnumbered, hx, ← Exchange.poll_exchange_unnumbered]

theorem pollExchange (ha : Alike p n n') (hh : n'.held h' = n.held h) (ho : n.GoesOver p h) :
    (n'.pollExchange h').1 = (n.pollExchange h).1 ∧
    Alike p (n.pollExchange h).2 (n'.pollExchange h').2 ∧
    (n'.pollExchange h').2.held h' = (n.pollExchange h).2.held h ∧
    (n.pollExchange h).2.GoesOver p h := by
  cases hx : n.exchanges.get? h with
  | none =>
    unfold Network.pollExchange
    rw [hx, no_exchange hh hx]
    exact ⟨rfl,ha,hh,ho⟩
  | some x =>
    obtain ⟨x',hx',he⟩ := exchange hh hx
    have hp := ho x hx
    obtain ⟨hp',hl⟩ := Exchange.peer_of_unnumbered he
    obtain ⟨hr,hex⟩ := ha.looked he hp
    have hd : Alike p (n.drained h x) (n'.drained h' x') := by
      refine ⟨ha.now,ha.sounded,?_,?_⟩
      · exact (List.length_modify ..).trans (ha.length.trans (List.length_modify ..).symm)
      · rw [drained_peer, drained_peer, hp', hl, hp, ha.length, ha.peer]
    have hheld : (n'.drained h' x').held h' = (n.drained h x).held h := by
      rw [held, held, drained_exchange hx, drained_exchange hx', if_pos rfl, if_pos rfl,
        Option.map_some, Option.map_some, hex]
    have hover := goesOver_drained hx hp
    rw [pollExchange_eq hx, pollExchange_eq hx', hr]
    refine ⟨rfl,?_⟩
    cases (n.looked x).result with
    | none => exact ⟨hd,hheld,hover⟩
    | some result =>
      obtain ⟨hclosed,hheld'⟩ :=
        (hd.note (resultNotices result) (resultNotices result)).closeExchange hheld hover
      exact ⟨hclosed,hheld',goesOver_closeExchange _ p h⟩

theorem pollRequest (ha : Alike p n n') (hh : n'.held h' = n.held h) (ho : n.GoesOver p h) :
    (n'.pollRequest h').1 = (n.pollRequest h).1 ∧
    Alike p (n.pollRequest h).2 (n'.pollRequest h').2 ∧
    (n'.pollRequest h').2.held h' = (n.pollRequest h).2.held h ∧
    (n.pollRequest h).2.GoesOver p h := by
  obtain ⟨hr,ha',hh',ho'⟩ := ha.pollExchange hh ho
  unfold Network.pollRequest
  generalize n'.pollExchange h' = r' at hr ha' hh' ⊢
  generalize n.pollExchange h = r at hr ha' hh' ho' ⊢
  obtain ⟨a,m⟩ := r
  obtain ⟨a',m'⟩ := r'
  obtain rfl : a' = a := hr
  cases a' with
  | none => exact ⟨rfl,ha',hh',ho'⟩
  | some result =>
    have hnow : m'.now = m.now := ha'.now
    dsimp only
    rw [hnow]
    exact ⟨rfl,ha'.note _ _,hh',ho'⟩

theorem failRequest (ha : Alike p n n') (hh : n'.held h' = n.held h) (ho : n.GoesOver p h)
    (cause : String) :
    Alike p (n.failRequest h cause).2 (n'.failRequest h' cause).2 ∧
    (n'.failRequest h' cause).2.held h' = (n.failRequest h cause).2.held h ∧
    (n.failRequest h cause).2.GoesOver p h := by
  have hnoted := ha.note
    [.requestEnded (statusOf (.error (.sendFailed cause))) (Clock.tick (n.now - n.now))]
    [.requestEnded (statusOf (.error (.sendFailed cause))) (Clock.tick (n'.now - n'.now))]
  obtain ⟨hf,hh'⟩ := hnoted.closeExchange hh ho
  exact ⟨hf,hh',goesOver_closeExchange _ p h⟩

/-! ## Turns -/

variable {ref ref' : LoadRef} {t : LoadTask Nat Token TokenError}

theorem inquire (ha : Alike p n n') (hh : n'.held (.load ref') = n.held (.load ref))
    (ho : n.GoesOver p (.load ref)) :
    (n'.inquire ref').1 = (n.inquire ref).1 ∧
    Alike p (n.inquire ref).2 (n'.inquire ref').2 ∧
    (n'.inquire ref').2.held (.load ref') = (n.inquire ref).2.held (.load ref) ∧
    (n.inquire ref).2.GoesOver p (.load ref) := by
  obtain ⟨hr,ha',hh',ho'⟩ := ha.pollRequest hh ho
  unfold Network.inquire
  generalize n'.pollRequest (.load ref') = r' at hr ha' hh' ⊢
  generalize n.pollRequest (.load ref) = r at hr ha' hh' ho' ⊢
  obtain ⟨a,m⟩ := r
  obtain ⟨a',m'⟩ := r'
  obtain rfl : a' = a := hr
  cases a' <;> exact ⟨rfl,ha',hh',ho'⟩

/-- A request over `p`, that of a load with the same configuration. -/
theorem ask (ha : Alike p n n')
    (hc : (n'.manager ref'.manager).config = (n.manager ref.manager).config) :
    (n'.ask ref' p).1 = (n.ask ref p).1 ∧
    Alike p (n.ask ref p).2 (n'.ask ref' p).2 ∧
    (n'.ask ref' p).2.held (.load ref') = (n.ask ref p).2.held (.load ref) ∧
    (n.ask ref p).2.GoesOver p (.load ref) := by
  have harrive : Alike p (n.arrive ref p).2 (n'.arrive ref' p).2 :=
    ha.inner (n.inner_arrive ref p) (n.still_arrive ref p).sounded (n'.inner_arrive ref' p)
      (n'.still_arrive ref' p).sounded
  obtain ⟨hopen,hh,ho⟩ := harrive.openExchange (.load ref) (.load ref') .extjwt
    (n.manager ref.manager).config.requestTimeout
  obtain ⟨hr,hs⟩ := hopen.send Reply.extjwt
    (Reply.anyTarget :: (n.manager ref.manager).config.service.toList)
  unfold Network.ask openRequest
  dsimp only
  rw [hc]
  refine ⟨hr,hs,?_,?_⟩
  · rw [held, held, send_exchanges, send_exchanges]
    exact hh
  · unfold GoesOver
    rw [send_exchanges]
    exact ho

theorem work (ha : Alike p n n') (hh : n'.held (.load ref') = n.held (.load ref))
    (ho : n.GoesOver p (.load ref))
    (hc : (n'.manager ref'.manager).config = (n.manager ref.manager).config) (hp : t.key = p)
    (hgoes : (n.arrive ref t.key).1 = false) (hgoes' : (n'.arrive ref' t.key).1 = false) :
    (n'.work ref' t).1 = (n.work ref t).1 ∧
    Alike p (n.work ref t).2 (n'.work ref' t).2 ∧
    (n'.work ref' t).2.held (.load ref') = (n.work ref t).2.held (.load ref) ∧
    (n.work ref t).2.GoesOver p (.load ref) := by
  unfold Network.work
  rw [hgoes, hgoes', hp]
  cases t.begun with
  | true => exact ha.inquire hh ho
  | false =>
    obtain ⟨hr,ha',hh',ho'⟩ := ha.ask hc
    simp only [Bool.false_eq_true, if_false]
    generalize n'.ask ref' p = r' at hr ha' hh' ⊢
    generalize n.ask ref p = r at hr ha' hh' ho' ⊢
    obtain ⟨a,m⟩ := r
    obtain ⟨a',m'⟩ := r'
    obtain rfl : a' = a := hr
    cases a' with
    | sent => exact ha'.inquire hh' ho'
    | failed cause => exact ⟨rfl,ha'.failRequest hh' ho' cause⟩
    | broken line => exact ⟨rfl,ha',hh',ho'⟩

theorem dropLoad (ha : Alike p n n') (hh : n'.held (.load ref') = n.held (.load ref))
    (ho : n.GoesOver p (.load ref)) :
    Alike p (n.dropLoad ref) (n'.dropLoad ref') ∧
    (n'.dropLoad ref').held (.load ref') = (n.dropLoad ref).held (.load ref) := by
  obtain ⟨hclosed,hh'⟩ := ha.closeExchange hh ho
  exact ⟨⟨hclosed.now,hclosed.sounded,hclosed.length,hclosed.peer⟩,hh'⟩

theorem record (ha : Alike p n n') (hh : n'.held (.load ref') = n.held (.load ref))
    (ho : n.GoesOver p (.load ref)) (w : Turn) :
    Alike p (n.record ref p w) (n'.record ref' p w) ∧
    (n'.record ref' p w).held (.load ref') = (n.record ref p w).held (.load ref) := by
  by_cases hw : w = .died
  · subst hw
    exact ha.dropLoad hh ho
  · have hi := n.inner_record ref p hw
    have hi' := n'.inner_record ref' p hw
    refine ⟨ha.inner hi (n.record_sounded ref p w) hi' (n'.record_sounded ref' p w),?_⟩
    rw [held, held, hi.exchanges, hi'.exchanges]
    exact hh

end Alike

/-! ## Elsewhere -/

structure Only (q : Nat) (n n' : Network) : Prop where
  elsewhere : ∀ p, q ≠ p → n'.peer p = n.peer p

variable {q : Nat}

theorem Only.refl (q : Nat) (n : Network) : Only q n n := ⟨fun _ _ => rfl⟩

theorem Only.trans (h : Only q n n') (h' : Only q n' n₁) : Only q n n₁ :=
  ⟨fun p hp => (h'.elsewhere p hp).trans (h.elsewhere p hp)⟩

theorem Only.of_inner (hi : Inner n n') : Only q n n' := ⟨fun p _ => hi.peer p⟩

section
variable (n) (q)

theorem only_onPeer (f : Peer → Peer) : Only q n (n.onPeer q f) := by
  refine ⟨fun p hp => ?_⟩
  rw [peer_onPeer, if_neg fun h => hp h.1]

theorem only_deliver (m : Message) : Only q n (n.deliver q m) :=
  (n.only_onPeer q _).trans (.of_inner (inner_wakeAll ..))

theorem only_deliverLines (lines : List String) : Only q n (n.deliverLines q lines).2 := by
  induction lines generalizing n with
  | nil => exact .refl q n
  | cons line lines ih =>
    unfold deliverLines
    cases Message.parse? line with
    | none => exact .refl q n
    | some m => exact (n.only_deliver q m).trans (ih _)

theorem only_send (command : String) (args : List String) :
    Only q n (n.send q command args).2 := by
  have hh : Only q n (n.handed q command args) :=
    (Only.of_inner (n.inner_note _)).trans (only_onPeer ..)
  rw [send_eq]
  cases ((n.peer q).send command args).1 with
  | error cause => exact hh
  | ok lines => exact hh.trans (only_deliverLines ..)

theorem only_endStream : Only q n (n.endStream q) :=
  (n.only_onPeer q _).trans (.of_inner ((inner_note ..).trans (inner_wakeAll ..)))

theorem only_receive (r : Received) : Only q n (n.receive q r) := by
  have hnote : ∀ notices, Only q n (n.note notices) := fun _ => .of_inner (n.inner_note _)
  unfold receive
  split
  · cases r with
    | failed reason => exact (hnote _).trans (only_endStream ..)
    | line line =>
      dsimp only
      cases Message.parse? line with
      | none => exact hnote _
      | some m =>
        obtain ⟨notices,h⟩ := (n.note [.lineReceived q line]).accept_eq q m
        have hnotes := (hnote [.lineReceived q line]).trans
          (Only.of_inner (inner_note _ notices))
        dsimp only
        rw [h]
        cases ((n.note [.lineReceived q line]).peer q).handle m with
        | none => exact hnotes.trans (only_endStream ..)
        | some changed => exact hnotes.trans ((only_onPeer ..).trans (only_deliver ..))
  · exact .refl q n

theorem only_openExchange (h : Holder) (matcher : Matcher) (timeout : Span) :
    Only q n (n.openExchange h q matcher timeout) := by
  refine ⟨fun p hp => ?_⟩
  rw [openExchange_peer, if_neg fun h => hp h.1]

end

theorem only_closeExchange (ho : n.GoesOver q h) : Only q n (n.closeExchange h) := by
  cases hx : n.exchanges.get? h with
  | none => rw [closeExchange_of_none hx]; exact .refl q n
  | some x =>
    refine ⟨fun p hp => ?_⟩
    rw [closeExchange_peer hx, ho x hx, if_neg fun h => hp h.1]

theorem only_pollExchange (ho : n.GoesOver q h) : Only q n (n.pollExchange h).2 := by
  cases hx : n.exchanges.get? h with
  | none =>
    unfold pollExchange
    rw [hx]
    exact .refl q n
  | some x =>
    have hd : Only q n (n.drained h x) := by
      refine ⟨fun p hp => ?_⟩
      rw [drained_peer, ho x hx, if_neg fun h => hp h.1]
    rw [pollExchange_eq hx]
    cases (n.looked x).result with
    | none => exact hd
    | some result =>
      have hover := Alike.goesOver_drained hx (ho x hx)
      exact hd.trans ((Only.of_inner (inner_note ..)).trans
        (only_closeExchange (n := (n.drained h x).note (resultNotices result)) hover))

theorem only_pollRequest (ho : n.GoesOver q h) : Only q n (n.pollRequest h).2 := by
  have hp := only_pollExchange ho
  unfold pollRequest
  generalize n.pollExchange h = r at hp ⊢
  obtain ⟨_ | result,m⟩ := r
  · exact hp
  · exact hp.trans (.of_inner (inner_note ..))

theorem only_failRequest (ho : n.GoesOver q h) (cause : String) :
    Only q n (n.failRequest h cause).2 :=
  (Only.of_inner (inner_note ..)).trans (only_closeExchange (n := n.noteRequest n.now _) ho)

theorem only_inquire {ref : LoadRef} (ho : n.GoesOver q (.load ref)) :
    Only q n (n.inquire ref).2 := by
  have hp := only_pollRequest ho
  unfold inquire
  generalize n.pollRequest (.load ref) = r at hp ⊢
  obtain ⟨_ | result,m⟩ := r <;> exact hp

theorem only_ask (n : Network) (ref : LoadRef) (q : Nat) : Only q n (n.ask ref q).2 :=
  (Only.of_inner (n.inner_arrive ref q)).trans ((only_openExchange ..).trans (only_send ..))

theorem Alike.refl (p : Nat) (n : Network) : Alike p n n := ⟨rfl,rfl,rfl,rfl⟩

theorem Worked.only {ref : LoadRef} {t : LoadTask Nat Token TokenError} {w : Turn}
    (hw : Worked n ref t w n') (ho : n.GoesOver t.key (.load ref)) : Only t.key n n' := by
  have hask := n.only_ask ref t.key
  have hover : (n.ask ref t.key).2.GoesOver t.key (.load ref) :=
    ((Alike.refl t.key n).ask (@rfl _ (n.manager ref.manager).config)).2.2.2
  cases hw with
  | resumed => exact only_inquire ho
  | withheld => exact .of_inner (inner_arrive ..)
  | sent => exact hask.trans (only_inquire hover)
  | failed cause => exact hask.trans (only_failRequest hover cause)
  | broken => exact hask

theorem only_dropLoad {ref : LoadRef} (ho : n.GoesOver q (.load ref)) : Only q n (n.dropLoad ref) :=
  ⟨(only_closeExchange ho).elsewhere⟩

theorem only_record {ref : LoadRef} (ho : n.GoesOver q (.load ref)) (w : Turn) :
    Only q n (n.record ref q w) := by
  by_cases hw : w = .died
  · subst hw
    exact only_dropLoad ho
  · exact .of_inner (n.inner_record ref q hw)

/-- The turn of a load whose request goes over the connection of its peer. -/
theorem only_turn (hn : n.Orderly) {ref : LoadRef} {t : LoadTask Nat Token TokenError}
    (ht : (n.manager ref.manager).loader.tasks.get? ref.load = some t)
    (ho : n.GoesOver t.key (.load ref)) : Only t.key n (n.step (.turn ref)) := by
  have hgoes := (arrive_of_sound (n := n.called ref) (hn ref.manager) ht).1
  have hw := (Alike.refl t.key (n.called ref)).work rfl ho rfl rfl hgoes hgoes
  have honly := ((n.called ref).work_worked ref t).only ho
  rw [step_turn n ht]
  exact ⟨(honly.trans (only_record hw.2.2.2 _)).elsewhere⟩

end Network

end ChatToken
