import ChatToken.Proofs.Loader.Counts
import ChatToken.Proofs.Network.Peers

/-! # Metrics add up

Nothing but lookups, the ends of requests and new marks is counted. An event that counts something
moves the loads of the manager at the same time, so that what is counted stays in balance with them.
-/
namespace ChatToken

/-! ## What counts -/

namespace Metric

variable (name : String) (tags : List (String × String))

@[simp] theorem total_nil : total name tags [] = 0 := rfl

theorem total_cons (x : Metric) (ms : List Metric) :
    total name tags (x :: ms) =
      (if isCount name tags x then x.value else 0) + total name tags ms := by
  unfold total
  by_cases hx : isCount name tags x = true <;> simp [hx]

theorem total_append (ms ms' : List Metric) :
    total name tags (ms ++ ms') = total name tags ms + total name tags ms' := by
  induction ms with
  | nil => simp
  | cons x ms ih => rw [List.cons_append, total_cons, total_cons, ih, Nat.add_assoc]

end Metric

namespace Network

section
variable (n : Network)

@[simp] theorem metrics_note (notices : List Notice) :
    (n.note notices).metrics = n.metrics ++ notices.flatMap Metric.ofNotice := by
  simp [metrics, note]

@[simp] theorem metrics_onPeer (p : Nat) (f : Peer → Peer) :
    (n.onPeer p f).metrics = n.metrics := rfl

@[simp] theorem metrics_onManager (m : Nat) (f : Manager → Manager) :
    (n.onManager m f).metrics = n.metrics := rfl

@[simp] theorem metrics_wake (ref : LoadRef) : (n.wake ref).metrics = n.metrics := by
  unfold wake
  split <;> rfl

@[simp] theorem metrics_wakeAll (refs : List LoadRef) : (n.wakeAll refs).metrics = n.metrics := by
  induction refs generalizing n with
  | nil => rfl
  | cons ref refs ih => exact (ih _).trans (n.metrics_wake ref)

@[simp] theorem metrics_deliver (p : Nat) (m : Message) : (n.deliver p m).metrics = n.metrics :=
  metrics_wakeAll ..

@[simp] theorem metrics_deliverLines (p : Nat) (lines : List String) :
    (n.deliverLines p lines).2.metrics = n.metrics := by
  induction lines generalizing n with
  | nil => rfl
  | cons line lines ih =>
    unfold deliverLines
    cases Message.parse? line with
    | none => rfl
    | some m => exact (ih _).trans (n.metrics_deliver p m)

@[simp] theorem metrics_openExchange (h : Holder) (p : Nat) (matcher : Matcher) (timeout : Span) :
    (n.openExchange h p matcher timeout).metrics = n.metrics := rfl

@[simp] theorem metrics_closeExchange (h : Holder) : (n.closeExchange h).metrics = n.metrics := by
  unfold closeExchange
  cases n.exchanges.get? h with
  | none => rfl
  | some x =>
    change ((n.onPeer x.peer _).note [.listenerRemoved x.peer x.listener]).metrics = _
    simp [Metric.ofNotice]

@[simp] theorem metrics_pollExchange (h : Holder) :
    (n.pollExchange h).2.metrics = n.metrics := by
  have hpieces : ∀ pieces : List String,
      (pieces.map fun piece => Notice.pieceReceived piece.utf8ByteSize).flatMap Metric.ofNotice =
        [] := by
    intro pieces
    simp [List.flatMap_map, Metric.ofNotice]
  have hresult : ∀ result, (resultNotices result).flatMap Metric.ofNotice = [] := by
    intro result
    rcases result with e | _
    · cases e <;> rfl
    · rfl
  unfold pollExchange
  cases n.exchanges.get? h with
  | none => rfl
  | some x =>
    dsimp only
    generalize x.look Matcher.classify n.now n.sounded n.tickets (n.peer x.peer) = looked
    have hnote := (n.metrics_note (looked.1.pieces.map fun piece =>
      .pieceReceived piece.utf8ByteSize)).trans (by rw [hpieces, List.append_nil])
    cases looked.1.result with
    | none => exact hnote
    | some result =>
      dsimp only
      rw [metrics_closeExchange, metrics_note, hresult, List.append_nil]
      exact hnote

@[simp] theorem sendNotices_metrics (p : Nat) (m : Message) :
    (n.sendNotices p m).flatMap Metric.ofNotice = [] := by
  unfold sendNotices
  split <;> rfl

@[simp] theorem metrics_send (p : Nat) (command : String) (args : List String) :
    (n.send p command args).2.metrics = n.metrics := by
  unfold send
  dsimp only
  rcases ((n.note (n.sendNotices p (Message.of command args))).peer p).send command args with
    ⟨_ | lines,changed⟩
  · simp
  · dsimp only
    have hd := metrics_deliverLines ((n.note (n.sendNotices p (Message.of command args))).onPeer p
      fun _ => changed) p lines
    rw [metrics_onPeer, metrics_note, sendNotices_metrics, List.append_nil] at hd
    split
    · next he => rw [he] at hd; exact hd
    · next he => rw [he] at hd; exact hd

@[simp] theorem metrics_openRequest (h : Holder) (p : Nat) (service : Option String)
    (timeout : Span) : (n.openRequest h p service timeout).2.metrics = n.metrics :=
  metrics_send ..

@[simp] theorem metrics_endStream (p : Nat) : (n.endStream p).metrics = n.metrics := by
  simp [endStream, Metric.ofNotice]

@[simp] theorem metrics_failWriting (p : Nat) (reason : String) :
    (n.failWriting p reason).metrics = n.metrics := by
  unfold failWriting
  split
  · simp [Metric.ofNotice]
  · rfl

@[simp] theorem metrics_accept (p : Nat) (m : Message) : (n.accept p m).metrics = n.metrics := by
  have hpong : (if m.command = "PING" then n.note (n.sendNotices p (Peer.pong m)) else n).metrics =
      n.metrics := by
    split
    · simp
    · rfl
  unfold accept
  dsimp only
  split
  · rw [metrics_deliver, metrics_onPeer, hpong]
  · rw [metrics_endStream, hpong]

@[simp] theorem metrics_receive (p : Nat) (r : Received) : (n.receive p r).metrics = n.metrics := by
  unfold receive
  split
  · cases r with
    | failed reason => simp [Metric.ofNotice]
    | line line =>
      dsimp only
      split <;> simp [Metric.ofNotice]
  · rfl

@[simp] theorem metrics_checkMark (m p : Nat) : (n.checkMark m p).2.metrics = n.metrics := by
  unfold checkMark
  cases (n.manager m).marks.standing n.now p <;> simp [Metric.ofNotice]

@[simp] theorem metrics_finishLoad (ref : LoadRef) (result : Except TokenError Token) :
    (n.finishLoad ref result).metrics = n.metrics := by
  have hkept : ∀ (invalid : Token → Option TokenError) key,
      ((Loader.keepResult invalid key result).2.map Notice.loader).flatMap Metric.ofNotice = [] := by
    intro invalid key
    rcases result with e | t
    · rfl
    · unfold Loader.keepResult
      dsimp only
      cases invalid t <;> rfl
  have hnotices : ∀ (l : Loader Nat Token TokenError) invalid,
      ((l.finish invalid ref.load result).2.map Notice.loader).flatMap Metric.ofNotice = [] := by
    intro l invalid
    change ((l.complete invalid ref.load result).2.map Notice.loader).flatMap Metric.ofNotice = []
    unfold Loader.complete
    cases l.tasks.get? ref.load with
    | none => rfl
    | some t =>
      dsimp only
      split
      · exact hkept invalid t.key
      · rfl
  unfold finishLoad
  dsimp only
  rw [metrics_note, metrics_onManager, hnotices, List.append_nil]

@[simp] theorem metrics_dropLoad (ref : LoadRef) : (n.dropLoad ref).metrics = n.metrics :=
  n.metrics_closeExchange (.load ref)

@[simp] theorem metrics_soundTimers : n.soundTimers.metrics = n.metrics :=
  metrics_wakeAll { n with sounded := Clock.tick n.now } _

@[simp] theorem metrics_observe (ref : LoadRef) : (n.observe ref).2.metrics = n.metrics := by
  unfold observe
  split
  · rfl
  · dsimp only
    split
    · rfl
    · exact (n.metrics_note [.loadLost]).trans (List.append_nil _)
  · rfl

@[simp] theorem metrics_forget (m p : Nat) : (n.forget m p).metrics = n.metrics := by
  simp [forget, Metric.ofNotice]

def requestMetrics (result : Except TokenError Token) (millis : Nat) : List Metric :=
  Metric.ofNotice (.requestEnded (statusOf result) millis)

theorem metrics_pollRequest (h : Holder) : ∃ millis, (n.pollRequest h).2.metrics =
    n.metrics ++ ((n.pollRequest h).1.map (requestMetrics · millis)).getD [] := by
  have hp := n.metrics_pollExchange h
  unfold pollRequest
  rcases hq : n.pollExchange h with ⟨_ | result,n'⟩ <;> rw [hq] at hp
  · exact ⟨0,by simpa using hp⟩
  · refine ⟨Clock.tick (n'.now - ((n.exchanges.get? h).map (·.since)).getD n.now),?_⟩
    simp [noteRequest, requestMetrics, show n'.metrics = n.metrics from hp]

theorem metrics_failRequest (h : Holder) (cause : String) : ∃ millis,
    (n.failRequest h cause).2.metrics =
      n.metrics ++ requestMetrics (.error (.sendFailed cause)) millis :=
  ⟨_,by simp [failRequest, noteRequest, requestMetrics]; rfl⟩

theorem metrics_concludeLoad (ref : LoadRef) (p : Nat) (result : Except TokenError Token) :
    ∃ kept, (n.concludeLoad ref p result).metrics =
      n.metrics ++ if isRefusal result then Metric.ofNotice (.peerMarked kept) else [] := by
  rcases result with e | t
  · cases e with
    | unsupported command =>
      exact ⟨_,by simp [concludeLoad, markPeer, isRefusal, Metric.ofNotice]; rfl⟩
    | _ => exact ⟨0,by simp [concludeLoad, isRefusal, Metric.ofNotice]⟩
  · exact ⟨0,by simp [concludeLoad, isRefusal, Metric.ofNotice]⟩

@[simp] theorem metrics_arrive (ref : LoadRef) (p : Nat) :
    (n.arrive ref p).2.metrics = n.metrics := by
  have hbegin : ((n.manager ref.manager).loader.begin ref.load).2.flatMap
      (fun notice => Metric.ofNotice (.loader notice)) = [] := by
    unfold Loader.begin
    split <;> rfl
  unfold arrive
  dsimp only
  rw [metrics_checkMark, metrics_note, metrics_onManager, List.flatMap_map, hbegin,
    List.append_nil]

@[simp] theorem metrics_ask (ref : LoadRef) (p : Nat) : (n.ask ref p).2.metrics = n.metrics :=
  (metrics_openRequest ..).trans (n.metrics_arrive ref p)

end

def Turn.metrics (millis : Nat) : Turn → List Metric
  | .ended result => requestMetrics result millis
  | .withheld | .waits | .died => []

def Turn.isWithheld : Turn → Bool
  | .withheld => true
  | .waits | .ended _ | .died => false

theorem metrics_inquire (n : Network) (ref : LoadRef) : ∃ millis,
    (n.inquire ref).2.metrics = n.metrics ++ (n.inquire ref).1.metrics millis := by
  obtain ⟨millis,hm⟩ := n.metrics_pollRequest (.load ref)
  refine ⟨millis,?_⟩
  unfold inquire
  rcases hp : n.pollRequest (.load ref) with ⟨_ | result,n'⟩ <;> rw [hp] at hm <;> exact hm

theorem Worked.metrics {n n' : Network} {ref : LoadRef} {t : LoadTask Nat Token TokenError}
    {w : Turn} (h : Worked n ref t w n') : ∃ millis, n'.metrics = n.metrics ++ w.metrics millis := by
  cases h with
  | resumed => exact n.metrics_inquire ref
  | withheld => exact ⟨0,by simp [Turn.metrics]⟩
  | sent =>
    obtain ⟨millis,hm⟩ := (n.ask ref t.key).2.metrics_inquire ref
    exact ⟨millis,by rw [hm, metrics_ask]⟩
  | failed cause =>
    obtain ⟨millis,hm⟩ := (n.ask ref t.key).2.metrics_failRequest (.load ref) cause
    exact ⟨millis,by rw [hm, metrics_ask]; rfl⟩
  | broken => exact ⟨0,by simp [Turn.metrics]⟩

/-- What the record of a turn counts: a new mark. -/
theorem metrics_record (n : Network) (ref : LoadRef) (p : Nat) (w : Turn) : ∃ kept,
    (n.record ref p w).metrics = n.metrics ++
      match w with
      | .ended result => if isRefusal result then Metric.ofNotice (.peerMarked kept) else []
      | .withheld | .waits | .died => [] := by
  cases w with
  | withheld => exact ⟨0,by simp [record, Metric.ofNotice]⟩
  | waits => exact ⟨0,by simp [record]⟩
  | died => exact ⟨0,by simp [record]⟩
  | ended result => exact n.metrics_concludeLoad ref p result

/-! ## What a turn does to the loads -/

section
variable {n : Network} {ref : LoadRef} {t : LoadTask Nat Token TokenError}

/-- The work of a turn begins the load, and does nothing else to it. -/
theorem Worked.loader {w : Turn} {n' : Network} (h : Worked n ref t w n')
    (hm : ref.manager < n.managers.length) :
    (n'.manager ref.manager).loader =
      if t.begun then (n.manager ref.manager).loader
      else ((n.manager ref.manager).loader.begin ref.load).1 := by
  have harrive : ((n.arrive ref t.key).2.manager ref.manager).loader =
      ((n.manager ref.manager).loader.begin ref.load).1 := by
    unfold arrive
    dsimp only
    rw [(checkMark_manager _ (by simpa [note, onManager] using hm) ..).2, if_pos rfl]
    rw [note_manager, manager_onManager, if_pos ⟨rfl,hm⟩]
  have hask : ((n.ask ref t.key).2.manager ref.manager).loader =
      ((n.manager ref.manager).loader.begin ref.load).1 := by
    rw [← harrive]
    exact congrArg (fun ms => (ms.getD ref.manager default).loader) (n.outer_ask ref t.key).managers
  cases h with
  | resumed hb => rw [(n.quiet_inquire ref).manager, if_pos hb]
  | withheld hb => rw [harrive, hb]; rfl
  | sent hb => rw [(quiet_inquire ..).manager, hask, hb]; rfl
  | failed cause hb => rw [(quiet_failRequest ..).manager, hask, hb]; rfl
  | broken line hb => rw [hask, hb]; rfl

theorem record_loader (n : Network) (hm : ref.manager < n.managers.length) (p : Nat) (w : Turn) :
    ∃ invalid, ((n.record ref p w).manager ref.manager).loader =
      match w with
      | .withheld => ((n.manager ref.manager).loader.finish invalid ref.load
          (.error (.unsupported Reply.extjwt))).1
      | .waits => (n.manager ref.manager).loader
      | .ended result => ((n.manager ref.manager).loader.finish invalid ref.load result).1
      | .died => (n.manager ref.manager).loader.abandon ref.load := by
  cases w with
  | withheld =>
    have hm' : ref.manager < (n.note [.requestWithheld p]).managers.length := hm
    refine ⟨Manager.staleness (n.manager ref.manager).config n.now,?_⟩
    rw [record, finishLoad_manager _ hm', if_pos rfl]
    rfl
  | waits => exact ⟨fun _ => none,rfl⟩
  | died =>
    refine ⟨fun _ => none,?_⟩
    rw [record, n.dropLoad_manager ref (fun _ => hm), if_pos rfl]
    rfl
  | ended result =>
    obtain ⟨n',he,-,hlen,hmanager⟩ := n.concludeLoad_marks hm p result
    have hloader : (n'.manager ref.manager).loader = (n.manager ref.manager).loader := by
      rw [hmanager]
      split <;> rfl
    refine ⟨Manager.staleness (n'.manager ref.manager).config n'.now,?_⟩
    rw [record, he, finishLoad_manager _ (hlen ▸ hm), if_pos rfl]
    dsimp only
    rw [hloader]

theorem arrive_eq (n : Network) (hm : ref.manager < n.managers.length) (p : Nat) :
    (n.arrive ref p).1 =
      decide ((n.manager ref.manager).marks.standing n.now p = .marked) := by
  unfold arrive
  dsimp only
  rw [(checkMark_manager _ (by simpa [note, onManager] using hm) ..).1, note_manager,
    manager_onManager, if_pos ⟨rfl,hm⟩]
  rfl

theorem work_isWithheld (ht : (n.manager ref.manager).loader.tasks.get? ref.load = some t) :
    (n.work ref t).1.isWithheld = n.isWithheld ref := by
  have ha := n.arrive_eq (lt_of_task ht) t.key
  have hinquire : ∀ n' : Network, (n'.inquire ref).1.isWithheld = false := by
    intro n'
    have hne := n'.inquire_ne_withheld ref
    cases hw : (n'.inquire ref).1 with
    | withheld => exact absurd hw hne
    | _ => rfl
  rw [isWithheld, ht]
  dsimp only
  cases hb : t.begun with
  | true =>
    simp only [work, hb, if_true]
    exact hinquire n
  | false =>
    simp only [work, hb, Bool.false_eq_true, if_false, Bool.not_false, Bool.true_and]
    rw [ha]
    by_cases hs : (n.manager ref.manager).marks.standing n.now t.key = .marked
    · simp [hs, Turn.isWithheld]
    · simp only [hs, decide_false, Bool.false_eq_true, if_false]
      rcases n.ask ref t.key with ⟨_ | cause | line,n'⟩
      · exact hinquire n'
      · rfl
      · rfl

end

end Network

/-! ## The balance -/

namespace Loader
variable {l : Loader Nat Token TokenError} {id : Nat}

theorem begin_registry (l : Loader Nat Token TokenError) (id : Nat) :
    (l.begin id).1.loading = l.loading ∧ (l.begin id).1.endings = l.endings ∧
      ((l.begin id).1.tasks.get? id).isSome = (l.tasks.get? id).isSome := by
  rcases begin_cases l id with ⟨t,ht,-,he⟩ | he <;> rw [he]
  · exact ⟨rfl,rfl,by simp [reach_tasks]⟩
  · exact ⟨rfl,rfl,rfl⟩

end Loader

namespace Metering

/-- The metrics `ms` go with what happens to the loads from `l` to `l'`. -/
structure Fits (l l' : Loader Nat Token TokenError) (ms : List Metric)
    (lookups refusals withheld : Nat) : Prop where
  busy : l'.Busy
  lookups : lookups = Metric.total "tokens.unsupported.hit" [] ms +
    Metric.total "caches.access" [] ms
  accesses : Metric.total "caches.access" [] ms = Metric.total "caches.memory.hit" [] ms +
    Metric.total "caches.channel.hit" [] ms + Metric.total "caches.channel.miss" [] ms + refusals
  evictions : Metric.total "caches.invalid" [] ms ≤
    Metric.total "caches.channel.miss" [] ms + refusals
  loads : Metric.total "caches.channel.miss" [] ms + l.runningLoads + l.lostLoads =
    l'.runningLoads + l'.lostLoads + withheld + Metric.total "tokens.request" [] ms
  marks : Metric.total "tokens.unsupported.marked" [] ms =
    Metric.total "tokens.request" [("status", "unsupported")] ms

variable {l l' : Loader Nat Token TokenError} {n n' : Network}

theorem AddsUp.add {L R W L' R' W' : Nat} {ms : List Metric} (h : AddsUp n L R W)
    (hm : n'.metrics = n.metrics ++ ms)
    (hf : Fits (n.manager 0).loader (n'.manager 0).loader ms L' R' W') :
    AddsUp n' (L + L') (R + R') (W + W') := by
  obtain ⟨h₁,h₂,h₃,h₄,h₅⟩ := h
  obtain ⟨-,f₁,f₂,f₃,f₄,f₅⟩ := hf
  simp only [Network.counted] at h₁ h₂ h₃ h₄ h₅
  constructor <;> simp only [Network.counted, hm, Metric.total_append] <;> omega

/-- What counts nothing leaves the loads in balance. -/
theorem Fits.idle (hb : l'.Busy) (hr : l'.runningLoads = l.runningLoads)
    (hl : l'.lostLoads = l.lostLoads) : Fits l l' [] 0 0 0 :=
  ⟨hb,rfl,rfl,Nat.le_refl _,by simp [hr, hl],rfl⟩

/-- A load ends without a request: it was lost or withheld. -/
theorem Fits.unasked {key id : Nat} {item : Option Token} {e : Ending Token TokenError}
    (hb : l.Busy) (hk : l.Running id key) (h : Loader.Concluded l key id item e l') :
    Fits l l' [] 0 0 (if e.isLost then 0 else 1) := by
  have hrun := h.runningLoads ((hb.sound.registered _ _).mpr hk)
  obtain ⟨t,ht,-⟩ := hk
  have hlost := h.lostLoads (hb.sound.no_ending ht)
  refine ⟨hb.concluded h,rfl,rfl,Nat.le_refl _,?_,rfl⟩
  rw [Metric.total_nil, Metric.total_nil, hlost]
  split <;> simp_all <;> omega

/-- A load ends with its request, whose status tells whether the peer is marked. -/
theorem Fits.asked {key id : Nat} {item : Option Token} {e : Ending Token TokenError}
    (hb : l.Busy) (hk : l.Running id key) (h : Loader.Concluded l key id item e l')
    (he : e.isLost = false) (result : Except TokenError Token) (millis kept : Nat) :
    Fits l l' (Network.requestMetrics result millis ++
      if isRefusal result then Metric.ofNotice (.peerMarked kept) else []) 0 0 0 := by
  have hrun := h.runningLoads ((hb.sound.registered _ _).mpr hk)
  obtain ⟨t,ht,-⟩ := hk
  have hlost := h.lostLoads (hb.sound.no_ending ht)
  rw [he, if_neg Bool.false_ne_true] at hlost
  have hmarks : isRefusal result = decide (Network.statusOf result = "unsupported") := by
    rcases result with e | t
    · cases e <;> rfl
    · rfl
  refine ⟨hb.concluded h,?_,?_,?_,?_,?_⟩ <;> rw [hmarks] <;>
    by_cases hs : Network.statusOf result = "unsupported" <;>
    simp [hs, Network.requestMetrics, Metric.ofNotice, Metric.total_cons, Metric.isCount,
      Metric.count, @eq_comm _ "unsupported"] <;> omega

/-- A lookup that finds no mark. -/
theorem Fits.looked {key : Nat} {answer : Lookup Token} {notices : List (LoaderNotice Nat TokenError)}
    {invalid : Token → Option TokenError} {canStart : Bool}
    (hb : l.Busy) (hl : Loader.Looked l invalid canStart key answer l')
    (h : Loader.Reported l key answer l' notices) :
    Fits l l' (notices.flatMap fun notice => Metric.ofNotice (.loader notice)) 1
      (if answer = .refused then 1 else 0) 0 := by
  have hstart : l.loading.get? key = none →
      ((l.evict key).start key).runningLoads = l.runningLoads + 1 :=
    fun h => Loader.runningLoads_start (l := l.evict key) h
  have hlost : ((l.evict key).start key).lostLoads = l.lostLoads := rfl
  have hevict : (l.evict key).runningLoads + (l.evict key).lostLoads =
      l.runningLoads + l.lostLoads := rfl
  refine ⟨hb.looked hl,?_,?_,?_,?_,?_⟩ <;> cases h <;>
    simp [Metric.ofNotice, Metric.ofLoader, Metric.total_cons, Metric.isCount, Metric.count,
      hlost, hevict]
  all_goals next hn => rw [hstart hn]; omega

/-! ## Steps -/

structure Sole (n : Network) : Prop where
  alone : n.managers.length = 1
  busy : (n.manager 0).loader.Busy

def Booked (n n' : Network) (lookups refusals withheld : Nat) : Prop :=
  n'.managers.length = n.managers.length ∧ ∃ ms, n'.metrics = n.metrics ++ ms ∧
    Fits (n.manager 0).loader (n'.manager 0).loader ms lookups refusals withheld

theorem Booked.sole {L R W : Nat} (hs : Sole n) (h : Booked n n' L R W) : Sole n' := by
  obtain ⟨hlen,_,_,hf⟩ := h
  exact ⟨hlen.trans hs.alone,hf.busy⟩

theorem Booked.idle (hs : Sole n) (hlen : n'.managers.length = n.managers.length)
    (hm : n'.metrics = n.metrics) (hl : (n'.manager 0).loader = (n.manager 0).loader) :
    Booked n n' 0 0 0 :=
  ⟨hlen,[],by simp [hm],.idle (hl ▸ hs.busy) (by rw [hl]) (by rw [hl])⟩

theorem Booked.same (hs : Sole n) (hm : n'.metrics = n.metrics)
    (hmanagers : n'.managers = n.managers) : Booked n n' 0 0 0 :=
  .idle hs (by rw [hmanagers]) hm
    (congrArg (fun ms => (ms.getD 0 default).loader) hmanagers)

/-- A first part that counts nothing and leaves the loads alone makes no difference. -/
theorem Booked.after_idle {n'' : Network} {L R W : Nat}
    (hlen : n'.managers.length = n.managers.length) (hm : n'.metrics = n.metrics)
    (hl : (n'.manager 0).loader = (n.manager 0).loader) (h : Booked n' n'' L R W) :
    Booked n n'' L R W := by
  obtain ⟨hlen',ms,hm',hf⟩ := h
  exact ⟨hlen'.trans hlen,ms,by rw [hm', hm],hl ▸ hf⟩

theorem checkMark_loader (hs : Sole n) (p : Nat) :
    ((n.checkMark 0 p).2.manager 0).loader = (n.manager 0).loader := by
  rw [(n.checkMark_manager (by rw [hs.alone]; exact Nat.one_pos) 0 p).2, if_pos rfl]

theorem booked_checkMark (hs : Sole n) (p : Nat) : Booked n (n.checkMark 0 p).2 0 0 0 :=
  .idle hs (n.inner_checkMark 0 p).length (n.metrics_checkMark 0 p) (checkMark_loader hs p)

theorem booked_markHit (hs : Sole n) : Booked n (n.note [.markHit]) 1 0 0 := by
  refine ⟨rfl,_,n.metrics_note _,hs.busy,?_,?_,?_,?_,?_⟩ <;>
    simp [Metric.ofNotice, Metric.total_cons, Metric.isCount, Metric.count]

theorem seekIn_isNone (n : Network) (canStart : Bool) (m p : Nat) :
    (n.seekIn canStart m p).1.isNone =
      decide (((n.manager m).loader.lookup
        (Manager.staleness (n.manager m).config n.now) canStart p).1 = .refused) := by
  unfold Network.seekIn
  dsimp only
  cases ((n.manager m).loader.lookup
    (Manager.staleness (n.manager m).config n.now) canStart p).1 <;> rfl

theorem booked_seekIn (hs : Sole n) (canStart : Bool) (p : Nat) :
    Booked n (n.seekIn canStart 0 p).2 1
      (if (n.seekIn canStart 0 p).1.isNone then 1 else 0) 0 := by
  have hreported := (n.manager 0).loader.lookup_reported
    (Manager.staleness (n.manager 0).config n.now) canStart p
  have hlooked := (n.manager 0).loader.lookup_looked
    (Manager.staleness (n.manager 0).config n.now) canStart p
  rw [seekIn_isNone]
  unfold Network.seekIn
  dsimp only
  rcases hl : (n.manager 0).loader.lookup (Manager.staleness (n.manager 0).config n.now) canStart p
    with ⟨answer,l,notices⟩
  rw [hl] at hreported hlooked
  -- whatever the answer, the loader and what it reports are as after the lookup
  have hbooked : ∀ n' : Network, n'.managers = (n.onManager 0 fun g => { g with loader := l }).managers →
      n'.metrics = n.metrics ++ (notices.map Notice.loader).flatMap Metric.ofNotice →
      Booked n n' 1 (if decide (answer = .refused) = true then 1 else 0) 0 := by
    intro n' hmanagers hm
    have hl : (n'.manager 0).loader = l := by
      have hmanager : n'.manager 0 = (n.onManager 0 fun g => { g with loader := l }).manager 0 :=
        congrArg (·.getD 0 default) hmanagers
      rw [hmanager, Network.manager_onManager, if_pos ⟨rfl,by rw [hs.alone]; exact Nat.one_pos⟩]
    refine ⟨by rw [hmanagers]; exact (n.inner_onManager 0 _).length,_,hm,?_⟩
    rw [hl, List.flatMap_map]
    simpa using Fits.looked hs.busy hlooked hreported
  cases answer with
  | cached t => exact hbooked _ rfl (Network.metrics_note ..)
  | refused => exact hbooked _ rfl (Network.metrics_note ..)
  | loading id =>
    dsimp only
    split
    · refine hbooked _ (Network.quiet_wake _ _).managers ?_
      rw [Network.metrics_wake]
      exact Network.metrics_note ..
    · exact hbooked _ rfl (Network.metrics_note ..)

theorem booked_lookupIn (hs : Sole n) (canStart : Bool) (p : Nat) :
    Booked n (n.lookupIn canStart 0 p).2 1
      (if (n.lookupIn canStart 0 p).1.isNone then 1 else 0) 0 := by
  have hcheck := booked_checkMark hs p
  have hsole := hcheck.sole hs
  have hloader := checkMark_loader hs p
  have hmetrics := n.metrics_checkMark 0 p
  unfold Network.lookupIn
  rcases hc : n.checkMark 0 p with ⟨_ | _,n'⟩ <;> rw [hc] at hcheck hsole hloader hmetrics
  · exact .after_idle hcheck.1 hmetrics hloader (booked_seekIn hsole canStart p)
  · exact .after_idle hcheck.1 hmetrics hloader (booked_markHit hsole)

theorem booked_die (hs : Sole n) {ref : LoadRef} (hm : ref.manager = 0) :
    Booked n (n.dropLoad ref) 0 0 0 := by
  have hloader := congrArg Manager.loader (n.dropLoad_manager ref (m := 0) (fun _ => by
    rw [hs.alone]; exact Nat.one_pos))
  rw [if_pos hm] at hloader
  have hlen := (n.steady_dropLoad ref).managers
  cases ht : (n.manager 0).loader.tasks.get? ref.load with
  | none =>
    refine .idle hs hlen (n.metrics_dropLoad ref) (hloader.trans ?_)
    exact Loader.abandon_of_gone ht
  | some t =>
    have hu := hs.busy.live _ t ht
    refine ⟨hlen,[],by simp,?_⟩
    rw [hloader]
    exact .unasked hs.busy ⟨t,ht,rfl,hu⟩ (hs.busy.sound.abandon_concluded ht hu)

/-- The record of a turn ends one load at most. -/
theorem fits_record (hb : (n.manager 0).loader.Busy) (hlt : 0 < n.managers.length) {id : Nat}
    (hid : ((n.manager 0).loader.tasks.get? id).isSome = true) (p millis : Nat)
    (w : Network.Turn) : ∃ ms, (n.record ⟨0,id⟩ p w).metrics = n.metrics ++ ms ∧
    Fits (n.manager 0).loader ((n.record ⟨0,id⟩ p w).manager 0).loader (w.metrics millis ++ ms) 0 0
      (if w.isWithheld then 1 else 0) := by
  obtain ⟨t,ht⟩ := Option.isSome_iff_exists.mp hid
  have hu := hb.live _ t ht
  have hrun : (n.manager 0).loader.Running id t.key := ⟨t,ht,rfl,hu⟩
  have hlt' : (LoadRef.mk 0 id).manager < n.managers.length := hlt
  obtain ⟨kept,hm⟩ := n.metrics_record ⟨0,id⟩ p w
  obtain ⟨invalid,hl⟩ := n.record_loader hlt' p w
  refine ⟨_,hm,?_⟩
  change ((n.record ⟨0,id⟩ p w).manager 0).loader = _ at hl
  rw [hl]
  cases w with
  | withheld => exact .unasked hb hrun (hb.sound.finish_concluded ht hu _ _)
  | waits => exact .idle hb rfl rfl
  | died => exact .unasked hb hrun (hb.sound.abandon_concluded ht hu)
  | ended result =>
    have hlost : (Loader.endingOf result).isLost = false := by cases result <;> rfl
    exact .asked hb hrun (hb.sound.finish_concluded ht hu _ _) hlost result millis kept

theorem booked_turn (hs : Sole n) {ref : LoadRef} (hm : ref.manager = 0) :
    Booked n (n.step (.turn ref)) 0 0 (if n.isWithheld ref then 1 else 0) := by
  obtain ⟨m,id⟩ := ref
  obtain rfl : m = 0 := hm
  cases ht : (n.manager 0).loader.tasks.get? id with
  | none =>
    rw [show n.step (.turn ⟨0,id⟩) = n.called ⟨0,id⟩ from (n.called _).runLoad_of_gone ht,
      Network.isWithheld, ht]
    exact .same hs rfl rfl
  | some t =>
    have ht' : (n.manager (LoadRef.mk 0 id).manager).loader.tasks.get? (LoadRef.mk 0 id).load =
        some t := ht
    have hwithheld : ((n.called ⟨0,id⟩).work ⟨0,id⟩ t).1.isWithheld = n.isWithheld ⟨0,id⟩ :=
      (n.called ⟨0,id⟩).work_isWithheld ht'
    have hw := (n.called ⟨0,id⟩).work_worked ⟨0,id⟩ t
    have hlt : (0 : Nat) < n.managers.length := by rw [hs.alone]; exact Nat.one_pos
    rw [n.step_turn ht', ← hwithheld]
    generalize ((n.called ⟨0,id⟩).work ⟨0,id⟩ t).1 = w at hw ⊢
    generalize ((n.called ⟨0,id⟩).work ⟨0,id⟩ t).2 = n' at hw ⊢
    obtain ⟨millis,hmetrics⟩ := hw.metrics
    have hlen : n'.managers.length = n.managers.length := hw.steady.managers
    have hloader : (n'.manager 0).loader =
        if t.begun then (n.manager 0).loader else ((n.manager 0).loader.begin id).1 := hw.loader hlt
    -- whether the task has just begun is of no concern to what counts
    have hsame : (n'.manager 0).loader.Busy ∧
        (n'.manager 0).loader.runningLoads = (n.manager 0).loader.runningLoads ∧
        (n'.manager 0).loader.lostLoads = (n.manager 0).loader.lostLoads ∧
        ((n'.manager 0).loader.tasks.get? id).isSome = true := by
      rw [hloader]
      split
      · exact ⟨hs.busy,rfl,rfl,by rw [ht]; rfl⟩
      · obtain ⟨hl,he,htask⟩ := (n.manager 0).loader.begin_registry id
        exact ⟨hs.busy.begin id,by rw [Loader.runningLoads, hl]; rfl,
          by rw [Loader.lostLoads, he]; rfl,by rw [htask, ht]; rfl⟩
    obtain ⟨hb,hrunning,hlost,htask⟩ := hsame
    obtain ⟨ms,hms,hf⟩ := fits_record hb (hlen ▸ hlt) htask t.key millis w
    refine ⟨(Network.steady_record n' _ _ w).managers.trans hlen,w.metrics millis ++ ms,?_,?_⟩
    · rw [hms, hmetrics, List.append_assoc]
      rfl
    · exact { hf with loads := by rw [← hrunning, ← hlost]; exact hf.loads }

theorem metrics_elsewhere (n : Network) {e : Network.Event} (he : e.manager? = none) :
    (n.step e).metrics = n.metrics := by
  cases e with
  | listen c p matcher timeout =>
    simp only [Network.step]
    split <;> rfl
  | look c => exact n.metrics_pollExchange _
  | hangUp c => exact n.metrics_closeExchange _
  | send p command args => exact n.metrics_send p command args
  | deliver p m => exact n.metrics_deliver p m
  | disconnect p => exact Network.metrics_wakeAll ..
  | receive p r => exact n.metrics_receive p r
  | finishStream p =>
    simp only [Network.step, Network.finishStream]
    split
    · exact n.metrics_endStream p
    · rfl
  | failWriting p reason => exact n.metrics_failWriting p reason
  | sound => exact n.metrics_soundTimers
  | prepare | advertise | pass => rfl
  | _ => cases he

theorem seekIn_true (n : Network) (m p : Nat) :
    n.seekIn true m p = (some (n.seek m p).1,(n.seek m p).2) := by
  have hne : ((n.manager m).loader.lookup
      (Manager.staleness (n.manager m).config n.now) true p).1 ≠ .refused :=
    (Loader.lookup_looked ..).ne_refused
  unfold Network.seekIn Network.seek
  dsimp only
  cases h : ((n.manager m).loader.lookup
      (Manager.staleness (n.manager m).config n.now) true p).1 with
  | refused => exact absurd h hne
  | _ => rfl

/-- Where loads can be started, every lookup is answered. -/
theorem lookupIn_true (n : Network) (m p : Nat) :
    n.lookupIn true m p = (some (n.lookup m p).1,(n.lookup m p).2) := by
  unfold Network.lookupIn Network.lookup
  rcases n.checkMark m p with ⟨_ | _,n'⟩
  · exact seekIn_true n' m p
  · rfl

theorem booked_net (hs : Sole n) {e : Network.Event} (he : isOwn e = true)
    (hno : ∀ p, e ≠ .lookup 0 p) (hturn : ∀ ref, e ≠ .turn ref) :
    Booked n (n.step e) 0 0 0 := by
  have hlt : 0 < n.managers.length := by rw [hs.alone]; exact Nat.one_pos
  have hlen := (n.step_managers_length e)
  cases e with
  | lookup m p =>
    obtain rfl : m = 0 := by simpa [isOwn, Network.Event.manager?] using he
    exact absurd rfl (hno p)
  | turn ref => exact absurd rfl (hturn ref)
  | isUnsupported m p =>
    obtain rfl : m = 0 := by simpa [isOwn, Network.Event.manager?] using he
    exact booked_checkMark hs p
  | forget m p =>
    obtain rfl : m = 0 := by simpa [isOwn, Network.Event.manager?] using he
    have hloader : ((n.step (.forget 0 p)).manager 0).loader = (n.manager 0).loader.evict p := by
      rw [Network.step, Network.forget]
      dsimp only
      rw [Network.note_manager, Network.manager_onManager, if_pos ⟨rfl,hlt⟩]
      rfl
    refine ⟨hlen,[],by simp [Network.step],?_⟩
    rw [hloader]
    exact .idle (hs.busy.evict p) rfl rfl
  | observe ref =>
    refine .same hs (n.metrics_observe ref) ?_
    simp only [Network.step, Network.observe]
    split
    · rfl
    · dsimp only
      split <;> rfl
    · rfl
  | die ref =>
    exact booked_die hs (by simpa [isOwn, Network.Event.manager?] using he)
  | _ => exact .same hs (metrics_elsewhere n rfl) (n.step_elsewhere rfl).1

/-- Every event counts what it does. -/
theorem step_booked (s : Metering) (hs : Sole s.net) (e : Event) :
    Booked s.net (s.step e).net (s.lookups e) (s.refusals e) (s.withheld e) := by
  cases e with
  | outside p => exact booked_lookupIn hs false p
  | check p =>
    have hcheck := booked_checkMark hs p
    have hsole := hcheck.sole hs
    have hloader := checkMark_loader hs p
    have hmetrics := s.net.metrics_checkMark 0 p
    simp only [step, lookups, refusals, withheld]
    rcases hc : s.net.checkMark 0 p with ⟨_ | _,n'⟩ <;> rw [hc] at hcheck hsole hloader hmetrics
    · exact hcheck
    · exact .after_idle hcheck.1 hmetrics hloader (booked_markHit hsole)
  | goOn p canStart =>
    by_cases hp : p ∈ s.overtaken
    · simpa [step, lookups, refusals, withheld, hp] using booked_seekIn hs canStart p
    · simpa [step, lookups, refusals, withheld, hp] using Booked.same hs rfl rfl
  | net e =>
    cases he : isOwn e with
    | false =>
      have hl : s.lookups (.net e) = 0 := by
        cases e with
        | lookup m p =>
          have hm : m ≠ 0 := by simpa [isOwn, Network.Event.manager?] using he
          simp [lookups, hm]
        | _ => rfl
      have hw : s.withheld (.net e) = 0 := by
        cases e with
        | turn ref => simp [withheld, he]
        | _ => rfl
      simpa [step, he, hl, hw, refusals] using Booked.same hs rfl rfl
    | true =>
      simp only [step, he, if_true]
      cases e with
      | lookup m p =>
        obtain rfl : m = 0 := by simpa [isOwn, Network.Event.manager?] using he
        have hb := booked_lookupIn hs true p
        rw [lookupIn_true] at hb
        exact hb
      | turn ref =>
        have hm : ref.manager = 0 := by simpa [isOwn, Network.Event.manager?] using he
        simpa [lookups, refusals, withheld, he] using booked_turn hs hm
      | _ => exact booked_net hs he (by simp) (by simp)

/-! ## Runs -/

theorem addsUp_after (s : Metering) (hs : Sole s.net) {L R W : Nat} (h : AddsUp s.net L R W)
    (es : List Event) :
    AddsUp (s.after es).net (L + times lookups s es) (R + times refusals s es)
      (W + times withheld s es) := by
  induction es generalizing s L R W with
  | nil => exact h
  | cons e es ih =>
    have hb := step_booked s hs e
    have hsole := hb.sole hs
    obtain ⟨-,ms,hm,hf⟩ := hb
    have hadded := ih (s.step e) hsole (h.add hm hf)
    simp only [Nat.add_assoc] at hadded
    exact hadded

/-- The metrics of a manager add up after every event of every run. Lookups were answered by a mark
or came to the tokens, where each found a token, joined a load, started one or could not; every load
that was started runs, was lost or withheld, or has ended with a request; and a peer was marked for
every refusal. -/
theorem metrics_add_up (peers : List Peer) (config : TokenConfig) (es : List Event) :
    AddsUp ((start peers config).after es).net (times lookups (start peers config) es)
      (times refusals (start peers config) es) (times withheld (start peers config) es) := by
  have hsole : Sole (start peers config).net :=
    ⟨rfl,⟨.empty,fun id t ht => by cases ht⟩⟩
  have h := addsUp_after (start peers config) hsole (L := 0) (R := 0) (W := 0)
    ⟨rfl,rfl,Nat.le_refl _,rfl,rfl⟩ es
  simpa using h

/-- A lookup is overtaken by a refusal, and the request that it leads to is withheld. -/
example :
    let es : List Event := [.check 0, .net (.lookup 0 0), .net (.turn ⟨0,0⟩),
      .net (.deliver 0 (.of "421" ["me", "EXTJWT", "Unknown command"])), .net (.turn ⟨0,0⟩),
      .goOn 0 true, .net (.turn ⟨0,1⟩), .outside 1]
    let s := start [{ name := "irc" }, { name := "other" }] {}
    times lookups s es = 3 ∧ times refusals s es = 1 ∧ times withheld s es = 1 ∧
      (s.after es).net.counted "caches.channel.miss" [] = 2 := by
  decide +kernel

end Metering

end ChatToken
