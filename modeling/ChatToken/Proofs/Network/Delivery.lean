import ChatToken.Proofs.Network.Exchanges
import ChatToken.Proofs.Network.Requests

/-! # What connections deliver

Every event carries the exchanges on that it is not about: their connections deliver what
`delivers` says of the event, and nothing else happens to them.
-/
namespace ChatToken.Network

theorem Carries.congr {n n' : Network} {h : Option Holder} {ms ms' : Nat → List Message}
    (c : Carries h ms n n') (hm : ∀ p, ms p = ms' p) : Carries h ms' n n' := by
  rwa [← funext hm]

section
variable {n : Network}

theorem carries_deliver (ht : n.Tidy) (p : Nat) (m : Message) :
    Carries none (fun q => if p = q then [m] else []) n (n.deliver p m) :=
  (carries_onPeer ht p (Nat.le_refl _) fun id => .dispatch _ id m).then_inner (inner_wakeAll ..)

theorem carries_deliverLines (ht : n.Tidy) (p : Nat) (lines : List String) :
    Carries none (fun q => if p = q then messages lines else []) n
      (n.deliverLines p lines).2 := by
  induction lines generalizing n with
  | nil => exact (Carries.of_inner ht (.refl n)).congr (by simp [messages])
  | cons line lines ih =>
    unfold deliverLines messages
    cases Message.parse? line with
    | none => exact (Carries.of_inner ht (.refl n)).congr (by simp)
    | some m =>
      have hd := carries_deliver ht p m
      refine (hd.trans (ih hd.tidy)).congr ?_
      intro q
      split <;> rfl

/-- Nothing but what it delivers happens to a connection whose listeners stay as they are. -/
theorem carries_listeners (ht : n.Tidy) (p : Nat) {f : Peer → Peer}
    (hf : (f (n.peer p)).listeners = (n.peer p).listeners) :
    Carries none (fun _ => []) n (n.onPeer p f) := by
  have hnext : (n.peer p).listeners.nextId ≤ (f (n.peer p)).listeners.nextId := by rw [hf]
  have hr : ∀ id, (n.peer p).Relays (f (n.peer p)) id [] := fun id => .congr hf
  exact (carries_onPeer ht p hnext hr).congr (by simp)

theorem send_listeners (q : Peer) (command : String) (args : List String) :
    (q.send command args).2.listeners = q.listeners := by
  unfold Peer.send
  split
  · dsimp only
    split
    · split <;> rfl
    · rfl
  · rfl

def handed (n : Network) (p : Nat) (command : String) (args : List String) : Network :=
  (n.note (n.sendNotices p (Message.of command args))).onPeer p fun _ =>
    ((n.peer p).send command args).2

theorem send_eq (n : Network) (p : Nat) (command : String) (args : List String) :
    (n.send p command args).2 =
      match ((n.peer p).send command args).1 with
      | .error _ => n.handed p command args
      | .ok lines => ((n.handed p command args).deliverLines p lines).2 := by
  unfold send handed
  simp only [note_peer]
  rcases (n.peer p).send command args with ⟨_ | lines,changed⟩
  · rfl
  · dsimp only
    split <;> next h => rw [h]

theorem send_of_disconnected (n : Network) (command : String) (args : List String)
    {p : Nat} (hc : (n.peer p).connected = false) :
    (n.send p command args).1 = .failed (n.peer p).sendFailure := by
  have hs : (n.peer p).send command args = (.error (n.peer p).sendFailure, n.peer p) := by
    simp [Peer.send, hc]
  unfold send
  simp only [note_peer, hs]

theorem carries_send (ht : n.Tidy) (p : Nat) (command : String) (args : List String) :
    Carries none (fun q => if p = q then answers (n.peer p) command args else []) n
      (n.send p command args).2 := by
  have hh : Carries none (fun _ => []) n (n.handed p command args) :=
    .after_inner ht (inner_note ..) fun ht' => carries_listeners ht' p (send_listeners ..)
  rw [send_eq, answers]
  cases ((n.peer p).send command args).1 with
  | error cause => exact hh.congr (by simp)
  | ok lines =>
    refine (hh.trans (carries_deliverLines hh.tidy p lines)).congr ?_
    intro q
    rw [List.nil_append]

theorem carries_endStream (ht : n.Tidy) (p : Nat) :
    Carries none (fun _ => []) n (n.endStream p) := by
  have hr : ∀ id, (n.peer p).Relays (n.peer p).endReading id [] := fun id =>
    .drop fun _ _ hh => ⟨by simp [Peer.endReading],hh.inbox,hh.known⟩
  have hd : Carries none (fun _ => []) n (n.onPeer p Peer.endReading) :=
    (carries_onPeer ht p (Nat.le_refl _) hr).congr (by simp)
  exact hd.then_inner ((inner_note ..).trans (inner_wakeAll ..))

theorem handle_listeners {q changed : Peer} {m : Message} (h : q.handle m = some changed) :
    changed.listeners = q.listeners := by
  unfold Peer.handle Peer.queue at h
  split at h
  · split at h
    · cases h
      rfl
    · cases h
  · split at h
    · cases h
      rfl
    · cases h
      rfl

theorem carries_accept (ht : n.Tidy) (p : Nat) (m : Message) :
    Carries none (fun q => if p = q then if ((n.peer p).handle m).isSome then [m] else [] else []) n
      (n.accept p m) := by
  obtain ⟨notices,h⟩ := n.accept_eq p m
  rw [h]
  cases hh : (n.peer p).handle m with
  | some changed =>
    refine .after_inner ht (n.inner_note notices) fun ht' => ?_
    have hc := carries_listeners ht' p (f := fun _ => changed) (handle_listeners hh)
    refine (hc.trans (carries_deliver hc.tidy p m)).congr ?_
    simp
  | none =>
    exact .after_inner ht (n.inner_note notices) fun ht' => (carries_endStream ht' p).congr (by simp)

theorem carries_receive (ht : n.Tidy) (p : Nat) (r : Received) :
    Carries none (fun q => if p = q then accepted (n.peer p) r else []) n (n.receive p r) := by
  have hnone := Carries.of_inner ht (.refl n)
  unfold receive
  cases r with
  | failed reason =>
    have hd : Carries none (fun _ => []) n ((n.note [.readFailed reason]).endStream p) :=
      .after_inner ht (inner_note ..) fun ht' => carries_endStream ht' p
    split
    · exact hd.congr (by simp [accepted])
    · exact hnone.congr (by simp [accepted])
  | line line =>
    unfold accepted
    cases hr : (n.peer p).isReading with
    | false =>
      simp only [Bool.false_eq_true, if_false, Bool.false_and]
      refine hnone.congr ?_
      intro q
      split
      · split <;> rfl
      · rfl
    | true =>
      simp only [if_true, Bool.true_and]
      cases Message.parse? line with
      | none => exact (Carries.of_inner ht (inner_note ..)).congr (by simp)
      | some m => exact .after_inner ht (inner_note ..) fun ht' => carries_accept ht' p m

/-! ## Turns -/

theorem carries_pollRequest (ht : n.Tidy) (h : Holder) :
    Carries (some h) (fun _ => []) n (n.pollRequest h).2 := by
  have hc := carries_pollExchange ht h
  unfold pollRequest
  rcases hp : n.pollExchange h with ⟨_ | result,n'⟩ <;> rw [hp] at hc
  · exact hc
  · exact hc.then_inner (inner_note ..)

theorem carries_inquire (ht : n.Tidy) (ref : LoadRef) :
    Carries (some (.load ref)) (fun _ => []) n (n.inquire ref).2 := by
  have hc := carries_pollRequest ht (.load ref)
  unfold inquire
  rcases hp : n.pollRequest (.load ref) with ⟨_ | result,n'⟩ <;> rw [hp] at hc <;> exact hc

theorem carries_failRequest (ht : n.Tidy) (h : Holder) (cause : String) :
    Carries (some h) (fun _ => []) n (n.failRequest h cause).2 :=
  .after_inner ht (inner_note ..) fun ht' => carries_closeExchange ht' h

theorem answers_face (q : Peer) (command : String) (args : List String) :
    answers q.face command args = answers q command args := by
  unfold answers
  rw [Peer.send_face]

/-- A request is sent when its exchange listens already. -/
theorem carries_openRequest (ht : n.Tidy) (h : Holder) (p : Nat) (service : Option String)
    (timeout : Span) :
    Carries (some h) (fun q => if p = q then answers (n.peer q) Reply.extjwt
      (Reply.anyTarget :: service.toList) else []) n (n.openRequest h p service timeout).2 := by
  have ho := carries_openExchange ht h p .extjwt timeout
  have hq := n.quiet_openExchange h p .extjwt timeout
  refine (ho.trans ((carries_send ho.tidy p Reply.extjwt
    (Reply.anyTarget :: service.toList)).weaken _)).congr ?_
  intro q
  rw [List.nil_append]
  split
  · next hpq => rw [← answers_face, hq.face, answers_face, hpq]
  · rfl

theorem carries_ask (ht : n.Tidy) (ref : LoadRef) (p : Nat) :
    Carries (some (.load ref)) (fun q => if p = q then answers (n.peer q) Reply.extjwt
      (Reply.anyTarget :: (n.manager ref.manager).config.service.toList) else []) n
      (n.ask ref p).2 := by
  have ha := n.inner_arrive ref p
  refine .after_inner ht ha fun ht' => ?_
  simp only [← ha.peer]
  exact carries_openRequest ht' ..

theorem Worked.carries {ref : LoadRef} {t : LoadTask Nat Token TokenError} {w : Turn}
    {n' : Network} (h : Worked n ref t w n') (ht : n.Tidy)
    (hgoes : (n.arrive ref t.key).1 = false) :
    Carries (some (.load ref)) (fun q => if t.begun = false ∧ t.key = q then
      answers (n.peer q) Reply.extjwt
        (Reply.anyTarget :: (n.manager ref.manager).config.service.toList) else []) n n' := by
  have hask := carries_ask ht ref t.key
  cases h with
  | resumed hb => exact (carries_inquire ht ref).congr (by simp [hb])
  | withheld _ ha => rw [hgoes] at ha; cases ha
  | sent hb => exact (hask.trans (carries_inquire hask.tidy ref)).congr (by simp [hb])
  | failed cause hb => exact (hask.trans (carries_failRequest hask.tidy _ cause)).congr (by simp [hb])
  | broken line hb => exact hask.congr (by simp [hb])

theorem carries_dropLoad (ht : n.Tidy) (ref : LoadRef) :
    Carries (some (.load ref)) (fun _ => []) n (n.dropLoad ref) := by
  have hi := (n.closeExchange (.load ref)).inner_onManager ref.manager
    fun g => { g with loader := g.loader.abandon ref.load }
  exact (carries_closeExchange ht (.load ref)).then_inner ⟨hi.peers,hi.exchanges,hi.now,hi.length⟩

theorem carries_record (ht : n.Tidy) (ref : LoadRef) (p : Nat) (w : Turn) :
    Carries (some (.load ref)) (fun _ => []) n (n.record ref p w) := by
  have hi : ∀ {n' : Network}, Inner n n' → Carries (some (.load ref)) (fun _ => []) n n' :=
    fun hi => (Carries.of_inner ht hi).weaken _
  cases w with
  | withheld =>
    rw [record]
    exact hi ((n.inner_note [.requestWithheld p]).trans (inner_finishLoad _ ref _))
  | waits => exact hi (.refl n)
  | ended result => exact hi (n.inner_concludeLoad ref p result)
  | died => exact carries_dropLoad ht ref

theorem carries_runLoad (hn : n.Orderly) (ht : n.Tidy) (ref : LoadRef) :
    Carries (some (.load ref)) (fun q => n.delivers q (.turn ref)) n (n.runLoad ref) := by
  cases htask : (n.manager ref.manager).loader.tasks.get? ref.load with
  | none =>
    rw [runLoad_of_gone n htask]
    exact ((Carries.of_inner ht (.refl n)).weaken _).congr (by simp [delivers, asks?, htask])
  | some t =>
    have hw := (n.work_worked ref t).carries ht (arrive_of_sound (hn _) htask).1
    rw [runLoad_eq n htask]
    refine (hw.trans (carries_record hw.tidy ref t.key _)).congr ?_
    intro q
    rw [delivers, asks?_eq hn htask, List.append_nil]
    cases t.begun <;> simp

/-! ## Requests that cannot be sent -/

theorem Quiet.sendFailure {n' : Network} (h : Quiet n n') (q : Nat) :
    (n'.peer q).sendFailure = (n.peer q).sendFailure := by
  have hf := congrArg Peer.sendFailure (h.face q)
  exact hf

theorem openRequest_of_disconnected (n : Network) {p : Nat} (hc : (n.peer p).connected = false)
    (h : Holder) (service : Option String) (timeout : Span) :
    (n.openRequest h p service timeout).1 = .failed (n.peer p).sendFailure := by
  have ho := n.quiet_openExchange h p .extjwt timeout
  have hc' : ((n.openExchange h p .extjwt timeout).peer p).connected = false :=
    (ho.connected p).trans hc
  rw [openRequest, send_of_disconnected _ _ _ hc', ho.sendFailure]

/-- A request that cannot be sent ends its load at once. -/
theorem ends_of_disconnected (hn : n.Orderly) {ref : LoadRef} {p : Nat}
    (hasks : n.asks? ref = some p) (hc : (n.peer p).connected = false) :
    n.Ends (.turn ref) ref (.failed (.sendFailed (n.peer p).sendFailure)) := by
  obtain ⟨t,ht,hb,rfl⟩ := (asks?_eq_some hn).mp hasks
  let c := n.called ref
  have hgoes := (arrive_of_sound (n := c) (hn _) ht).1
  have ha := c.inner_arrive ref t.key
  have hask : (c.ask ref t.key).1 = .failed (n.peer t.key).sendFailure := by
    have hc' : ((c.arrive ref t.key).2.peer t.key).connected = false := by rwa [ha.peer]
    rw [ask, openRequest_of_disconnected _ hc', ha.peer]
    rfl
  have hwork : (c.work ref t).1 = .ended (.error (.sendFailed (n.peer t.key).sendFailure)) := by
    unfold work
    rw [hb, hgoes]
    rcases hs : c.ask ref t.key with ⟨_ | cause | line,n'⟩ <;> rw [hs] at hask <;> cases hask
    rfl
  have hd := n.deed?_turn ht
  rw [hwork] at hd
  exact ends_of_finish hn hd

/-! ## Events -/

/-- Every event carries the exchanges on that it is not about. -/
theorem step_carries (hn : n.Orderly) (ht : n.Tidy) (e : Event) :
    Carries e.holder? (fun q => n.delivers q e) n (n.step e) := by
  have hi : ∀ {n' : Network}, Inner n n' → Carries none (fun _ => []) n n' :=
    fun hi => .of_inner ht hi
  cases e with
  | lookup m p => exact hi (n.inner_lookup m p)
  | isUnsupported m p => exact hi (n.inner_checkMark m p)
  | forget m p => exact hi (n.inner_forget m p)
  | observe ref => exact hi (n.inner_observe ref)
  | turn ref =>
    have hready : Inner n (n.called ref) := ⟨rfl,rfl,rfl,rfl⟩
    exact .after_inner ht hready fun ht' =>
      carries_runLoad (n := n.called ref) hn ht' ref
  | die ref => exact carries_dropLoad ht ref
  | listen c p matcher timeout =>
    simp only [step]
    split
    · exact (hi (.refl n)).weaken _
    · exact carries_openExchange ht ..
  | look c => exact carries_pollExchange ht _
  | hangUp c => exact carries_closeExchange ht _
  | send p command args =>
    refine (carries_send ht p command args).congr ?_
    intro q
    simp only [delivers]
    split
    · next hq => rw [hq]
    · rfl
  | deliver p m => exact carries_deliver ht p m
  | disconnect p =>
    have hd := (carries_onPeer ht p (f := Peer.disconnect) (Nat.le_refl _) fun id =>
      .drop fun _ _ hh => hh.disconnect).then_inner (inner_wakeAll _ (n.loadsListening p))
    exact hd.congr (by simp [delivers])
  | receive p r =>
    refine (carries_receive ht p r).congr ?_
    intro q
    simp only [delivers]
    split
    · next hq => rw [hq]
    · rfl
  | finishStream p =>
    simp only [step, finishStream]
    split
    · exact carries_endStream ht p
    · exact hi (.refl n)
  | failWriting p reason =>
    simp only [step, failWriting]
    split
    · exact (carries_listeners ht p rfl).then_inner (inner_note ..)
    · exact hi (.refl n)
  | prepare p replies => exact carries_listeners ht p rfl
  | advertise p name value => exact carries_listeners ht p rfl
  | pass nanos => exact .of_eq ht rfl rfl
  | sound =>
    have hs : Inner n { n with sounded := Clock.tick n.now } := ⟨rfl,rfl,rfl,rfl⟩
    exact hi (hs.trans (inner_wakeAll ..))

end

end ChatToken.Network
