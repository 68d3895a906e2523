import ChatToken.Proofs.Network.Alike
import ChatToken.Proofs.Network.Attention
import ChatToken.Proofs.Network.Correlation
import ChatToken.Proofs.Stream.Loop
import ChatToken.Tool.Run

/-! # What a tool does not do itself

Between the calls of a tool the loads that it has started go on, and its connection answers pings.
So what is sent without a call is a request of a load or a pong, and no load is started.
-/
namespace ChatToken.Network

variable {n n' n'' : Network} {calls calls' : List Event}

/-! ## Calls add up -/

theorem Comes.trans (h : n.Comes calls n') (h' : n'.Comes calls' n'') :
    n.Comes (calls ++ calls') n'' := by
  induction h' with
  | refl => rwa [List.append_nil]
  | called e _ he ih =>
    rw [← List.append_assoc]
    exact .called e ih he
  | passed e _ he ih => exact .passed e ih he
  | noted notices _ ih => exact .noted notices ih
  | timed _ ih => exact .timed ih

theorem Comes.then_idle (h : n.Comes calls n') (h' : n'.Comes [] n'') : n.Comes calls n'' := by
  have hboth := h.trans h'
  rwa [List.append_nil] at hboth

theorem comes_call (n : Network) {e : Event} (he : e.isPassive = false) : n.Comes [e] (n.step e) :=
  .called e .refl he

theorem comes_step (n : Network) {e : Event} (he : e.isPassive = true) : n.Comes [] (n.step e) :=
  .passed e .refl he

theorem comes_after (n : Network) {es : List Event} (hes : ∀ e ∈ es, e.isPassive = true) :
    n.Comes [] (n.after es) := by
  induction es generalizing n with
  | nil => exact .refl
  | cons e es ih =>
    obtain ⟨he,hes⟩ := List.forall_mem_cons.mp hes
    exact (n.comes_step he).then_idle (ih (n.step e) hes)

theorem comes_settle (n : Network) : n.Comes [] n.settle := by
  obtain ⟨refs,h⟩ := n.run_eq_after n.turnBound
  rw [settle, h]
  refine n.comes_after fun e he => ?_
  obtain ⟨ref,-,rfl⟩ := List.mem_map.mp he
  rfl

/-- What every event keeps, and what does not depend on reports and tickets, holds all the time. -/
theorem Comes.keeps {P : Network → Prop} (h : n.Comes calls n') (hn : P n)
    (hcall : ∀ n e, e ∈ calls → P n → P (n.step e))
    (hpassed : ∀ n e, e.isPassive = true → P n → P (n.step e))
    (hnoted : ∀ n notices, P n → P (n.note notices))
    (htimed : ∀ n, P n → P { n with tickets := n.tickets + 1 }) : P n' := by
  induction h with
  | refl => exact hn
  | called e _ _ ih =>
    exact hcall _ e (by simp) (ih fun n e' he' => hcall n e' (List.mem_append_left _ he'))
  | passed e _ he ih => exact hpassed _ e he (ih hcall)
  | noted notices _ ih => exact hnoted _ notices (ih hcall)
  | timed _ ih => exact htimed _ (ih hcall)

/-! ## One manager and one connection -/

structure Single (n : Network) : Prop where
  regular : n.Regular
  timely : n.Timely
  manager : n.managers.length = 1
  peer : n.peers.length = 1

theorem Single.orderly (h : n.Single) : n.Orderly := h.regular.orderly

theorem Single.step (h : n.Single) (e : Event) : (n.step e).Single where
  regular := h.regular.step e
  timely := (h.timely.act (.event e)).2
  manager := (n.step_managers_length e).trans h.manager
  peer := (n.step_peers_length e).trans h.peer

theorem Single.after (h : n.Single) (es : List Event) : (n.after es).Single := by
  induction es generalizing n with
  | nil => exact h
  | cons e es ih => exact ih (h.step e)

theorem Single.comes (h : n.Single) (hc : n.Comes calls n') : n'.Single :=
  hc.keeps h (fun _ e _ hn => hn.step e) (fun _ e _ hn => hn.step e)
    (fun n notices hn =>
      ⟨hn.regular.inner (n.inner_note notices) rfl (n.still_note notices),hn.timely,hn.manager,
        hn.peer⟩)
    fun _ hn =>
      ⟨hn.regular.inner ⟨rfl,rfl,rfl,rfl⟩ rfl ⟨rfl,rfl⟩,hn.timely,hn.manager,hn.peer⟩

/-- Whoever does not look at an exchange does not touch it. -/
theorem Single.exchange_after (h : n.Single) {c : Holder} {es : List Event}
    (hes : ∀ e ∈ es, e.holder? ≠ some c) :
    (n.after es).exchanges.get? c = n.exchanges.get? c := by
  induction es generalizing n with
  | nil => rfl
  | cons e es ih =>
    obtain ⟨he,hes⟩ := List.forall_mem_cons.mp hes
    have hc := step_carries h.orderly h.regular.owned.tidy e
    exact (ih (h.step e) hes).trans (hc.exchanges c he)

/-! ## Passive events -/

def HasTask (n : Network) (ref : LoadRef) : Prop :=
  ∃ t, (n.manager ref.manager).loader.tasks.get? ref.load = some t

/-- No load is started but by a lookup, whose peer it is about. -/
theorem hasTask_before (hn : n.Orderly) {e : Event} {ref : LoadRef} (h : (n.step e).HasTask ref) :
    n.HasTask ref ∨ ∃ p, e = .lookup ref.manager p ∧
      (n.step e).about ref.manager p = .pending ref.load := by
  obtain ⟨t,ht⟩ := h
  have hm : ref.manager < n.managers.length := n.step_managers_length e ▸ lt_of_task ht
  rcases step_moved hn hm e with hl | ⟨d,hd,hl⟩
  · exact .inl ⟨t,hl ▸ ht⟩
  · rcases hl.task ht with h | ⟨-,-,t₀,h,-⟩ | ⟨-,-,rfl⟩
    · exact .inl ⟨t,h⟩
    · exact .inl ⟨t₀,h⟩
    · have ho := hn.step e
      exact .inr ⟨t.key,(event_of_deed? hd).1 _ rfl,
        (ho _).about_eq_pending.mpr ⟨t,ht,rfl,(ho _).live _ _ ht⟩⟩

theorem hasTask_of_step (hn : n.Orderly) {e : Event} (he : ∀ m p, e ≠ .lookup m p) {ref : LoadRef}
    (h : (n.step e).HasTask ref) : n.HasTask ref :=
  (hasTask_before hn h).resolve_right fun ⟨_,hlookup,_⟩ => he _ _ hlookup

theorem hasTask_of_after (hn : n.Orderly) {es : List Event} (hes : ∀ e ∈ es, ∀ m p, e ≠ .lookup m p)
    {ref : LoadRef} (h : (n.after es).HasTask ref) : n.HasTask ref := by
  induction es generalizing n with
  | nil => exact h
  | cons e es ih =>
    obtain ⟨he,hes⟩ := List.forall_mem_cons.mp hes
    exact hasTask_of_step hn he (ih (hn.step e) hes h)

theorem Event.ne_lookup_of_passive {e : Event} (he : e.isPassive = true) (m p : Nat) :
    e ≠ .lookup m p := by
  rintro rfl
  cases he

def Sent (p : Nat) (n : Network) (ms : List Message) (n' : Network) : Prop :=
  (n'.peer p).sent = (n.peer p).sent ++ ms

theorem Quiet.sent_nil (h : Quiet n n') (p : Nat) : Sent p n [] n' := by
  rw [Sent, h.sent p, List.append_nil]

theorem sent_nil_onPeer (n : Network) (q : Nat) {f : Peer → Peer} (hf : ∀ q, (f q).sent = q.sent)
    (p : Nat) : Sent p n [] (n.onPeer q f) := by
  rw [Sent, peer_onPeer, List.append_nil]
  split
  · exact hf _
  · rfl

theorem endStream_sent_nil (n : Network) (q p : Nat) : Sent p n [] (n.endStream q) := by
  have hend := (n.sent_nil_onPeer q (f := Peer.endReading) (fun _ => rfl) p)
  rw [Sent] at hend ⊢
  rw [endStream, (quiet_wakeAll ..).sent]
  exact hend

/-- A connection answers nothing but pings by itself. -/
theorem receive_pongs (n : Network) (q : Nat) (r : Received) {p : Nat} (hp : p < n.peers.length) :
    ∃ ms, Sent p n ms (n.receive q r) ∧ ∀ m ∈ ms, m.command = "PONG" := by
  have same : ∀ {n' : Network}, (n'.peer p).sent = (n.peer p).sent →
      ∃ ms, Sent p n ms n' ∧ ∀ m ∈ ms, m.command = "PONG" :=
    fun h => ⟨[],by rw [Sent, h, List.append_nil],by simp⟩
  by_cases hq : q = p
  · subst hq
    have hpeer : (n.receive q r).peer q = (n.peer q).undergo (.receive r) := receive_peer hp r
    have hin := (n.peer q).intake r
    rw [← hpeer] at hin
    generalize hms : accepted (n.peer q) r = ms, hq' : (n.receive q r).peer q = q' at hin
    cases hin with
    | handled line m changed hr hl hh =>
      have hsent : ((n.receive q (.line line)).peer q).sent = (n.peer q).sent ++
          if m.command = "PING" then [Peer.pong m] else [] := by
        rw [hq', Peer.handle_eq_some hh]
        rfl
      refine ⟨_,hsent,fun m' hm' => ?_⟩
      split at hm'
      · rw [List.mem_singleton.mp hm']
        rfl
      · cases hm'
    | idle | rejected => exact same (congrArg Peer.sent hq')
    | unanswered | failed => exact same ((congrArg Peer.sent hq').trans rfl)
  · exact same (congrArg Peer.sent ((n.only_receive q r).elsewhere p hq))

/-- What is sent over the connection in a passive event is a pong, or the request of a load. -/
theorem sent_of_passive (hn : n.Orderly) {p : Nat} (hp : p < n.peers.length) {e : Event}
    (he : e.isPassive = true) : ∃ ms, Sent p n ms (n.step e) ∧
      ((∀ m ∈ ms, m.command = "PONG") ∨
      ((∃ ref, n.HasTask ref) ∧ ∀ m ∈ ms, m.command = Reply.extjwt)) := by
  have nothing : ∀ {n' : Network}, Sent p n [] n' → ∃ ms, Sent p n ms n' ∧
      ((∀ m ∈ ms, m.command = "PONG") ∨
      ((∃ ref, n.HasTask ref) ∧ ∀ m ∈ ms, m.command = Reply.extjwt)) :=
    fun h => ⟨[],h,.inl (by simp)⟩
  cases e with
  | observe ref => exact nothing (step_sent hn rfl p)
  | turn ref =>
    refine ⟨n.sends p (.turn ref),step_sent hn rfl p,?_⟩
    simp only [sends]
    split
    · next h =>
      obtain ⟨t,ht,-⟩ := (asks?_eq_some hn).mp h.1
      refine .inr ⟨⟨ref,t,ht⟩,fun m hm => ?_⟩
      rw [List.mem_singleton.mp hm]
      exact request_command _
    · exact .inl (by simp)
  | look c => exact nothing ((n.quiet_pollExchange _).sent_nil p)
  | receive q r =>
    obtain ⟨ms,hms,hpong⟩ := n.receive_pongs q r hp
    exact ⟨ms,hms,.inl hpong⟩
  | finishStream q =>
    refine nothing ?_
    simp only [step, finishStream]
    split
    · exact n.endStream_sent_nil q p
    · exact (Quiet.refl n).sent_nil p
  | failWriting q reason =>
    refine nothing ?_
    simp only [step, failWriting]
    split
    · exact n.sent_nil_onPeer q (f := Peer.endWriting) (fun _ => rfl) p
    · exact (Quiet.refl n).sent_nil p
  | pass nanos => exact nothing (List.append_nil _).symm
  | sound => exact nothing ((quiet_wakeAll ..).sent_nil p)
  | _ => cases he

/-! ## Between the calls -/

/-- Without calls, what holds of a single network is kept if passive events keep it. -/
theorem Comes.keeps_idle {P : Network → Prop} (h : n.Comes [] n') (hs : n.Single) (hn : P n)
    (hpassed : ∀ n e, n.Single → e.isPassive = true → P n → P (n.step e))
    (hnoted : ∀ n notices, P n → P (n.note notices))
    (htimed : ∀ n, P n → P { n with tickets := n.tickets + 1 }) : P n' := by
  have hboth := h.keeps (P := fun n => n.Single ∧ P n) ⟨hs,hn⟩ (fun _ _ he => by cases he)
    (fun n e he hn => ⟨hn.1.step e,hpassed n e hn.1 he hn.2⟩)
    (fun n notices hn => ⟨hn.1.comes (.noted notices .refl),hnoted n notices hn.2⟩)
    fun n hn => ⟨hn.1.comes (.timed .refl),htimed n hn.2⟩
  exact hboth.2

theorem Comes.hasTask (h : n.Comes [] n') (hs : n.Single) {ref : LoadRef} (ht : n'.HasTask ref) :
    n.HasTask ref :=
  h.keeps_idle hs (P := fun n' => n'.HasTask ref → n.HasTask ref) id
    (fun _ _ hs he hn ht => hn (hasTask_of_step hs.orderly (Event.ne_lookup_of_passive he) ht))
    (fun _ _ hn => hn) (fun _ hn => hn) ht

/-- Neither a pong nor a request is the message that the tool leaves with. -/
theorem Comes.stays (h : n.Comes [] n') (hs : n.Single)
    (hn : ∀ m ∈ (n.peer 0).sent, m.command ≠ "QUIT") :
    ∀ m ∈ (n'.peer 0).sent, m.command ≠ "QUIT" := by
  refine h.keeps_idle hs (P := fun n => ∀ m ∈ (n.peer 0).sent, m.command ≠ "QUIT") hn
    (fun n e hs he hn m hm => ?_) (fun _ _ hn => hn) fun _ hn => hn
  obtain ⟨ms,hms,hkind⟩ := sent_of_passive hs.orderly (hs.peer ▸ Nat.one_pos) he
  rw [hms, List.mem_append] at hm
  rcases hm with hm | hm
  · exact hn m hm
  · rcases hkind with hpong | ⟨-,hrequest⟩
    · rw [hpong m hm]
      decide
    · rw [hrequest m hm]
      decide

/-- Where no load is under way, nothing but pongs is sent. -/
theorem Comes.pongs (h : n.Comes [] n') (hs : n.Single) (hno : ∀ ref, ¬ n.HasTask ref) :
    ∃ ms, Sent 0 n ms n' ∧ ∀ m ∈ ms, m.command = "PONG" := by
  have hboth : (∀ ref, ¬ n'.HasTask ref) ∧ ∃ ms, Sent 0 n ms n' ∧ ∀ m ∈ ms, m.command = "PONG" := by
    refine h.keeps_idle hs (P := fun n' => (∀ ref, ¬ n'.HasTask ref) ∧
        ∃ ms, Sent 0 n ms n' ∧ ∀ m ∈ ms, m.command = "PONG")
      ⟨hno,[],(List.append_nil _).symm,by simp⟩ (fun n' e hs he hn => ?_) (fun _ _ hn => hn)
      fun _ hn => hn
    obtain ⟨hno,ms,hms,hpong⟩ := hn
    obtain ⟨ms',hms',hkind⟩ := sent_of_passive hs.orderly (p := 0) (hs.peer ▸ Nat.one_pos) he
    have hidle := fun ref (ht : (n'.step e).HasTask ref) =>
      hno ref (hasTask_of_step hs.orderly (Event.ne_lookup_of_passive he) ht)
    refine ⟨hidle,ms ++ ms',?_,?_⟩
    · rw [Sent, hms', hms, List.append_assoc]
    · have hpong' := hkind.resolve_right fun hr => (hr.1.elim hno)
      intro m hm
      exact (List.mem_append.mp hm).elim (hpong m) (hpong' m)
  exact hboth.2

/-- What a manager has forgotten stays forgotten as long as it is not asked. -/
theorem Comes.forgotten (h : n.Comes [] n') (hs : n.Single) (hn : n.about 0 0 = .unknown) :
    n'.about 0 0 = .unknown := by
  refine h.keeps_idle hs (P := fun n => n.about 0 0 = .unknown) hn (fun n e hs he hn => ?_)
    (fun _ _ hn => hn) fun _ hn => hn
  rcases step_settled hs.orderly (hs.manager ▸ Nat.one_pos) (p := 0) (by rw [hn]; rfl) e with
    ⟨rfl,-⟩ | ⟨rfl,-⟩ | hsame | hexpire
  · cases he
  · cases he
  · rw [hsame, hn]
  · rw [hexpire, hn]
    rfl

end ChatToken.Network
