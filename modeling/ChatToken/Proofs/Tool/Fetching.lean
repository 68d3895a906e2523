import ChatToken.Proofs.Stream.Handshake
import ChatToken.Proofs.Tool.Halting

/-! # A session fetches as planned

A load has a task only as long as the session waits for it. So when the session leaves, nothing is
under way, and the last that it says is that it leaves. Together with the progress of the session,
this is all that its plan asks for.
-/
namespace ChatToken.Session

open Network (Sent)

variable {s₀ s s' t : Session} {cs : List Session} {f : FetchStep} {lines : List String}

/-! ## Loads under way -/

def Attends (s : Session) : Prop :=
  ∀ ref, s.net.HasTask ref → ∃ attempt cached, s.stage = .asking attempt cached (.pending ref)

/-- No load is under way any more when the session makes a step. -/
theorem Attends.no_task (h : s.Attends) (hs : s.net.Single) (hstep : s.step = some s')
    (ref : LoadRef) : ¬ s.net.HasTask ref := by
  rintro ⟨t,ht⟩
  obtain ⟨attempt,cached,hstage⟩ := h ref ⟨t,ht⟩
  cases hending : s.net.ending? ref with
  | none =>
    have hnone : s.outcome? = none := by rw [outcome?_of_pending hstage, hending]; rfl
    rw [(step_of_asking hstage).mpr hnone] at hstep
    cases hstep
  | some ending =>
    rw [Network.task_of_ending hs.orderly hending] at ht
    cases ht

/-- Leaving starts no load. -/
theorem no_task_of_leave (hs : t.net.Single) (hno : ∀ ref, ¬ t.net.HasTask ref)
    (failure : Option SessionFailure) (ref : LoadRef) : ¬ (t.leave failure).net.HasTask ref := by
  let quit : Network.Event := .send 0 "QUIT" ["done"]
  have hleave : (t.leave failure).net = (t.net.step quit).step (.forget 0 0) := rfl
  rw [hleave]
  intro htask
  have hquit := Network.hasTask_of_step (hs.step quit).orderly (by simp) htask
  exact hno ref (Network.hasTask_of_step hs.orderly (by simp [quit]) hquit)

theorem attends_follow (hs : t.net.Single) (hno : ∀ ref, ¬ t.net.HasTask ref) (f : FetchStep) :
    (t.follow f).Attends := by
  intro ref ht
  cases f with
  | pause attempt => exact absurd ht (hno ref)
  | lookUp attempt =>
    have htask : (t.net.step (.lookup 0 0)).HasTask ref := ht
    rcases Network.hasTask_before hs.orderly htask with ht | ⟨p,he,habout⟩
    · exact absurd ht (hno ref)
    · obtain ⟨m,id⟩ := ref
      cases he
      have hanswer : (t.net.lookup 0 0).1 = .pending ⟨0,id⟩ := by
        rw [Network.lookup_answer hs.orderly (hs.manager ▸ Nat.one_pos)]
        exact congrArg (PeerState.answer 0) habout
      exact ⟨attempt,_,congrArg (SessionStage.asking attempt _) hanswer⟩
  | leave failure => exact absurd ht (no_task_of_leave hs hno _ ref)

theorem Reaches.attends (h : Reaches s₀ cs s) (h₀ : s₀.Started) : s.Attends := by
  induction h with
  | start => exact fun ref ht => absurd ht (h₀.idle ref)
  | drift h hd ih =>
    intro ref ht
    rw [hd.stage]
    exact ih ref (hd.net.hasTask (h.single h₀) ht)
  | step h hs ih =>
    have hsingle := h.single h₀
    have hnone := ih.no_task hsingle hs
    cases stepped hs with
    | rejected e hstage hpoll ht =>
      exact fun ref htask => absurd (ht.net.hasTask hsingle htask) (hnone ref)
    | followed hf ht =>
      exact attends_follow (hsingle.comes ht.net)
        (fun ref htask => hnone ref (ht.net.hasTask hsingle htask)) _

/-! ## Leaving -/

/-- A manager without loads knows nothing about a peer that it was told to forget. -/
theorem about_forget {n : Network} (hs : n.Single) (hno : ∀ ref, ¬ n.HasTask ref) :
    (n.forget 0 0).about 0 0 = .unknown := by
  have hm : 0 < n.managers.length := hs.manager ▸ Nat.one_pos
  have hforget : (n.forget 0 0).about 0 0 = (n.about 0 0).forgotten :=
    Network.step_about hs.orderly hm 0 (.forget 0 0)
  rw [hforget]
  cases habout : n.about 0 0 with
  | pending id =>
    obtain ⟨t,ht,-⟩ := (hs.orderly 0).about_eq_pending.mp habout
    exact absurd ⟨t,ht⟩ (hno ⟨0,id⟩)
  | _ => rfl

theorem forgotten_of_about {n : Network} (hn : n.Orderly) (h : n.about 0 0 = .unknown) :
    (n.manager 0).loader.cache.get? 0 = none ∧ (n.manager 0).loader.loading.get? 0 = none ∧
      (n.manager 0).marks.since.get? 0 = none := by
  have hholds := (hn 0).holds 0
  rw [Network.about] at h
  rw [h] at hholds
  exact ⟨hholds.token,hholds.load,hholds.mark⟩

/-- The session has left at the stop `c`, and nothing is under way. -/
structure Parted (c s : Session) : Prop where
  sent : ∃ pongs, Sent 0 c.net ((if (c.net.peer 0).connected then [.of "QUIT" ["done"]] else []) ++
    pongs) s.net ∧ ∀ m ∈ pongs, m.command = "PONG"
  once : ∀ m ∈ (c.net.peer 0).sent, m.command ≠ "QUIT"
  forgotten : s.net.about 0 0 = .unknown

theorem Parted.leftAt {c : Session} (h : Parted c s) (hs : s.net.Single) : LeftAt c s where
  sent := by
    obtain ⟨pongs,hsent,hpong⟩ := h.sent
    exact ⟨pongs,by rw [hsent, List.append_assoc],hpong⟩
  once := h.once
  forgotten := forgotten_of_about hs.orderly h.forgotten

theorem Parted.drift {c : Session} (h : Parted c s) (hs : s.net.Single)
    (hno : ∀ ref, ¬ s.net.HasTask ref) (hd : Drifts s s') : Parted c s' where
  sent := by
    obtain ⟨pongs,hsent,hpong⟩ := h.sent
    obtain ⟨more,hmore,hpong'⟩ := hd.net.pongs hs hno
    refine ⟨pongs ++ more,?_,fun m hm => (List.mem_append.mp hm).elim (hpong m) (hpong' m)⟩
    rw [Sent, hmore, hsent]
    simp only [List.append_assoc]
  once := h.once
  forgotten := hd.net.forgotten hs h.forgotten

theorem parted_leave (hs : s.net.Single) (hno : ∀ ref, ¬ s.net.HasTask ref)
    (hstays : ∀ m ∈ (s.net.peer 0).sent, m.command ≠ "QUIT") (ht : Prepares s lines t)
    (failure : Option SessionFailure) : Parted s (t.leave failure) := by
  have hsingle := hs.comes ht.net
  let quit : Network.Event := .send 0 "QUIT" ["done"]
  have hleave : (t.leave failure).net = (t.net.step quit).forget 0 0 := rfl
  refine ⟨⟨[],?_,by simp⟩,hstays,?_⟩
  · have hsent : ((t.net.step quit).peer 0).sent = _ := t.net.send_sent 0 0 "QUIT" ["done"]
    rw [Sent, hleave, (Network.inner_forget ..).sent, hsent, ht.sent, ht.connected]
    simp [hsingle.peer]
  · rw [hleave]
    exact about_forget (hsingle.step quit) fun ref htask =>
      hno ref (ht.net.hasTask hs (Network.hasTask_of_step hsingle.orderly (by simp [quit]) htask))

structure Parts (cs : List Session) (s : Session) : Prop where
  stays : s.isDone = false → ∀ m ∈ (s.net.peer 0).sent, m.command ≠ "QUIT"
  leaves : s.isDone = true → ∃ before c, cs = before ++ [c] ∧ Parted c s

theorem isDone_of_step (h : s.step = some s') : s.isDone = false := by
  unfold step at h
  unfold isDone
  cases hs : s.stage with
  | left => rw [hs] at h; cases h
  | _ => rfl

theorem Reaches.parts (h : Reaches s₀ cs s) (h₀ : s₀.Started) : Parts cs s := by
  induction h with
  | start =>
    refine ⟨fun _ => h₀.stays,fun h => ?_⟩
    rw [isDone, h₀.stage] at h
    cases h
  | @drift cs s s' h hd ih =>
    have hsingle := h.single h₀
    have hsame : s'.isDone = s.isDone := by rw [isDone, hd.stage]; rfl
    refine ⟨fun hs' => hd.net.stays hsingle (ih.stays (hsame ▸ hs')),fun hs' => ?_⟩
    obtain ⟨before,c,hcs,hparted⟩ := ih.leaves (hsame ▸ hs')
    refine ⟨before,c,hcs,hparted.drift hsingle (fun ref htask => ?_) hd⟩
    obtain ⟨attempt,cached,hstage⟩ := h.attends h₀ ref htask
    rw [hsame, isDone, hstage] at hs'
    cases hs'
  | @step cs s s' h hs ih =>
    have hsingle := h.single h₀
    have hidle := (h.attends h₀).no_task hsingle hs
    have hquiet := ih.stays (isDone_of_step hs)
    cases stepped hs with
    | rejected e hstage hpoll ht =>
      refine ⟨fun _ => ?_,fun hs' => by cases hs'⟩
      rw [ht.sent]
      exact hquiet
    | @followed f lines t hf ht =>
      cases f with
      | pause attempt =>
        refine ⟨fun _ => ?_,fun hs' => by cases hs'⟩
        change ∀ m ∈ (t.net.peer 0).sent, _
        rw [ht.sent]
        exact hquiet
      | lookUp attempt =>
        refine ⟨fun _ => ?_,fun hs' => by cases hs'⟩
        change ∀ m ∈ ((t.net.lookup 0 0).2.peer 0).sent, _
        rw [(Network.inner_lookup ..).sent, ht.sent]
        exact hquiet
      | leave failure =>
        refine ⟨fun hs' => ?_,fun _ => ⟨cs,s,rfl,parted_leave hsingle hidle hquiet ht _⟩⟩
        cases failure <;> cases hs'

/-! ## Whole sessions -/

/-- A manager that was asked nothing has no loads. -/
theorem no_task_of_start (peers : List Peer) (configs : List TokenConfig) (ref : LoadRef) :
    ¬ (Network.start peers configs).HasTask ref := by
  rintro ⟨t,ht⟩
  rw [Network.start_manager] at ht
  cases ht

/-- A session starts with its registration under way. Nothing has been asked for yet. -/
theorem started_start (plan : FetchPlan) (nick : String) (config : TokenConfig) :
    (start plan nick config).Started ∧ (start plan nick config).printed = [] := by
  let n := Network.connect { managers := [Manager.new config] } plan.address
  have hn : n.Opened 0 := Network.opened_connect (by simp) [config] plan.address
  have hs : n.Single :=
    ⟨Network.regular_connect (by simp) [config] plan.address,hn.timely,rfl,rfl⟩
  have hfresh : n.peer 0 = Peer.overStream plan.address := rfl
  let es : List Network.Event := [.listen 0 0 .registration registrationTimeout,
    .send 0 "NICK" [nick], .send 0 "USER" [nick, "0", "*", nick]]
  have hafter : (n.openRegistration holder 0 nick registrationTimeout).2 = n.after es :=
    Network.openRegistration_play (c := 0) hn.streams rfl rfl nick registrationTimeout
  have hopening : n.openRegistration holder 0 nick registrationTimeout = (.sent, n.after es) :=
    Prod.ext (congrArg Prod.fst (Network.openRegistration_eq hn.streams rfl ..)) hafter
  have hstart : start plan nick config = { plan, nick, net := n.after es } := by
    unfold start
    dsimp only
    rw [hopening]
  rw [hstart]
  refine ⟨⟨hs.after es,rfl,?_,fun ref htask => ?_,?_⟩,rfl⟩
  · have hlisten : ∃ x, (n.step (.listen 0 0 .registration registrationTimeout)).exchanges.get?
        holder = some x := ⟨_,rfl⟩
    obtain ⟨x,hx⟩ := hlisten
    exact ⟨x,((hs.step _).exchange_after (by simp [Network.Event.holder?])).trans hx⟩
  · exact no_task_of_start [.overStream plan.address] [config] ref
      (Network.hasTask_of_after hs.orderly (by simp [es]) htask)
  · have hsent : ((n.after es).peer 0).sent =
        [.of "NICK" [nick], .of "USER" [nick, "0", "*", nick]] := by
      rw [← hafter, Network.openRegistration_peer hn.streams hfresh]
    simp only [hsent, List.forall_mem_cons, List.not_mem_nil, IsEmpty.forall_iff, implies_true,
      and_true, Message.of]
    decide

/-- A tool that fetches tokens does what its plan says. Whatever the outcomes of its lookups are,
the plan has it look up one after another, with a pause before each but the first; print the tokens
that come before anything else, and no more than it was asked for; report a server without support
in one line, and fail with the first failure; look up nothing more then; and leave and forget the
server in each of these cases. And whatever happens to a session from its registration on, what it
has done at any point is what its plan says about the outcomes so far: it has printed, called and
sent just that, goes by what its manager has answered, has rested during the pauses, and has gone as
far as it can, so that what it waits for has not come: the result of the registration, the end of a
pause or that of a load. -/
theorem fetches_as_planned (plan : FetchPlan) (nick : String) (config : TokenConfig) :
    (∀ os, plan.Fetches os (plan.run os).1 (plan.run os).2) ∧
    ∀ es, CarriesOut (start plan nick config) ((start plan nick config).course es)
      ((start plan nick config).goOn.after es) := by
  refine ⟨plan.fetches_run,fun es => ?_⟩
  obtain ⟨h₀,hprinted⟩ := started_start plan nick config
  have h := reaches_course (start plan nick config) es
  have hrests := h.rests h₀
  exact {
    plan := h.plan
    registered := h.registered h₀
    follows := by
      rw [map_trace]
      exact h.follows h₀
    answered := fun _ c c' _ hcs =>
      List.isChain_iff_forall_rel_of_append_cons_cons.mp (h.answered h₀) hcs
    printed := by
      rw [map_trace, h.printed, hprinted, List.nil_append]
    calls := by
      rw [map_trace]
      exact h.calls
    pauses := fun before now d next later htrace =>
      List.isChain_iff_forall_rel_of_append_cons_cons.mp hrests.keeps htrace d rfl
    timer := hrests.timer
    halts := h₀.halts es
    leaves := fun hdone => by
      obtain ⟨before,c,hcs,hparted⟩ := (h.parts h₀).leaves hdone
      exact ⟨before,c,hcs,hparted.leftAt (h.single h₀)⟩ }

end ChatToken.Session
