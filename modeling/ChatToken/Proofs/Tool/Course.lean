import ChatToken.Proofs.Network.Agrees
import ChatToken.Proofs.Tool.Calls
import ChatToken.Proofs.Tool.Plan

/-! # The course of a session

Between its stops a session drifts: what comes from outside and what its loads do changes its
network, but not what it waits for. A step either notes that the server does not accept the
connection, or it follows the plan. So what is done at the stops adds up.
-/
namespace ChatToken.Session

variable {s₀ s s' t : Session} {cs : List Session}

/-! ## Drifting and stopping -/

structure Drifts (s s' : Session) : Prop where
  plan : s'.plan = s.plan
  stage : s'.stage = s.stage
  printed : s'.printed = s.printed
  net : s.net.Comes [] s'.net

/-- From `s₀` the session has come to `s` along the stops `cs`. -/
inductive Reaches (s₀ : Session) : List Session → Session → Prop where
  | start : Reaches s₀ [] s₀
  | drift {cs : List Session} {s s' : Session} (h : Reaches s₀ cs s) (hd : Drifts s s') :
    Reaches s₀ cs s'
  | step {cs : List Session} {s s' : Session} (h : Reaches s₀ cs s) (hs : s.step = some s') :
    Reaches s₀ (cs ++ [s]) s'

/-- The session has just been started. -/
structure Started (s : Session) : Prop where
  single : s.net.Single
  stage : s.stage = .registering
  registers : ∃ x, s.net.exchanges.get? holder = some x
  idle : ∀ ref, ¬ s.net.HasTask ref
  stays : ∀ m ∈ (s.net.peer 0).sent, m.command ≠ "QUIT"

theorem drifts_look (s : Session) : Drifts s s.look := by
  unfold look
  split
  · exact ⟨rfl,rfl,rfl,s.net.comes_step (e := .look 0) rfl⟩
  · exact ⟨rfl,rfl,rfl,.refl⟩

theorem Reaches.settle (h : Reaches s₀ cs s) : Reaches s₀ cs { s with net := s.net.settle } :=
  h.drift ⟨rfl,rfl,rfl,s.net.comes_settle⟩

theorem Reaches.turn (h : Reaches s₀ cs s) (steps : Nat) :
    Reaches s₀ (cs ++ stops steps s) (turn steps s) := by
  induction steps generalizing cs s with
  | zero =>
    rw [stops, List.append_nil]
    exact h
  | succ steps ih =>
    have hsettled := h.settle
    rw [stops, Session.turn]
    cases hs : ({ s with net := s.net.settle } : Session).step with
    | none =>
      rw [List.append_nil]
      exact hsettled.drift (drifts_look _)
    | some s' =>
      have hrest := ih (hsettled.step hs)
      rw [List.append_assoc] at hrest
      exact hrest

/-- What comes from outside is passive, and nobody looks at an exchange in it. -/
theorem meet_eq_after (s : Session) (e : Event) : ∃ es : List Network.Event,
    (s.meet e).net = s.net.after es ∧ ∀ e ∈ es, e.isPassive = true ∧ e.holder? = none := by
  have hreceive : ∀ rs, s.net.receiveAll 0 rs = s.net.after (rs.map (.receive 0)) := by
    intro rs
    rw [Network.after, List.foldl_map]
    rfl
  let passing (now : Nat) : Network.Event := .pass (max now s.net.now - s.net.now)
  have hat : ∀ now, (s.at_ now).net = s.net.step (passing now) := by
    intro now
    rw [at_, Network.step, Nat.add_sub_cancel' (Nat.le_max_right ..)]
  have hquiet : ∀ rs : List Received, ∀ e ∈ rs.map (Network.Event.receive 0),
      e.isPassive = true ∧ e.holder? = none := by
    intro rs e he
    obtain ⟨r,-,rfl⟩ := List.mem_map.mp he
    exact ⟨rfl,rfl⟩
  cases e with
  | receive bytes => exact ⟨_,hreceive _,hquiet _⟩
  | finishStream =>
    refine ⟨s.reader.finish.map (.receive 0) ++ [.finishStream 0],?_,?_⟩
    · rw [Network.after_append, ← hreceive]
      rfl
    · exact List.forall_mem_append.mpr ⟨hquiet _,List.forall_mem_singleton.mpr ⟨rfl,rfl⟩⟩
  | failWriting reason =>
    exact ⟨[.failWriting 0 reason],rfl,List.forall_mem_singleton.mpr ⟨rfl,rfl⟩⟩
  | pass now => exact ⟨[passing now],hat now,List.forall_mem_singleton.mpr ⟨rfl,rfl⟩⟩
  | moveTo now =>
    have hsound : ∀ e ∈ [Network.Event.sound], e.isPassive = true ∧ e.holder? = none :=
      List.forall_mem_singleton.mpr ⟨rfl,rfl⟩
    exact ⟨[passing now, .sound],congrArg Network.soundTimers (hat now),
      List.forall_mem_cons.mpr ⟨⟨rfl,rfl⟩,hsound⟩⟩

theorem drifts_meet (s : Session) (e : Event) : Drifts s (s.meet e) := by
  obtain ⟨es,hnet,hes⟩ := s.meet_eq_after e
  have hcomes : s.net.Comes [] (s.meet e).net :=
    hnet ▸ s.net.comes_after fun e he => (hes e he).1
  cases e <;> exact ⟨rfl,rfl,rfl,hcomes⟩

theorem Reaches.happen (h : Reaches s₀ cs s) (e : Event) :
    Reaches s₀ (cs ++ s.stopsIn e) (s.happen e) := by
  have hmet := h.drift (s.drifts_meet e)
  cases e with
  | pass now =>
    rw [stopsIn, List.append_nil]
    exact hmet
  | _ => exact hmet.turn _

theorem Reaches.after (h : Reaches s₀ cs s) (es : List Event) :
    Reaches s₀ (cs ++ s.stopsDuring es) (s.after es) := by
  induction es generalizing cs s with
  | nil =>
    rw [stopsDuring, List.append_nil]
    exact h
  | cons e es ih =>
    have hrest := ih (h.happen e)
    rw [List.append_assoc] at hrest
    exact hrest

theorem reaches_course (s₀ : Session) (es : List Event) :
    Reaches s₀ (s₀.course es) (s₀.goOn.after es) :=
  (Reaches.start.turn s₀.stepBound).after es

/-! ## What a step does -/

/-- Why the next step of the session follows the plan, what comes next and what is printed
before. -/
inductive Resumes (s : Session) : FetchStep → List String → Prop where
  | accepted {text : String} (hstage : s.stage = .registering)
    (hpoll : (s.net.pollExchange holder).1 = some (.ok text)) : Resumes s s.plan.first []
  | rested {timer : Timer} {attempt : Nat} (hstage : s.stage = .pausing timer attempt)
    (hoff : timer.isOff s.net.sounded = true) : Resumes s (.lookUp attempt) []
  | told {attempt : Nat} {cached : Bool} {answer : TokenLookup} {o : Outcome}
    (hstage : s.stage = .asking attempt cached answer) (ho : s.outcome? = some o) :
    Resumes s (s.plan.next attempt o) (s.plan.printed o)

structure Prepares (s : Session) (lines : List String) (t : Session) : Prop where
  plan : t.plan = s.plan
  printed : t.printed = s.printed ++ lines
  net : s.net.Comes [] t.net
  now : t.net.now = s.net.now
  managers : t.net.managers = s.net.managers
  face : (t.net.peer 0).face = (s.net.peer 0).face

inductive Stepped (s : Session) : Session → Prop where
  | rejected {t : Session} (e : TokenError) (hstage : s.stage = .registering)
    (hpoll : (s.net.pollExchange holder).1 = some (.error e)) (ht : Prepares s [] t) :
    Stepped s { t with stage := .left (some (.notRegistered e)) }
  | followed {f : FetchStep} {lines : List String} {t : Session} (h : Resumes s f lines)
    (ht : Prepares s lines t) : Stepped s (t.follow f)

theorem Prepares.sent {lines : List String} (h : Prepares s lines t) :
    (t.net.peer 0).sent = (s.net.peer 0).sent := by
  have hface := congrArg Peer.sent h.face
  exact hface

theorem Prepares.connected {lines : List String} (h : Prepares s lines t) :
    (t.net.peer 0).connected = (s.net.peer 0).connected := by
  have hface := congrArg Peer.connected h.face
  exact hface

theorem Prepares.refl (s : Session) : Prepares s [] s :=
  ⟨rfl,(List.append_nil _).symm,.refl,rfl,rfl,rfl⟩

/-- Reports and lines that are printed are all the same to the network. -/
theorem Prepares.note {lines : List String} (h : Prepares s lines t) (notices : List Notice)
    (more : List String) :
    Prepares s (lines ++ more)
      { t with net := t.net.note notices, printed := t.printed ++ more } where
  plan := h.plan
  printed := by rw [← List.append_assoc, ← h.printed]
  net := .noted notices h.net
  now := h.now
  managers := h.managers
  face := h.face

theorem prepares_poll (s : Session) :
    Prepares s [] { s with net := (s.net.pollExchange holder).2 } where
  plan := rfl
  printed := (List.append_nil _).symm
  net := s.net.comes_step (e := .look 0) rfl
  now := (s.net.quiet_pollExchange holder).now
  managers := (s.net.quiet_pollExchange holder).managers
  face := (s.net.quiet_pollExchange holder).face 0

theorem prepares_observe (s : Session) (ref : LoadRef) :
    Prepares s [] { s with net := (s.net.observe ref).2 } where
  plan := rfl
  printed := (List.append_nil _).symm
  net := s.net.comes_step (e := .observe ref) rfl
  now := (s.net.inner_observe ref).now
  managers := (Network.Agrees.observe s.net ref).managers
  face := (s.net.inner_observe ref).face 0

theorem followed_conclude {attempt : Nat} {cached : Bool} {answer : TokenLookup} {o : Outcome}
    (hstage : s.stage = .asking attempt cached answer) (ho : s.outcome? = some o)
    (ht : Prepares s [] t) : Stepped s (t.conclude attempt cached o) := by
  have hfollowed := fun notices =>
    Stepped.followed (.told hstage ho) (ht.note notices (s.plan.printed o))
  simp only [← ht.plan] at hfollowed
  exact hfollowed _

theorem followed_welcome {text : String} (hstage : s.stage = .registering)
    (hpoll : (s.net.pollExchange holder).1 = some (.ok text)) (ht : Prepares s [] t) :
    Stepped s t.welcome := by
  have hfollowed : ∀ {t}, Prepares s [] t → Stepped s (t.follow t.plan.first) := by
    intro t ht
    rw [ht.plan]
    exact .followed (.accepted hstage hpoll) ht
  have hnoted := ht.note [.registered 0 t.nick] []
  have hmore := hnoted.note [.tokensNotAdvertised 0] []
  simp only [List.append_nil] at hnoted hmore
  unfold welcome
  dsimp only
  split
  · exact hfollowed hnoted
  · exact hfollowed hmore

theorem stepped (h : s.step = some s') : Stepped s s' := by
  unfold step at h
  cases hstage : s.stage with
  | registering =>
    have ht := s.prepares_poll
    rw [hstage] at h ht
    rcases hpoll : s.net.pollExchange holder with ⟨_ | e | text,net⟩ <;> rw [hpoll] at ht <;>
      simp only [hpoll] at h
    · cases h
    · cases h
      exact .rejected e hstage (by rw [hpoll]) ht
    · cases h
      exact followed_welcome hstage (by rw [hpoll]) ht
  | pausing timer attempt =>
    rw [hstage] at h
    dsimp only at h
    split at h
    · next hoff =>
      cases h
      exact .followed (.rested hstage hoff) (.refl s)
    · cases h
  | asking attempt cached answer =>
    rw [hstage] at h
    cases answer with
    | ready token =>
      cases h
      exact followed_conclude hstage (by rw [outcome?, hstage]) (.refl s)
    | unsupported =>
      cases h
      exact followed_conclude hstage (by rw [outcome?, hstage]) (.refl s)
    | pending ref =>
      have ht := s.prepares_observe ref
      have houtcome : s.outcome? = (s.net.observe ref).1 := by rw [outcome?, hstage]
      rw [hstage] at ht
      rcases hlook : s.net.observe ref with ⟨_ | o,net⟩ <;> rw [hlook] at ht houtcome <;>
        simp only [hlook] at h
      · cases h
      · cases h
        exact followed_conclude hstage houtcome ht
  | left failure =>
    rw [hstage] at h
    cases h

/-! ## What is seen of a step -/

theorem Resumes.deeds {f : FetchStep} {lines : List String} (h : Resumes s f lines) :
    s.deeds = lines.map .printed ++ s.plan.deeds f := by
  cases h with
  | accepted hstage hpoll => rw [Session.deeds, hstage, hpoll]; rfl
  | rested hstage hoff => simp [Session.deeds, hstage, hoff]
  | told hstage ho => simp [Session.deeds, hstage, ho]

theorem deeds_of_rejected {e : TokenError} (hstage : s.stage = .registering)
    (hpoll : (s.net.pollExchange holder).1 = some (.error e)) : s.deeds = [] := by
  rw [Session.deeds, hstage, hpoll]

@[simp] theorem follow_plan (s : Session) (f : FetchStep) : (s.follow f).plan = s.plan := by
  cases f <;> rfl

@[simp] theorem follow_printed (s : Session) (f : FetchStep) :
    (s.follow f).printed = s.printed := by
  cases f <;> rfl

/-- Only a session that was accepted follows its plan. -/
theorem follow_stage (s : Session) (f : FetchStep) : (s.follow f).stage ≠ .registering ∧
    ∀ e, (s.follow f).stage ≠ .left (some (.notRegistered e)) := by
  cases f with
  | pause | lookUp => exact ⟨nofun,nofun⟩
  | leave failure => cases failure <;> exact ⟨nofun,nofun⟩

theorem comes_follow (s : Session) (f : FetchStep) :
    s.net.Comes ((s.plan.deeds f).filterMap FetchEvent.call?) (s.follow f).net := by
  cases f with
  | pause attempt => exact .timed .refl
  | lookUp attempt => exact s.net.comes_call (e := .lookup 0 0) rfl
  | leave failure =>
    have hquit := s.net.comes_call (e := .send 0 "QUIT" ["done"]) rfl
    exact hquit.called (.forget 0 0) rfl

theorem Resumes.calls {f : FetchStep} {lines : List String} (h : Resumes s f lines) :
    s.deeds.filterMap FetchEvent.call? = (s.plan.deeds f).filterMap FetchEvent.call? := by
  rw [h.deeds, List.filterMap_append]
  simp [List.filterMap_map, Function.comp_def, FetchEvent.call?]

theorem Resumes.lines {f : FetchStep} {lines : List String} (h : Resumes s f lines) :
    s.deeds.filterMap FetchEvent.line? = lines := by
  have hdeeds : (s.plan.deeds f).filterMap FetchEvent.line? = [] := by cases f <;> rfl
  rw [h.deeds, List.filterMap_append, hdeeds]
  simp [List.filterMap_map, Function.comp_def, FetchEvent.line?]

theorem step_plan (h : s.step = some s') : s'.plan = s.plan := by
  cases stepped h with
  | rejected _ _ _ ht => exact ht.plan
  | followed _ ht => exact (follow_plan ..).trans ht.plan

theorem step_printed (h : s.step = some s') :
    s'.printed = s.printed ++ s.deeds.filterMap FetchEvent.line? := by
  cases stepped h with
  | rejected _ hstage hpoll ht =>
    rw [deeds_of_rejected hstage hpoll]
    exact ht.printed
  | followed hf ht =>
    rw [hf.lines]
    exact (follow_printed ..).trans ht.printed

theorem step_comes (h : s.step = some s') :
    s.net.Comes (s.deeds.filterMap FetchEvent.call?) s'.net := by
  cases stepped h with
  | rejected _ hstage hpoll ht =>
    rw [deeds_of_rejected hstage hpoll]
    exact ht.net
  | @followed f _ t hf ht =>
    rw [hf.calls, ← ht.plan]
    exact ht.net.trans (t.comes_follow f)

end ChatToken.Session
