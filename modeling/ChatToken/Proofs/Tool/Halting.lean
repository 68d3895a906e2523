import ChatToken.Proofs.Network.Outcomes
import ChatToken.Proofs.Network.Settling
import ChatToken.Proofs.Tool.Progress

/-! # A session halts only to wait

A session that makes no step any more waits for something that is under way: the exchange of its
registration, a pause, or the load that its lookup was answered with. Each of them has a timer. A look
at the registration sets that timer and takes what is there, so that another look finds nothing.
-/
namespace ChatToken.Session

variable {s₀ s s' : Session} {cs : List Session}

/-! ## Where no step is made -/

theorem step_of_pausing {timer : Timer} {attempt : Nat} (h : s.stage = .pausing timer attempt) :
    s.step = none ↔ timer.isOff s.net.sounded = false := by
  rw [step, h]
  cases hoff : timer.isOff s.net.sounded <;> simp [hoff]

theorem step_of_asking {attempt : Nat} {cached : Bool} {answer : TokenLookup}
    (h : s.stage = .asking attempt cached answer) : s.step = none ↔ s.outcome? = none := by
  rw [step, outcome?, h]
  cases answer with
  | ready | unsupported => simp
  | pending ref => rcases hlook : s.net.observe ref with ⟨_ | o,net⟩ <;> simp [hlook]

theorem step_of_registering (h : s.stage = .registering) :
    s.step = none ↔ (s.net.pollExchange holder).1 = none := by
  rw [step, h]
  rcases s.net.pollExchange holder with ⟨_ | _ | _,net⟩ <;> simp

/-! ## The registration is awaited -/

def Registers (s : Session) : Prop :=
  s.stage = .registering → ∃ x, s.net.exchanges.get? holder = some x

theorem Registers.after (h : s.Registers) (hs : s.net.Single) (hstage : s'.stage = s.stage)
    {es : List Network.Event} (hnet : s'.net = s.net.after es)
    (hes : ∀ e ∈ es, e.holder? ≠ some holder) : s'.Registers := by
  intro hregistering
  rw [hnet, hs.exchange_after hes]
  exact h (hstage ▸ hregistering)

theorem Registers.meet (h : s.Registers) (hs : s.net.Single) (e : Event) : (s.meet e).Registers := by
  obtain ⟨es,hnet,hes⟩ := s.meet_eq_after e
  refine h.after hs (s.drifts_meet e).stage hnet fun e he => ?_
  rw [(hes e he).2]
  simp

theorem Registers.settle (h : s.Registers) (hs : s.net.Single) :
    ({ s with net := s.net.settle } : Session).Registers := by
  obtain ⟨refs,hrun⟩ := s.net.run_eq_after s.net.turnBound
  refine h.after hs rfl hrun fun e he => ?_
  obtain ⟨ref,-,rfl⟩ := List.mem_map.mp he
  simp [Network.Event.holder?, holder]

/-- Behind a step the registration is over. -/
theorem registers_of_step (h : s.step = some s') : s'.Registers := by
  intro hstage
  cases stepped h with
  | rejected => cases hstage
  | followed => exact absurd hstage (follow_stage ..).1

theorem Registered.congr (h : Registered cs s) (hstage : s'.stage = s.stage) :
    Registered cs s' := by
  cases cs <;> simpa only [Registered, hstage] using h

theorem Reaches.registered (h : Reaches s₀ cs s) (h₀ : s₀.Started) : Registered cs s := by
  induction h with
  | start => exact h₀.stage
  | drift _ hd ih => exact ih.congr hd.stage
  | @step cs s s' _ hs ih =>
    cases cs with
    | nil =>
      have hstage : s.stage = .registering := ih
      rw [List.nil_append, Registered]
      cases stepped hs with
      | rejected e _ hpoll =>
        rw [hpoll]
        exact ⟨rfl,rfl⟩
      | followed hf =>
        cases hf with
        | accepted _ hpoll =>
          rw [hpoll]
          exact follow_stage ..
        | rested hstage' | told hstage' =>
          rw [hstage] at hstage'
          cases hstage'
    | cons c later =>
      rw [List.cons_append, Registered]
      rw [Registered] at ih
      split at ih
      · exact ih.elim
      · rw [Session.step, ih.2] at hs
        cases hs
      · cases stepped hs with
        | rejected _ hstage => exact absurd hstage ih.1
        | followed => exact follow_stage ..

/-! ## The load of a lookup -/

/-- A lookup that has no answer yet is about a load that runs. -/
theorem running_of_pending {n : Network} (hs : n.Single) {ref : LoadRef}
    (h : (n.lookup 0 0).1 = .pending ref) :
    ref.manager = 0 ∧ ((n.lookup 0 0).2.manager 0).loader.Running ref.load 0 := by
  have hn : (n.lookup 0 0).2.Orderly := (hs.step (.lookup 0 0)).orderly
  rw [Network.lookup_answer hs.orderly (hs.manager ▸ Nat.one_pos)] at h
  cases habout : (n.lookup 0 0).2.about 0 0 with
  | pending id =>
    rw [habout] at h
    cases h
    exact ⟨rfl,(hn 0).about_eq_pending.mp habout⟩
  | _ =>
    rw [habout] at h
    cases h

/-- The load that the session waits for runs until it has ended. -/
def Asks (s : Session) : Prop :=
  ∀ attempt cached ref, s.stage = .asking attempt cached (.pending ref) → ref.manager = 0 ∧
    (s.net.ending? ref = none → (s.net.manager 0).loader.Running ref.load 0)

/-- Nothing but its end takes a running load away. -/
theorem Asks.drift (h : s.Asks) (hs : s.net.Single) (hd : Drifts s s') : s'.Asks := by
  intro attempt cached ref hstage
  obtain ⟨hmanager,hruns⟩ := h attempt cached ref (hd.stage ▸ hstage)
  refine ⟨hmanager,?_⟩
  refine hd.net.keeps_idle hs
    (P := fun n => n.ending? ref = none → (n.manager 0).loader.Running ref.load 0) hruns
    (fun n e hn _ hruns hopen => ?_) (fun _ _ hn => hn) fun _ hn => hn
  have href : ref = ⟨0,ref.load⟩ := by rw [← hmanager]
  cases hbefore : n.ending? ref with
  | some ending =>
    rw [Network.step_ending hn.orderly e hbefore] at hopen
    cases hopen
  | none =>
    exact Network.running_step hn.orderly (hn.manager ▸ Nat.one_pos) (hruns hbefore) e
      (href ▸ hopen)

theorem Reaches.asks (h : Reaches s₀ cs s) (h₀ : s₀.Started) : s.Asks := by
  induction h with
  | start =>
    intro attempt cached ref hstage
    rw [h₀.stage] at hstage
    cases hstage
  | drift h hd ih => exact ih.drift (h.single h₀) hd
  | step h hs ih =>
    cases stepped hs with
    | rejected => exact fun _ _ _ hstage => by cases hstage
    | @followed f _ t hf ht =>
      intro attempt cached ref hstage
      cases f with
      | pause | leave => cases hstage
      | lookUp =>
        have hpending := (SessionStage.asking.inj hstage).2.2
        obtain ⟨hmanager,hruns⟩ := running_of_pending ((h.single h₀).comes ht.net) hpending
        exact ⟨hmanager,fun _ => hruns⟩

/-! ## The session halts -/

theorem outcome?_of_pending {attempt : Nat} {cached : Bool} {ref : LoadRef}
    (h : s.stage = .asking attempt cached (.pending ref)) :
    s.outcome? = (s.net.ending? ref).map Ending.outcome := by
  rw [outcome?, h]
  exact s.net.observe_outcome ref

theorem isTimed_of_idle {n : Network} {h : Holder} {x : Exchange Matcher}
    (hx : n.exchanges.get? h = some x) (hi : n.Idle x) : n.IsTimed h := by
  obtain ⟨timer,htimer,hearly⟩ := hi.early
  exact ⟨x,timer,hx,htimer,by simpa [Timer.isOff] using hearly⟩

/-- A look that finds nothing has set the timer, and another one would find nothing either. -/
theorem awaits_registration (hs : s.net.Single) (hstage : s.stage = .registering)
    (hr : s.Registers) (h : s.step = none) : s.look.Awaits := by
  obtain ⟨x,hx⟩ := hr hstage
  have hresult : (s.net.looked x).result = none := by
    have hpoll := (step_of_registering hstage).mp h
    rwa [Network.pollExchange_eq hx] at hpoll
  have hlook : s.look = { s with net := s.net.drained holder x } := by
    simp only [look, hstage, Network.pollExchange_eq hx, hresult]
  have hx' : (s.net.drained holder x).exchanges.get? holder = some (s.net.looked x).exchange :=
    (Network.drained_exchange hx _).trans (if_pos rfl)
  have hidle := Network.idle_drained hs.regular.owned hx hresult
  rw [hlook, Awaits]
  simp only [hstage]
  refine ⟨isTimed_of_idle hx' hidle,?_⟩
  rw [Network.pollExchange_eq hx']
  exact hidle.unresolved

/-- A load that runs and does not stand in line has an exchange whose timer is set. -/
theorem awaits_load (hs : s.net.Single) (hready : s.net.ready = []) (ha : s.Asks)
    {attempt : Nat} {cached : Bool} {ref : LoadRef}
    (hstage : s.stage = .asking attempt cached (.pending ref)) (hopen : s.net.ending? ref = none) :
    s.Awaits := by
  obtain ⟨m,load⟩ := ref
  obtain ⟨rfl,hruns⟩ := ha _ _ _ hstage
  have hrunning := hruns hopen
  obtain ⟨t,ht,-⟩ := id hrunning
  rw [Awaits, hstage]
  refine ⟨load,rfl,((hs.orderly 0).loader.registered 0 load).mpr hrunning,hopen,?_⟩
  rcases hs.regular.attended.waiting ⟨0,load⟩ t ht with hline | ⟨x,hx,hidle⟩
  · rw [hready] at hline
    cases hline
  · exact isTimed_of_idle hx hidle

/-- Only a registration is looked at. -/
theorem look_of_ne (h : s.stage ≠ .registering) : s.look = s := by
  unfold look
  split
  · next hstage => exact absurd hstage h
  · rfl

theorem awaits_look (hs : s.net.Single) (hready : s.net.ready = []) (hr : s.Registers)
    (ha : s.Asks) (h : s.step = none) : s.look.Awaits := by
  by_cases hregistering : s.stage = .registering
  · exact awaits_registration hs hregistering hr h
  rw [look_of_ne hregistering]
  cases hstage : s.stage with
  | registering => exact absurd hstage hregistering
  | pausing timer attempt =>
    rw [Awaits, hstage]
    exact (step_of_pausing hstage).mp h
  | asking attempt cached answer =>
    have hnone := (step_of_asking hstage).mp h
    cases answer with
    | ready | unsupported =>
      rw [outcome?, hstage] at hnone
      cases hnone
    | pending ref =>
      rw [outcome?_of_pending hstage, Option.map_eq_none_iff] at hnone
      exact awaits_load hs hready ha hstage hnone
  | left failure =>
    rw [Awaits, hstage]
    trivial

theorem look_ready (s : Session) : s.look.net.ready = s.net.ready := by
  unfold look
  split
  · exact (s.net.still_pollExchange holder).ready
  · rfl

/-- The steps that are left are enough to come to a halt. -/
theorem halts_turn (h₀ : s₀.Started) {steps : Nat} (h : Reaches s₀ cs s) (hr : s.Registers)
    (hsteps : s.stepsLeft < steps) : (turn steps s).Halts := by
  induction steps generalizing s cs with
  | zero => cases hsteps
  | succ steps ih =>
    have hs := h.single h₀
    have hready := Network.settle_ready hs.regular
    have hsettled := h.settle
    have hleft : ({ s with net := s.net.settle } : Session).stepsLeft = s.stepsLeft := rfl
    rw [turn]
    cases hstep : ({ s with net := s.net.settle } : Session).step with
    | none =>
      exact ⟨(look_ready _).trans hready,
        awaits_look (hsettled.single h₀) hready (hr.settle hs) (hsettled.asks h₀) hstep⟩
    | some s' =>
      have hless := step_stepsLeft hstep
      exact ih (hsettled.step hstep) (registers_of_step hstep) (by omega)

theorem Halts.registers (h : s.Halts) : s.Registers := by
  intro hstage
  have hawaits := h.awaits
  rw [Awaits, hstage] at hawaits
  obtain ⟨⟨x,_,hx,_⟩,_⟩ := hawaits
  exact ⟨x,hx⟩

/-- What the session waits for does not come about by the clock alone. -/
theorem Halts.at_ (h : s.Halts) (now : Nat) : (s.at_ now).Halts := by
  refine ⟨h.settled,?_⟩
  have hawaits := h.awaits
  rw [Awaits] at hawaits ⊢
  have hstage : (s.at_ now).stage = s.stage := rfl
  rw [hstage]
  split at hawaits
  · obtain ⟨htimed,hpoll⟩ := hawaits
    refine ⟨htimed,?_⟩
    obtain ⟨x,timer,hx,htimer,-⟩ := htimed
    have hx' : (s.at_ now).net.exchanges.get? holder = some x := hx
    have hlooked : (s.at_ now).net.looked x = s.net.looked x :=
      Network.looked_of_timer htimer (max now s.net.now)
    rw [Network.pollExchange_eq hx', hlooked]
    rwa [Network.pollExchange_eq hx] at hpoll
  all_goals exact hawaits

theorem Halts.happen (h₀ : s₀.Started) (h : Reaches s₀ cs s) (hh : s.Halts) (e : Event) :
    (s.happen e).Halts := by
  have hgone := halts_turn h₀ (h.drift (s.drifts_meet e)) (hh.registers.meet (h.single h₀) e)
    (s.meet e).stepsLeft_lt
  cases e with
  | pass now => exact hh.at_ now
  | _ => exact hgone

theorem Halts.after (h₀ : s₀.Started) (h : Reaches s₀ cs s) (hh : s.Halts) (es : List Event) :
    (s.after es).Halts := by
  induction es generalizing s cs with
  | nil => exact hh
  | cons e es ih => exact ih (h.happen e) (hh.happen h₀ h e)

/-- Whatever happens to a session, it goes on until it has to wait. -/
theorem Started.halts (h₀ : s₀.Started) (es : List Event) : (s₀.goOn.after es).Halts := by
  have hgone : s₀.goOn.Halts := halts_turn h₀ .start (fun _ => h₀.registers) s₀.stepsLeft_lt
  exact hgone.after h₀ (Reaches.start.turn s₀.stepBound) es

end ChatToken.Session
