import ChatToken.Proofs.Network.Direct

/-! # The line of tasks

Only the turn and the death of a task take it out of the line, and only sounding makes timers go off.
-/
namespace ChatToken.Network

structure Still (n n' : Network) : Prop where
  sounded : n'.sounded = n.sounded
  ready : n'.ready = n.ready

structure Calm (n n' : Network) : Prop where
  sounded : n'.sounded = n.sounded
  ready : n.ready <+: n'.ready
  nodup : n.ready.Nodup → n'.ready.Nodup

section
variable {n n' n'' : Network}

theorem Still.refl (n : Network) : Still n n := ⟨rfl,rfl⟩

theorem Still.trans (h : Still n n') (h' : Still n' n'') : Still n n'' :=
  ⟨h'.sounded.trans h.sounded,h'.ready.trans h.ready⟩

theorem Still.calm (h : Still n n') : Calm n n' :=
  ⟨h.sounded,h.ready ▸ List.prefix_refl _,fun hn => h.ready ▸ hn⟩

theorem Calm.refl (n : Network) : Calm n n := (Still.refl n).calm

theorem Calm.trans (h : Calm n n') (h' : Calm n' n'') : Calm n n'' :=
  ⟨h'.sounded.trans h.sounded,h.ready.trans h'.ready,h'.nodup ∘ h.nodup⟩

end

section
variable (n : Network)

theorem still_note (notices : List Notice) : Still n (n.note notices) := ⟨rfl,rfl⟩

theorem still_onPeer (p : Nat) (f : Peer → Peer) : Still n (n.onPeer p f) := ⟨rfl,rfl⟩

theorem still_failWriting (p : Nat) (reason : String) : Still n (n.failWriting p reason) := by
  unfold failWriting
  split <;> exact ⟨rfl,rfl⟩

theorem still_onManager (m : Nat) (f : Manager → Manager) : Still n (n.onManager m f) := ⟨rfl,rfl⟩

theorem still_openExchange (h : Holder) (p : Nat) (matcher : Matcher) (timeout : Span) :
    Still n (n.openExchange h p matcher timeout) := ⟨rfl,rfl⟩

theorem still_closeExchange (h : Holder) : Still n (n.closeExchange h) := by
  unfold closeExchange
  split <;> exact ⟨rfl,rfl⟩

theorem still_pollExchange (h : Holder) : Still n (n.pollExchange h).2 := by
  cases hx : n.exchanges.get? h with
  | none => rw [pollExchange, hx]; exact .refl n
  | some x =>
    have hd : Still n (n.drained h x) := ⟨rfl,rfl⟩
    rw [pollExchange_eq hx]
    dsimp only
    split
    · exact hd
    · exact hd.trans ((still_note ..).trans (still_closeExchange ..))

theorem still_pollRequest (h : Holder) : Still n (n.pollRequest h).2 := by
  have hc := n.still_pollExchange h
  unfold pollRequest
  rcases hp : n.pollExchange h with ⟨_ | result,n'⟩ <;> rw [hp] at hc
  · exact hc
  · exact hc.trans (n'.still_note _)

theorem still_failRequest (h : Holder) (cause : String) : Still n (n.failRequest h cause).2 :=
  (n.still_note _).trans (still_closeExchange ..)

theorem still_checkMark (m p : Nat) : Still n (n.checkMark m p).2 := by
  unfold checkMark
  dsimp only
  split <;> exact ⟨rfl,rfl⟩

theorem still_finishLoad (ref : LoadRef) (result : Except TokenError Token) :
    Still n (n.finishLoad ref result) := ⟨rfl,rfl⟩

theorem still_concludeLoad (ref : LoadRef) (p : Nat) (result : Except TokenError Token) :
    Still n (n.concludeLoad ref p result) := by
  refine Still.trans ?_ (still_finishLoad ..)
  rcases result with e | t
  · cases e <;> exact ⟨rfl,rfl⟩
  · exact still_note ..

theorem still_observe (ref : LoadRef) : Still n (n.observe ref).2 := by
  unfold observe
  split
  · exact .refl n
  · dsimp only
    split <;> exact ⟨rfl,rfl⟩
  · exact .refl n

theorem still_arrive (ref : LoadRef) (p : Nat) : Still n (n.arrive ref p).2 :=
  ((still_onManager ..).trans (still_note ..)).trans (still_checkMark ..)

theorem still_inquire (ref : LoadRef) : Still n (n.inquire ref).2 := by
  have hc := n.still_pollRequest (.load ref)
  unfold inquire
  rcases hp : n.pollRequest (.load ref) with ⟨_ | result,n'⟩ <;> rw [hp] at hc <;> exact hc

/-! ## Joining the line -/

theorem calm_wake (ref : LoadRef) : Calm n (n.wake ref) := by
  unfold wake
  split
  · exact .refl n
  · next hno =>
    refine ⟨rfl,List.prefix_append ..,fun hn => ?_⟩
    rw [List.contains_iff_mem] at hno
    exact List.nodup_append.mpr ⟨hn,List.nodup_singleton ref,by rintro a ha b hb rfl; simp_all⟩

theorem calm_wakeAll (refs : List LoadRef) : Calm n (n.wakeAll refs) := by
  induction refs generalizing n with
  | nil => exact .refl n
  | cons ref refs ih => exact (n.calm_wake ref).trans (ih _)

theorem calm_deliver (p : Nat) (m : Message) : Calm n (n.deliver p m) :=
  (n.still_onPeer p (·.dispatch m)).calm.trans (calm_wakeAll ..)

theorem calm_deliverLines (p : Nat) (lines : List String) :
    Calm n (n.deliverLines p lines).2 := by
  induction lines generalizing n with
  | nil => exact .refl n
  | cons line lines ih =>
    unfold deliverLines
    cases Message.parse? line with
    | none => exact .refl n
    | some m => exact (n.calm_deliver p m).trans (ih _)

theorem still_handed (p : Nat) (command : String) (args : List String) :
    Still n (n.handed p command args) := ⟨rfl,rfl⟩

theorem calm_send (p : Nat) (command : String) (args : List String) :
    Calm n (n.send p command args).2 := by
  have hh := (n.still_handed p command args).calm
  rw [send_eq]
  cases ((n.peer p).send command args).1 with
  | error cause => exact hh
  | ok lines => exact hh.trans (calm_deliverLines ..)

theorem calm_openRequest (h : Holder) (p : Nat) (service : Option String) (timeout : Span) :
    Calm n (n.openRequest h p service timeout).2 :=
  (n.still_openExchange h p .extjwt timeout).calm.trans (calm_send ..)

theorem calm_startRequest (c p : Nat) (service : Option String) (timeout : Span) :
    Calm n (n.startRequest c p service timeout).2 := by
  have ho := n.calm_openRequest (.caller c) p service timeout
  unfold startRequest
  rcases hs : n.openRequest (.caller c) p service timeout with ⟨_ | cause | line,n'⟩ <;>
    rw [hs] at ho
  · exact ho.trans (n'.still_pollRequest _).calm
  · exact ho.trans (n'.still_failRequest _ cause).calm
  · exact ho.trans (n'.still_closeExchange _).calm

theorem calm_seek (m p : Nat) : Calm n (n.seek m p).2 := by
  have h := fun f notices => ((n.still_onManager m f).trans (still_note _ notices)).calm
  unfold seek
  dsimp only
  split
  · exact h _ _
  · split
    · exact (h _ _).trans (calm_wake ..)
    · exact h _ _
  · exact h _ _

theorem calm_lookup (m p : Nat) : Calm n (n.lookup m p).2 := by
  have hc := (n.still_checkMark m p).calm
  rw [lookup_eq]
  split
  · exact hc.trans (still_note ..).calm
  · exact hc.trans (calm_seek ..)

theorem calm_endStream (p : Nat) : Calm n (n.endStream p) :=
  ((n.still_onPeer p Peer.endReading).trans (still_note ..)).calm.trans (calm_wakeAll ..)

theorem calm_disconnect (p : Nat) : Calm n (n.disconnect p) :=
  (n.still_onPeer p Peer.disconnect).calm.trans (calm_wakeAll ..)

theorem calm_accept (p : Nat) (m : Message) : Calm n (n.accept p m) := by
  obtain ⟨notices,h⟩ := n.accept_eq p m
  have hn := n.still_note notices
  rw [h]
  cases (n.peer p).handle m with
  | some changed => exact (hn.trans (still_onPeer ..)).calm.trans (calm_deliver ..)
  | none => exact hn.calm.trans (calm_endStream ..)

theorem calm_receive (p : Nat) (r : Received) : Calm n (n.receive p r) := by
  unfold receive
  split
  · cases r with
    | line line =>
      dsimp only
      split
      · exact (still_note ..).calm.trans (calm_accept ..)
      · exact (still_note ..).calm
    | failed reason => exact (still_note ..).calm.trans (calm_endStream ..)
  · exact .refl n

/-! ## Turns -/

theorem calm_ask (ref : LoadRef) (p : Nat) : Calm n (n.ask ref p).2 :=
  (n.still_arrive ref p).calm.trans (calm_openRequest ..)

theorem Worked.calm {n n' : Network} {ref : LoadRef} {t : LoadTask Nat Token TokenError} {w : Turn}
    (h : Worked n ref t w n') : Calm n n' := by
  have hask := n.calm_ask ref t.key
  cases h with
  | resumed => exact (still_inquire ..).calm
  | withheld => exact (still_arrive ..).calm
  | sent => exact hask.trans (still_inquire ..).calm
  | failed cause => exact hask.trans (still_failRequest ..).calm
  | broken => exact hask

theorem dropLoad_sounded (ref : LoadRef) : (n.dropLoad ref).sounded = n.sounded :=
  (n.still_closeExchange (.load ref)).sounded

theorem dropLoad_ready (ref : LoadRef) :
    (n.dropLoad ref).ready = n.ready.filter (· != ref) := by
  have hready := (n.still_closeExchange (.load ref)).ready
  change (n.closeExchange (.load ref)).ready.filter _ = _
  rw [hready]

/-- Only a death changes the line when a turn is over. -/
theorem record_still (ref : LoadRef) (p : Nat) {w : Turn} (hw : w ≠ .died) :
    Still n (n.record ref p w) := by
  cases w with
  | withheld =>
    rw [record]
    exact (n.still_note _).trans (still_finishLoad _ ref _)
  | waits => exact .refl n
  | ended result => exact n.still_concludeLoad ref p result
  | died => exact absurd rfl hw

theorem record_sublist (ref : LoadRef) (p : Nat) (w : Turn) :
    (n.record ref p w).ready.Sublist n.ready := by
  by_cases hw : w = .died
  · subst hw
    rw [record, dropLoad_ready]
    exact List.filter_sublist
  · rw [(n.record_still ref p hw).ready]

/-- A turn takes nobody out of the line but the task whose turn it is. -/
theorem record_ready {n : Network} {ref ref' : LoadRef} (hne : ref' ≠ ref) (p : Nat) (w : Turn)
    (hmem : ref' ∈ n.ready) : ref' ∈ (n.record ref p w).ready := by
  by_cases hw : w = .died
  · subst hw
    rw [record, dropLoad_ready]
    exact List.mem_filter.mpr ⟨hmem,by simpa using hne⟩
  · rwa [(n.record_still ref p hw).ready]

theorem record_sounded (ref : LoadRef) (p : Nat) (w : Turn) :
    (n.record ref p w).sounded = n.sounded := by
  by_cases hw : w = .died
  · subst hw
    exact n.dropLoad_sounded ref
  · exact (n.record_still ref p hw).sounded

theorem runLoad_sounded (ref : LoadRef) : (n.runLoad ref).sounded = n.sounded := by
  cases ht : (n.manager ref.manager).loader.tasks.get? ref.load with
  | none => rw [runLoad_of_gone n ht]
  | some t =>
    rw [runLoad_eq n ht, record_sounded]
    exact (n.work_worked ref t).calm.sounded

theorem runLoad_ready {n : Network} {ref ref' : LoadRef} (hne : ref' ≠ ref)
    (hmem : ref' ∈ n.ready) : ref' ∈ (n.runLoad ref).ready := by
  cases ht : (n.manager ref.manager).loader.tasks.get? ref.load with
  | none => rwa [runLoad_of_gone n ht]
  | some t =>
    rw [runLoad_eq n ht]
    exact record_ready hne t.key _ ((n.work_worked ref t).calm.ready.mem hmem)

theorem runLoad_nodup {n : Network} (ref : LoadRef) (h : n.ready.Nodup) :
    (n.runLoad ref).ready.Nodup := by
  cases ht : (n.manager ref.manager).loader.tasks.get? ref.load with
  | none => rwa [runLoad_of_gone n ht]
  | some t =>
    rw [runLoad_eq n ht]
    exact ((n.work_worked ref t).calm.nodup h).sublist (record_sublist ..)

/-! ## Acts -/

/-- What is no turn, no death and no sound of the clock only lets tasks join the line. -/
theorem calm_step {e : Event} (ht : ∀ ref, e ≠ .turn ref) (hd : ∀ ref, e ≠ .die ref)
    (hs : e ≠ .sound) : Calm n (n.step e) := by
  cases e with
  | lookup m p => exact n.calm_lookup m p
  | isUnsupported m p => exact (n.still_checkMark m p).calm
  | forget m p => exact ⟨rfl,List.prefix_refl _,id⟩
  | observe ref => exact (n.still_observe ref).calm
  | turn ref => exact absurd rfl (ht ref)
  | die ref => exact absurd rfl (hd ref)
  | listen c p matcher timeout =>
    simp only [step]
    split
    · exact .refl n
    · exact (n.still_openExchange ..).calm
  | look c => exact (n.still_pollExchange _).calm
  | hangUp c => exact (n.still_closeExchange _).calm
  | send p command args => exact n.calm_send p command args
  | deliver p m => exact n.calm_deliver p m
  | disconnect p => exact n.calm_disconnect p
  | receive p r => exact n.calm_receive p r
  | finishStream p =>
    simp only [step, finishStream]
    split
    · exact n.calm_endStream p
    · exact .refl n
  | failWriting p reason => exact (n.still_failWriting p reason).calm
  | prepare p replies => exact (n.still_onPeer p _).calm
  | advertise p name value => exact (n.still_onPeer p _).calm
  | pass nanos => exact ⟨rfl,List.prefix_refl _,id⟩
  | sound => exact absurd rfl hs

/-- Timers go off when ticks are sounded, and at no other time. -/
theorem step_sounded (e : Event) :
    (n.step e).sounded = if e = .sound then Clock.tick n.now else n.sounded := by
  by_cases hs : e = .sound
  · subst hs
    exact (calm_wakeAll ..).sounded
  · rw [if_neg hs]
    cases e with
    | turn ref => exact (n.called ref).runLoad_sounded ref
    | die ref => exact n.dropLoad_sounded ref
    | _ => exact (n.calm_step (by simp) (by simp) hs).sounded

theorem turns_sounded (refs : List LoadRef) :
    (n.after (refs.map .turn)).sounded = n.sounded := by
  induction refs generalizing n with
  | nil => rfl
  | cons ref refs ih => exact (ih _).trans ((n.step_sounded (.turn ref)).trans (if_neg (by simp)))

/-- Only the turn and the death of a task take it out of the line. -/
theorem step_ready {n : Network} {ref : LoadRef} {e : Event} (hturn : e ≠ .turn ref)
    (hdie : e ≠ .die ref) (hmem : ref ∈ n.ready) : ref ∈ (n.step e).ready := by
  by_cases hs : e = .sound
  · subst hs
    exact (mem_wakeAll _).mpr (.inl hmem)
  · cases e with
    | turn ref' =>
      have hne : ref ≠ ref' := fun h => hturn (congrArg Event.turn h).symm
      exact runLoad_ready (n := n.called ref') hne ((List.mem_erase_of_ne hne).mpr hmem)
    | die ref' =>
      have hne : ref ≠ ref' := fun h => hdie (congrArg Event.die h).symm
      rw [step, dropLoad_ready]
      exact List.mem_filter.mpr ⟨hmem,by simpa using hne⟩
    | _ => exact (n.calm_step (by simp) (by simp) hs).ready.mem hmem

/-- No task stands in line twice. -/
theorem step_nodup {n : Network} (h : n.ready.Nodup) (e : Event) : (n.step e).ready.Nodup := by
  cases e with
  | turn ref => exact runLoad_nodup (n := n.called ref) ref (h.erase ref)
  | die ref =>
    rw [step, dropLoad_ready]
    exact h.filter _
  | sound => exact (calm_wakeAll ..).nodup h
  | _ => exact (n.calm_step (by simp) (by simp) (by simp)).nodup h

theorem act_sounded (a : Act) :
    (n.act a).sounded = if a = .event .sound then Clock.tick n.now else n.sounded := by
  cases a with
  | event e =>
    rw [act, step_sounded]
    by_cases h : e = .sound <;> simp [h]
  | request c p service timeout =>
    simp only [act]
    split
    · simp
    · simpa using (n.calm_startRequest c p service timeout).sounded
  | lookRequest c => simpa [act] using (n.still_pollRequest (.caller c)).sounded

def Timely (n : Network) : Prop := n.sounded ≤ Clock.tick n.now

theorem Timely.act {n : Network} (hn : n.Timely) (a : Act) :
    n.sounded ≤ (n.act a).sounded ∧ (n.act a).Timely := by
  have hnow : Clock.tick n.now ≤ Clock.tick (n.act a).now :=
    Nat.div_le_div_right (n.now_le_act a)
  rw [Timely, act_sounded]
  split
  · exact ⟨hn,hnow⟩
  · exact ⟨Nat.le_refl _,hn.trans hnow⟩

theorem Timely.play {n : Network} (hn : n.Timely) (as : List Act) :
    n.sounded ≤ (n.play as).sounded ∧ (n.play as).Timely := by
  induction as generalizing n with
  | nil => exact ⟨Nat.le_refl _,hn⟩
  | cons a as ih =>
    obtain ⟨hle,hn'⟩ := hn.act a
    obtain ⟨hle',hn''⟩ := ih hn'
    exact ⟨hle.trans hle',hn''⟩

theorem timely_start (peers : List Peer) (configs : List TokenConfig) :
    (start peers configs).Timely := Nat.zero_le _

end

end ChatToken.Network
