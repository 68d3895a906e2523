import ChatToken.Proofs.Network.Lookups
import ChatToken.Proofs.Network.Timeouts
import ChatToken.Proofs.Network.Tokens

/-! # Lookups that are abandoned

A load is carried out by a task of its own. So nobody can tell from a run of the managers whether
lookups were polled or dropped, but who did that, and a load that nobody waits for goes on like any
other: it listens until it ends, and leaves what it has found out.
-/
namespace ChatToken

namespace Network

def Shuts (n : Network) (p : Nat) (e : Event) : Prop :=
  e = .disconnect p ∨ (n.peer p).isReading = true ∧ ((n.step e).peer p).link = .stream false

def ListensAs (n : Network) (ref : LoadRef) (p id : Nat) : Prop :=
  id ∈ n.registered p ∧
    ∃ x, n.exchanges.get? (.load ref) = some x ∧ x.peer = p ∧ x.listener = id

section
variable {n : Network} {ref : LoadRef} {p id : Nat} {e : Event} {es : List Event}

/-- A load that goes on behind its first turn listens to its peer. -/
theorem listens_turn (h : n.Regular) (hasks : n.asks? ref = some p)
    (hopen : (n.step (.turn ref)).ending? ref = none) :
    ∃ id, (n.step (.turn ref)).ListensAs ref p id := by
  obtain ⟨t,ht,_,rfl⟩ := (asks?_eq_some h.orderly).mp hasks
  have hr : (n.manager ref.manager).loader.Running ref.load t.key :=
    ⟨t,ht,rfl,(h.orderly _).live _ _ ht⟩
  obtain ⟨t',ht',hkey,_⟩ := running_after h.orderly (lt_of_task ht) hr [.turn ref] hopen
  obtain ⟨x,hx,_,hidle⟩ := h.attended.turn h.orderly h.sane h.owned ht'
  obtain ⟨t'',ht'',_,hserves⟩ := (h.step (.turn ref)).sane.requests ref x hx
  obtain rfl : t' = t'' := Option.some.inj (ht'.symm.trans ht'')
  have hpeer : x.peer = t.key := hserves.peer.trans hkey
  exact ⟨x.listener,hpeer ▸ List.contains_iff_mem.mp hidle.hears.registered,x,hx,hpeer,rfl⟩

/-- The exchange of a load goes on as long as the load does. -/
theorem exchange_of_open (h : n.Regular) {x : Exchange Matcher}
    (hx : n.exchanges.get? (.load ref) = some x) (hopen : (n.step e).ending? ref = none) :
    ∃ x', (n.step e).exchanges.get? (.load ref) = some x' := by
  obtain ⟨t,ht,_⟩ := h.sane.requests ref x hx
  obtain ⟨t',ht',_⟩ := running_after h.orderly (lt_of_task ht)
    ⟨t,ht,rfl,(h.orderly _).live _ _ ht⟩ [e] hopen
  by_cases hother : e.holder? = some (.load ref)
  · cases e with
    | turn ref' =>
      obtain rfl : ref' = ref := by simpa [Event.holder?] using hother
      obtain ⟨x',hx',_⟩ := h.attended.turn h.orderly h.sane h.owned ht'
      exact ⟨x',hx'⟩
    | die ref' =>
      obtain rfl : ref' = ref := by simpa [Event.holder?] using hother
      have hnone := task_of_die h.orderly ref'
      cases ht'.symm.trans hnone
    | _ => cases hother
  · exact ⟨x,((step_carries h.orderly h.owned.tidy e).exchanges _ hother).trans hx⟩

theorem ListensAs.step (hl : n.ListensAs ref p id) (h : n.Regular) (hshut : ¬ n.Shuts p e)
    (hopen : (n.step e).ending? ref = none) : (n.step e).ListensAs ref p id := by
  obtain ⟨hid,x,hx,rfl,rfl⟩ := hl
  obtain ⟨x',hx'⟩ := exchange_of_open h hx hopen
  rcases exchange_act (a := .event e) h.orderly h.sane h.owned hx' with
    ⟨x₀,hx₀,hstays,hpeer,hlistener⟩ | ⟨hnone,_⟩
  · obtain rfl : x = x₀ := Option.some.inj (hx.symm.trans hx₀)
    have hkept := still_registered (a := .event e) h.orderly h.sane h.owned hx hstays
      (fun he => hshut (.inl (Act.event.inj he)))
      (fun hreading hlink => hshut (.inr ⟨hreading,hlink⟩)) hid
    exact ⟨hkept,x',hx',hpeer,hlistener⟩
  · rw [hx] at hnone
    cases hnone

/-- A load listens under the same number until it ends or its connection is closed. -/
theorem ListensAs.after (hl : n.ListensAs ref p id) (h : n.Regular)
    (hshut : Always (fun n' e => ¬ n'.Shuts p e) n es) (hopen : (n.after es).ending? ref = none) :
    (n.after es).ListensAs ref p id := by
  induction es generalizing n with
  | nil => exact hl
  | cons e es ih =>
    have hnext : (n.step e).ending? ref = none := by
      cases he : (n.step e).ending? ref with
      | none => rfl
      | some ending =>
        rw [after_cons, after_ending (h.orderly.step e) es he] at hopen
        cases hopen
    exact ih (hl.step h hshut.1 hnext) (h.step e) hshut.2 hopen

/-- Since its first turn the load `ref`, which has asked `p` then, has listened to `p` under one
number until it ended or the connection was closed. -/
def KeepsListening (n : Network) (ref : LoadRef) (p : Nat) (es : List Event) : Prop :=
  ∃ first mid, es = first ++ .turn ref :: mid ∧ (n.after first).asks? ref = some p ∧
    let n₁ := (n.after first).step (.turn ref)
    ∃ id, ∀ gap rest, mid = gap ++ rest → Always (fun n' e => ¬ n'.Shuts p e) n₁ gap →
      (n₁.after gap).ending? ref = none → (n₁.after gap).ListensAs ref p id

def Stores (n : Network) (e : Event) (ref : LoadRef) (p : Nat) : Ending Token TokenError → Prop
  | .loaded tok => ((n.step e).manager ref.manager).loader.cache.get? p = some tok
  | .failed (.unsupported _) => ((n.step e).manager ref.manager).marks.since.get? p = some n.now
  | _ => True

def Completed (n : Network) (ref : LoadRef) (p : Nat) (es : List Event) : Prop :=
  ∃ ending, n.Over ref p es ending ∧ ∃ before e later, es = before ++ e :: later ∧
    (n.after before).Ends e ref ending ∧ (n.after before).Stores e ref p ending

theorem Ends.stores {before : List Event} (hrecounts : n.Recounts before)
    (hn : (n.after before).Orderly) (hs : (n.after before).Sane) (hp : p < n.peers.length)
    {ending : Ending Token TokenError}
    (hr : ((n.after before).manager ref.manager).loader.Running ref.load p)
    (h : (n.after before).Ends e ref ending) : (n.after before).Stores e ref p ending := by
  cases ending with
  | loaded tok =>
    have hkept : ((n.after before).step e).about ref.manager p = .valid tok :=
      h.token_kept hn hr (hrecounts.loaded hn hs hp hr h).1
    rw [Stores, (((hn.step e) ref.manager).holds p).token]
    exact congrArg PeerState.token? hkept
  | failed error =>
    cases error with
    | unsupported command => exact (mark_eq_some (hn.step e)).mpr (h.about_eq hn hr)
    | _ => trivial
  | lost => trivial

/-! ## Every load that can be reached -/

variable {peers : List Peer} {configs : List TokenConfig} {t : Nat}

theorem reached_keepsListening (hfresh : ∀ q ∈ peers, q.listeners = {})
    (hsent : (start peers configs).SentAt ref p es t) :
    (start peers configs).KeepsListening ref p es := by
  have h : ∀ es, ((start peers configs).after es).Regular := (regular_start hfresh configs).after
  obtain ⟨first,mid,rfl,_,hasks,_⟩ := (sentAt_iff (h []).orderly).mp hsent
  refine ⟨first,mid,rfl,hasks,?_⟩
  intro n₁
  have h₁ : n₁.Regular := (h first).step (.turn ref)
  cases hturn : n₁.ending? ref with
  | some ending =>
    -- its first turn has ended it, so there is nothing to listen for
    refine ⟨0,fun gap _ _ _ hopen => ?_⟩
    rw [after_ending h₁.orderly gap hturn] at hopen
    cases hopen
  | none =>
    obtain ⟨id,hl⟩ := listens_turn (h first) hasks hturn
    exact ⟨id,fun gap _ _ hshut hopen => hl.after h₁ hshut hopen⟩

/-- A load that has sent its request and does not run any more has come to its end. -/
theorem completed_of_gone (hfresh : ∀ q ∈ peers, q.listeners = {})
    (hsent : (start peers configs).SentAt ref p es t)
    (hgone : ¬ (((start peers configs).after es).manager ref.manager).loader.Running ref.load p) :
    (start peers configs).Completed ref p es := by
  have h : ∀ es, ((start peers configs).after es).Regular := (regular_start hfresh configs).after
  have hn : (start peers configs).Orderly := (h []).orderly
  rcases hsent.running hn with hr | ⟨before,e,later,ending,hes,hends,hr⟩
  · exact absurd hr hgone
  · obtain ⟨_,_,_,_,_,hp,_⟩ := (sentAt_iff hn).mp hsent
    have hp' : p < ((start peers configs).after before).peers.length := by rwa [after_peers_length]
    have hleaving := hends.leaving (h before).orderly hp' hr
    exact ⟨ending,over_of_ends (h es) hn hes hends hleaving,before,e,later,hes,hends,
      hends.stores (recounts peers configs before) (h before).orderly (h before).sane hp hr⟩

theorem completed_of_ending (hfresh : ∀ q ∈ peers, q.listeners = {})
    (hsent : (start peers configs).SentAt ref p es t)
    (hending : ((start peers configs).after es).ending? ref ≠ none) :
    (start peers configs).Completed ref p es := by
  refine completed_of_gone hfresh hsent ?_
  rintro ⟨task,ht,_⟩
  exact hending ((reached_orderly peers configs es _).loader.no_ending ht)

theorem completed_in_time (hfresh : ∀ q ∈ peers, q.listeners = {})
    (hsent : (start peers configs).SentAt ref p es t)
    (hready : ((start peers configs).after es).ready = [])
    (hdue : Clock.dueTick (Clock.deadline t
        (((start peers configs).after es).manager ref.manager).config.requestTimeout) ≤
      ((start peers configs).after es).sounded) :
    (start peers configs).Completed ref p es := by
  have h : ((start peers configs).after es).Regular := (regular_start hfresh configs).after es
  exact completed_of_gone hfresh hsent (not_running_in_time h (orderly_start peers configs)
    (dated peers configs es) hready hsent hdue)

/-- Once the ticks up to now are sounded, the tasks that stand in line can all have their turns. -/
theorem Regular.turns {n : Network} (h : n.Regular) : ∃ refs : List LoadRef,
    (n.after (.sound :: refs.map .turn)).ready = [] ∧
    (n.after (.sound :: refs.map .turn)).sounded = Clock.tick n.now := by
  obtain ⟨refs,hrefs⟩ := (n.step .sound).run_eq_after (n.step .sound).turnBound
  refine ⟨refs,?_,?_⟩
  · rw [after_cons, ← hrefs]
    exact settle_ready (h.step .sound)
  · rw [after_cons, turns_sounded]
    exact step_sounded _ .sound

end

end Network

namespace Lookups

open Network

variable {l : Lookups}

theorem course_append (l : Lookups) (steps steps' : List Step) :
    l.course (steps ++ steps') = l.course steps ++ (l.after steps).course steps' := by
  induction steps generalizing l with
  | nil => rfl
  | cons s steps ih =>
    rw [List.cons_append, course, ih, course, List.append_assoc]
    rfl

theorem course_events (l : Lookups) (es : List Event) : l.course (es.map .event) = es := by
  induction es generalizing l with
  | nil => rfl
  | cons e es ih => exact congrArg (e :: ·) (ih _)

theorem course_turns (l : Lookups) (steps : List Step) (refs : List LoadRef) :
    l.course (steps ++ .event .sound :: refs.map fun ref => .event (.turn ref)) =
      l.course steps ++ .sound :: refs.map .turn := by
  have hevents : (.event .sound :: refs.map fun ref => .event (.turn ref)) =
      (Event.sound :: refs.map .turn).map Step.event := by simp
  rw [hevents, course_append, course_events]

/-- Whether and when lookups are polled or dropped makes no difference to anybody else: two runs of
the managers in which otherwise the same happens come to the same state of caches, loads, marks,
connections and exchanges, have sent the same commands at the same times, and have answered the same
lookups in the same way; and a lookup that is dropped in neither has the same result in both. A load
goes on whether anybody waits for it or not: once it has sent its request it listens until it ends
or its connection is closed, it stores its token or marks its peer when it ends, and it has ended
when its timer has gone off and no task stands in line any more. -/
theorem abandoned_lookups_unnoticed {peers : List Peer} (hfresh : ∀ q ∈ peers, q.listeners = {})
    (configs : List TokenConfig) :
    let l := start peers configs
    let n := Network.start peers configs
    (∀ steps steps', others steps' = others steps →
      (l.after steps).net.Agrees (l.after steps').net ∧ l.sends steps' = l.sends steps ∧
      (l.after steps').made.map (·.answer) = (l.after steps).made.map (·.answer) ∧
      ∀ i, (l.after steps).isKept i = true → (l.after steps').isKept i = true →
        (l.after steps').outcome? i = (l.after steps).outcome? i) ∧
    ∀ steps (m : Fin configs.length) (id p t : Nat),
      let es := l.course steps
      let due := Clock.dueTick (Clock.deadline t (configs.get m).requestTimeout)
      (l.after steps).net = n.after es ∧ (n.SentAt ⟨m,id⟩ p es t →
        n.KeepsListening ⟨m,id⟩ p es ∧
        ((n.after es).ending? ⟨m,id⟩ ≠ none ∨
          ((n.after es).ready = [] ∧ due ≤ (n.after es).sounded) → n.Completed ⟨m,id⟩ p es) ∧
        ∃ refs : List LoadRef,
          let steps' := steps ++ .event .sound :: refs.map fun ref => .event (.turn ref)
          (l.after steps').net.ready = [] ∧
          (due ≤ Clock.tick (n.after es).now → n.Completed ⟨m,id⟩ p (l.course steps'))) := by
  intro l n
  have hn : n.Orderly := orderly_start peers configs
  have hregular : ∀ es, (n.after es).Regular := (regular_start hfresh configs).after
  have hnet : ∀ steps, (l.after steps).net = n.after (l.course steps) := l.after_net
  refine ⟨?_,?_⟩
  · intro steps steps' hsame
    have hu : untouched steps' = untouched steps := congrArg (List.map Step.event) hsame
    have hl : Shadows l l := ⟨.refl _,rfl⟩
    have hs := hl.after steps
    have hs' := hl.after steps'
    rw [hu] at hs'
    have hagree : (l.after steps).net.Agrees (l.after steps').net := hs.net.symm.trans hs'.net
    have hanswers := hs'.answers.trans hs.answers.symm
    refine ⟨hagree,?_,hanswers,fun i hi hi' => ?_⟩
    · rw [hl.sends steps', hl.sends steps, hu]
    · have hf : ∀ steps, Faithful (l.after steps) := (faithful_start peers configs).after hn
      exact (hf steps).outcome_eq (hf steps') hagree hanswers hi hi'
  · intro steps m id p t es due
    have hconfig : ∀ es, ((n.after es).manager m).config = configs.get m :=
      fun es => reached_config peers configs es m
    refine ⟨hnet steps,fun hsent => ⟨reached_keepsListening hfresh hsent,?_,?_⟩⟩
    · rintro (hending | ⟨hready,hdue⟩)
      · exact completed_of_ending hfresh hsent hending
      · exact completed_in_time hfresh hsent hready (by rwa [hconfig])
    · obtain ⟨refs,hready,hsounded⟩ := (hregular es).turns
      have hcourse := l.course_turns steps refs
      refine ⟨refs,?_,fun hdue => ?_⟩
      · rw [hnet, hcourse, after_append]
        exact hready
      · rw [hcourse]
        refine completed_in_time hfresh (hsent.append _) ?_ ?_
        · rwa [after_append]
        · rwa [hconfig, after_append, hsounded]

/-- Two look a token up. Whether the first of them waits for it or goes, the second one gets it, and
if both go it is stored all the same. -/
theorem second_waits_alone :
    let l := start [{ name := "irc" }] [{}]
    let lookup := Step.event (.lookup 0 0)
    let work : List Step := [.event (.turn ⟨0,0⟩),
      .event (.deliver 0 (.of "EXTJWT" ["*", "*", "abc"])), .event (.turn ⟨0,0⟩)]
    let both := [lookup, lookup] ++ work ++ [.poll 0, .poll 1]
    let one := [lookup, .drop 0, lookup, .poll 1] ++ work
    let none := [lookup, .drop 0, lookup, .drop 1] ++ work
    (l.after one).outcome? 1 = (l.after both).outcome? 1 ∧
    (l.after both).outcome? 1 = some (.ok (some ⟨"abc",0⟩)) ∧ l.sends none = l.sends both ∧
    (l.after none).holds ⟨0,0⟩ = false ∧
    (Network.start [{ name := "irc" }] [{}]).Completed ⟨0,0⟩ 0 (l.course none) := by
  intro l lookup work both one none
  have hfresh : ∀ q ∈ [({ name := "irc" } : Peer)], q.listeners = {} := by simp
  obtain ⟨hsame,hloads⟩ := abandoned_lookups_unnoticed hfresh [{}]
  have hone := (hsame both one (by decide +kernel)).2.2.2 1 (by decide +kernel) (by decide +kernel)
  have hnone := (hsame both none (by decide +kernel)).2.1
  have hsent : (Network.start [{ name := "irc" }] [{}]).SentAt ⟨0,0⟩ 0 (l.course none) 0 :=
    ⟨[.lookup 0 0, .lookup 0 0],_,rfl,by decide +kernel,by decide +kernel⟩
  refine ⟨hone,by decide +kernel,hnone,by decide +kernel,?_⟩
  exact ((hloads none ⟨0,by decide⟩ 0 0 0).2 hsent).2.1 (.inl (by decide +kernel))

end Lookups

end ChatToken
