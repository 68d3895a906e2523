import ChatToken.Proofs.Network.Outcomes
import ChatToken.Proofs.Network.Settling

/-! # Loads end in time

A load that runs has sent its request, and its timer, which was set at that moment, has not gone off.
So every load comes to an end when its timer goes off, whatever its peer says until then.
-/
namespace ChatToken.Network

def SentAt (n : Network) (ref : LoadRef) (p : Nat) (es : List Event) (t : Nat) : Prop :=
  ∃ first mid, es = first ++ .turn ref :: mid ∧ (n.after first).now = t ∧
    (n.after first).sentSince ((n.after first).step (.turn ref)) p =
      [request ((n.after first).manager ref.manager).config]

def Leaving (n : Network) (e : Event) (ref : LoadRef) (p : Nat) : Ending Token TokenError → Prop
  | .loaded tok => ((n.step e).manager ref.manager).loader.cache.get? p = some tok ∨
    ∀ es, .lookup ref.manager p ∉ es → ((n.step e).after es).StartsRequest ref.manager p
  | .failed (.unsupported _) =>
    ((n.step e).manager ref.manager).marks.since.get? p = some n.now
  | _ => ∀ es, .lookup ref.manager p ∉ es → ((n.step e).after es).StartsRequest ref.manager p

/-- During some events the load `ref` of `p` has come to its end: whoever waits for it is told, and
nobody listens to `p` on its behalf. -/
structure Over (n : Network) (ref : LoadRef) (p : Nat) (es : List Event)
    (ending : Ending Token TokenError) : Prop where
  ends : ∃ before e later, es = before ++ e :: later ∧ (n.after before).Ends e ref ending ∧
    (n.after before).Leaving e ref p ending
  result : ((n.after es).observe ref).1 = some ending.outcome
  exchange : (n.after es).exchanges.get? (.load ref) = none
  listeners : ∀ id ∈ (n.after es).registered p, ∃ h x, (n.after es).exchanges.get? h = some x ∧
    h ≠ .load ref ∧ x.peer = p ∧ x.listener = id

section
variable {n n' : Network} {ref : LoadRef} {p t : Nat} {es : List Event} {x : Exchange Matcher}

/-! ## When requests were sent -/

theorem SentAt.append (h : n.SentAt ref p es t) (es' : List Event) :
    n.SentAt ref p (es ++ es') t := by
  obtain ⟨first,mid,rfl,h⟩ := h
  exact ⟨first,mid ++ es',by simp,h⟩

theorem sentAt_iff (hn : n.Orderly) : n.SentAt ref p es t ↔
    ∃ first mid, es = first ++ .turn ref :: mid ∧ (n.after first).now = t ∧
      (n.after first).asks? ref = some p ∧ p < n.peers.length ∧
      ((n.after first).peer p).connected = true := by
  refine exists_congr fun first => exists_congr fun mid => and_congr_right fun _ =>
    and_congr_right fun _ => ?_
  rw [sentSince_step (hn.after first) rfl, sends, after_peers_length]
  split
  · next h => simp [h, request]
  · next h => simp [h]

/-- A load that goes on behind its first turn has sent its request in it. -/
theorem connected_of_open (hn : n.Orderly) (hasks : n.asks? ref = some p)
    (hopen : (n.step (.turn ref)).ending? ref = none) : (n.peer p).connected = true := by
  cases hc : (n.peer p).connected with
  | true => rfl
  | false =>
    rw [(ends_of_disconnected hn hasks hc).2] at hopen
    cases hopen

def Dated (n : Network) (es : List Event) : Prop :=
  ∀ ref x, (n.after es).exchanges.get? (.load ref) = some x → x.peer < n.peers.length →
    n.SentAt ref x.peer es x.since

theorem Inquired.since {w : Turn} (h : Inquired n ref w n')
    (hx : n'.exchanges.get? (.load ref) = some x) :
    ∃ x₀, n.exchanges.get? (.load ref) = some x₀ ∧ x.since = x₀.since ∧ x.peer = x₀.peer := by
  cases h with
  | gone => exact ⟨x,hx,rfl,rfl⟩
  | open_ hsome =>
    rw [drained_exchange hsome, if_pos rfl] at hx
    cases hx
    exact ⟨_,hsome,n.looked_since _,(n.looked_exchange _).1⟩
  | resolved _ _ hno =>
    rw [hno] at hx
    cases hx

theorem Dated.turn (h : n.Dated es) (hn₀ : n.Orderly) (hn : (n.after es).Orderly)
    (hs : (n.after es).Sane)
    (hx : ((n.after es).step (.turn ref)).exchanges.get? (.load ref) = some x)
    (hp : x.peer < n.peers.length) : n.SentAt ref x.peer (es ++ [.turn ref]) x.since := by
  obtain ⟨t,ht⟩ := hs.task_of_turn hx
  obtain ⟨hserves,hopen⟩ := hs.request_turn hn ht hx
  rcases inquired_of_open hn ht hopen with ⟨hb,hi⟩ | ⟨hb,hi⟩
  · obtain ⟨x₀,hx₀,hsince,hpeer⟩ := hi.since hx
    rw [hpeer] at hp
    rw [hsince, hpeer]
    exact (h ref x₀ hx₀ hp).append _
  · obtain ⟨x₀,hx₀,hsince,hpeer⟩ := hi.since hx
    rw [ask_exchange] at hx₀
    cases hx₀
    have hasks : (n.after es).asks? ref = some x.peer :=
      (asks?_eq_some hn).mpr ⟨t,ht,hb,hserves.peer.symm⟩
    exact (sentAt_iff hn₀).mpr ⟨es,[],rfl,hsince.symm,hasks,hp,connected_of_open hn hasks hopen⟩

theorem Dated.concat (h : n.Dated es) (hn₀ : n.Orderly) (hn : (n.after es).Orderly)
    (hs : (n.after es).Sane) (e : Event) : n.Dated (es ++ [e]) := by
  intro ref x hx hp
  rw [after_concat] at hx
  by_cases hturn : e = .turn ref
  · subst hturn
    exact h.turn hn₀ hn hs hx hp
  · obtain ⟨_,_,hx'⟩ := request_kept hn hs.tidy hturn hx
    exact (h ref x hx' hp).append [e]

theorem dated (peers : List Peer) (configs : List TokenConfig) (es : List Event) :
    (start peers configs).Dated es := by
  induction es using List.reverseRecOn with
  | nil =>
    intro ref x hx
    cases hx
  | append_singleton es e ih =>
    exact ih.concat (orderly_start peers configs) (reached_orderly peers configs es)
      (reached_sane peers configs es) e

/-- A load sends its request once. -/
theorem SentAt.unique (hn : n.Orderly) {t' p' : Nat} (h : n.SentAt ref p es t)
    (h' : n.SentAt ref p' es t') : t = t' := by
  obtain ⟨first,mid,hes,rfl,hasks,_⟩ := (sentAt_iff hn).mp h
  obtain ⟨first',mid',hes',rfl,hasks',_⟩ := (sentAt_iff hn).mp h'
  rcases List.append_eq_append_iff.mp (hes.symm.trans hes') with ⟨gap,rfl,hmid⟩ | ⟨gap,rfl,hmid⟩
  · cases gap with
    | nil => simp
    | cons e gap =>
      cases hmid
      rw [after_append, asks?_later (hn.after first) hasks] at hasks'
      cases hasks'
  · cases gap with
    | nil => simp
    | cons e gap =>
      cases hmid
      rw [after_append, asks?_later (hn.after first') hasks'] at hasks
      cases hasks

/-! ## When loads end -/

/-- A load that runs when no task stands in line waits for its timer. -/
theorem running_in_time (hdated : n.Dated es) (hs : (n.after es).Sane)
    (ha : (n.after es).Attended) (hready : (n.after es).ready = [])
    (hr : ((n.after es).manager ref.manager).loader.Running ref.load p) :
    ∃ t, n.SentAt ref p es t ∧ (n.after es).sounded < Clock.dueTick (Clock.deadline t
      ((n.after es).manager ref.manager).config.requestTimeout) := by
  obtain ⟨task,ht,rfl,_⟩ := hr
  obtain ⟨x,hx,hidle⟩ : ∃ x, (n.after es).exchanges.get? (.load ref) = some x ∧
      (n.after es).Idle x := by
    rcases ha.waiting ref task ht with hmem | h
    · rw [hready] at hmem
      cases hmem
    · exact h
  obtain ⟨task',ht',hb,hserves⟩ := hs.requests ref x hx
  rw [ht] at ht'
  cases ht'
  obtain ⟨x',hx',timer,htimer,hdue⟩ := ha.armed ref task ht hb
  rw [hx] at hx'
  cases hx'
  obtain ⟨timer',htimer',hearly⟩ := hidle.early
  rw [htimer] at htimer'
  cases htimer'
  have hp : x.peer < n.peers.length := by
    rw [← n.after_peers_length es]
    exact lt_of_registered (List.contains_iff_mem.mp hidle.hears.registered)
  refine ⟨x.since,hserves.peer ▸ hdated ref x hx hp,?_⟩
  rwa [hdue, hserves.timeout] at hearly

/-- Once no task stands in line and its timer has gone off, a load does not run any more. -/
theorem not_running_in_time (h : (n.after es).Regular) (hn : n.Orderly) (hdated : n.Dated es)
    (hready : (n.after es).ready = []) (hsent : n.SentAt ref p es t)
    (hdue : Clock.dueTick (Clock.deadline t
      ((n.after es).manager ref.manager).config.requestTimeout) ≤ (n.after es).sounded) :
    ¬ ((n.after es).manager ref.manager).loader.Running ref.load p := by
  intro hr
  obtain ⟨t',hsent',hearly⟩ := running_in_time hdated h.sane h.attended hready hr
  obtain rfl := hsent.unique hn hsent'
  exact absurd hdue (Nat.not_le.mpr hearly)

/-- A load that has sent its request has not ended yet, or some event has ended it. -/
theorem SentAt.running (hn : n.Orderly) (h : n.SentAt ref p es t) :
    ((n.after es).manager ref.manager).loader.Running ref.load p ∨
    ∃ a e b ending, es = a ++ e :: b ∧ (n.after a).Ends e ref ending ∧
      ((n.after a).manager ref.manager).loader.Running ref.load p := by
  obtain ⟨first,mid,rfl,_,hasks,_⟩ := (sentAt_iff hn).mp h
  obtain ⟨task,ht,_,rfl⟩ := (asks?_eq_some (hn.after first)).mp hasks
  have hm := lt_of_task ht
  have hr : ((n.after first).manager ref.manager).loader.Running ref.load task.key :=
    ⟨task,ht,rfl,(hn.after first _).live _ _ ht⟩
  have hno : (n.after first).ending? ref = none := (hn.after first _).loader.no_ending ht
  rw [after_append]
  cases he : ((n.after first).after (.turn ref :: mid)).ending? ref with
  | none => exact .inl (running_after (hn.after first) hm hr _ he)
  | some ending =>
    obtain ⟨a,e,b,hab,hends⟩ := (ending_iff_ends (hn.after first) hno).mp he
    refine .inr ⟨first ++ a,e,b,ending,by rw [hab, List.append_assoc],?_,?_⟩
    · rwa [after_append]
    · rw [after_append]
      exact running_after (hn.after first) hm hr a hends.1

/-- Whoever waits for a load that has ended is told, and its exchange is gone. -/
theorem over_of_ends (h : (n.after es).Regular) {before later : List Event} {e : Event}
    {ending : Ending Token TokenError} (hn : n.Orderly) (hes : es = before ++ e :: later)
    (hends : (n.after before).Ends e ref ending)
    (hleaving : (n.after before).Leaving e ref p ending) : n.Over ref p es ending := by
  have hending : (n.after es).ending? ref = some ending := by
    rw [hes, after_append]
    exact after_ending ((hn.after before).step e) later hends.2
  have hx : (n.after es).exchanges.get? (.load ref) = none := by
    cases hx : (n.after es).exchanges.get? (.load ref) with
    | none => rfl
    | some x =>
      obtain ⟨task,ht,_⟩ := h.sane.requests ref x hx
      rw [task_of_ending h.orderly hending] at ht
      cases ht
  refine ⟨⟨before,e,later,hes,hends,hleaving⟩,?_,hx,?_⟩
  · rw [observe_outcome, hending]
    rfl
  · intro id hid
    obtain ⟨h',x,hx',hp,hl⟩ := h.owned.owner p id hid
    refine ⟨h',x,hx',?_,hp,hl⟩
    rintro rfl
    rw [hx] at hx'
    cases hx'

/-- A load leaves a token if it counts already when it comes, a mark if the peer has refused, and
nothing otherwise. -/
theorem Ends.leaving (hn : n.Orderly) (hp : p < n.peers.length) {e : Event}
    {ending : Ending Token TokenError} (hr : (n.manager ref.manager).loader.Running ref.load p)
    (h : n.Ends e ref ending) : n.Leaving e ref p ending := by
  have hm : ref.manager < (n.step e).managers.length := by
    rw [n.step_managers_length e]
    exact lt_of_ends h
  have hp' : p < (n.step e).peers.length := by rwa [n.step_peers_length e]
  have again (hu : (n.step e).about ref.manager p = .unknown) (es : List Event) :
      .lookup ref.manager p ∉ es → ((n.step e).after es).StartsRequest ref.manager p :=
    asked_of_unknown (hn.step e) hm hp' hu
  have habout := h.about_eq hn hr
  cases ending with
  | loaded tok =>
    by_cases ha : (n.manager ref.manager).config.accepts n.now tok = true
    · refine .inl ?_
      have hvalid : (n.step e).about ref.manager p = .valid tok := by
        rw [habout, PeerState.left, if_pos ha]
      rw [(((hn.step e) ref.manager).holds p).token]
      exact congrArg PeerState.token? hvalid
    · exact .inr (again (by rw [habout, PeerState.left, if_neg ha]))
  | lost => exact again habout
  | failed error =>
    cases error with
    | unsupported command => exact (mark_eq_some (hn.step e)).mpr habout
    | _ => exact again habout

/-- Once no task stands in line and its timer has gone off, a load that has sent its request has come
to its end. -/
theorem over_in_time (h : (n.after es).Regular) (hn : n.Orderly) (hdated : n.Dated es)
    (hready : (n.after es).ready = []) (hsent : n.SentAt ref p es t)
    (hdue : Clock.dueTick (Clock.deadline t
      ((n.after es).manager ref.manager).config.requestTimeout) ≤ (n.after es).sounded) :
    ∃ ending, n.Over ref p es ending := by
  rcases hsent.running hn with hr | ⟨before,e,later,ending,hes,hends,hr⟩
  · exact absurd hr (not_running_in_time h hn hdated hready hsent hdue)
  · obtain ⟨_,_,_,_,_,hp,_⟩ := (sentAt_iff hn).mp hsent
    rw [← n.after_peers_length before] at hp
    exact ⟨ending,over_of_ends h hn hes hends (hends.leaving (hn.after before) hp hr)⟩

end

/-- Whatever the connections deliver, when no task stands in line, each load that runs has sent its
request, and its timer, which counts from that moment, has not gone off. So when the ticks have come
that far and all tasks have had their turns, the load has come to its end: whoever waits for it is
told, nobody listens on its behalf, and unless it has left a token or a mark the next lookup starts
a new request. -/
theorem no_load_stuck {peers : List Peer} (hfresh : ∀ q ∈ peers, q.listeners = {})
    (configs : List TokenConfig) (m : Fin configs.length) (p id : Nat) (es : List Event) :
    let n := start peers configs
    let due := fun t => Clock.dueTick (Clock.deadline t (configs.get m).requestTimeout)
    ((n.after es).ready = [] →
      (((n.after es).manager m).loader.Running id p →
        ∃ t, n.SentAt ⟨m,id⟩ p es t ∧ (n.after es).sounded < due t) ∧
      ∀ t, n.SentAt ⟨m,id⟩ p es t → due t ≤ (n.after es).sounded →
        ∃ ending, n.Over ⟨m,id⟩ p es ending) ∧
    ∃ refs : List LoadRef, let es' := es ++ .sound :: refs.map .turn
      n.after es' = ((n.after es).step .sound).settle ∧ (n.after es').ready = [] ∧
      ∀ t, n.SentAt ⟨m,id⟩ p es t → due t ≤ Clock.tick (n.after es).now →
        ∃ ending, n.Over ⟨m,id⟩ p es' ending := by
  intro n due
  have hn : n.Orderly := orderly_start peers configs
  have hregular : ∀ es, (n.after es).Regular := (regular_start hfresh configs).after
  have hconfig : ∀ es, ((n.after es).manager m).config = configs.get m :=
    fun es => reached_config peers configs es m
  have hover : ∀ es, (n.after es).ready = [] → ∀ t, n.SentAt ⟨m,id⟩ p es t →
      due t ≤ (n.after es).sounded → ∃ ending, n.Over ⟨m,id⟩ p es ending := by
    intro es hready t hsent hdue
    refine over_in_time (hregular es) hn (dated peers configs es) hready hsent ?_
    rwa [hconfig es]
  refine ⟨fun hready => ⟨fun hr => ?_,hover es hready⟩,?_⟩
  · have hearly : ∃ t, n.SentAt ⟨m,id⟩ p es t ∧ (n.after es).sounded < Clock.dueTick
        (Clock.deadline t ((n.after es).manager m).config.requestTimeout) :=
      running_in_time (dated peers configs es) (hregular es).sane (hregular es).attended hready hr
    rwa [hconfig es] at hearly
  · obtain ⟨refs,hrefs⟩ := ((n.after es).step .sound).run_eq_after
      ((n.after es).step .sound).turnBound
    have hafter : n.after (es ++ .sound :: refs.map .turn) =
        ((n.after es).step .sound).settle := by
      rw [after_append, after_cons, ← hrefs]
      rfl
    have hready := settle_ready ((hregular es).step .sound)
    have hsounded : (n.after (es ++ .sound :: refs.map .turn)).sounded =
        Clock.tick (n.after es).now := by
      rw [after_append, after_cons, turns_sounded]
      exact step_sounded _ .sound
    refine ⟨refs,hafter,hafter ▸ hready,fun t hsent hdue => ?_⟩
    exact hover _ (hafter ▸ hready) t (hsent.append _) (hsounded ▸ hdue)

/-- A peer that goes on to send pieces without an end has the default of ten seconds for it. -/
theorem endless_answer_given_up :
    let n := start [{ name := "irc" }] [{}]
    let piece := Event.deliver 0 (.of "EXTJWT" ["*", "irc", "*", "a"])
    let es := [.lookup 0 0, .turn ⟨0,0⟩, piece, .turn ⟨0,0⟩, .pass 9000000000, .sound, piece,
      .turn ⟨0,0⟩]
    (∃ t, n.SentAt ⟨0,0⟩ 0 es t ∧
      (n.after es).sounded < Clock.dueTick (Clock.deadline t (Span.ofSeconds 10))) ∧
    ∃ ending, n.Over ⟨0,0⟩ 0 (es ++ [.pass 1001000000, .sound, .turn ⟨0,0⟩]) ending := by
  intro n piece es
  have hfresh : ∀ q ∈ [({ name := "irc" } : Peer)], q.listeners = {} := by simp
  have h := no_load_stuck hfresh [{}] ⟨0,by decide⟩ 0 0
  have hsent : n.SentAt ⟨0,0⟩ 0 es 0 := ⟨[.lookup 0 0],_,rfl,by decide +kernel,by decide +kernel⟩
  refine ⟨((h es).1 (by decide +kernel)).1 (by decide +kernel),?_⟩
  exact ((h _).1 (by decide +kernel)).2 0 (hsent.append _) (by decide +kernel)

end ChatToken.Network
