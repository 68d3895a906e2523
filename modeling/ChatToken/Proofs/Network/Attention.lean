import ChatToken.Proofs.Network.Changes
import ChatToken.Proofs.Network.History
import ChatToken.Proofs.Network.Queue

/-! # No task is forgotten

A task that does not stand in line has read all messages that there are for it, its connection still
delivers some, and its timer has not gone off. Whatever changes that puts the task into the line.
-/
namespace ChatToken

namespace Timer
variable {α : Type}

theorem mem_insertSorted {e e' : Timer × α} {l : List (Timer × α)} :
    e' ∈ insertSorted e l ↔ e' = e ∨ e' ∈ l := by
  induction l with
  | nil => simp [insertSorted]
  | cons first rest ih =>
    unfold insertSorted
    split
    · rw [List.mem_cons, ih, List.mem_cons, or_left_comm]
    · exact List.mem_cons

theorem mem_goingOff {sounded : Nat} {timers : List (Timer × α)} {a : α} {t : Timer}
    (h : (t, a) ∈ timers) (ht : t.isOff sounded = true) : a ∈ goingOff sounded timers := by
  have hfold : ∀ (off sorted : List (Timer × α)) (e : Timer × α), e ∈ off ∨ e ∈ sorted →
      e ∈ off.foldl (fun sorted e => insertSorted e sorted) sorted := by
    intro off
    induction off with
    | nil => simp
    | cons first off ih =>
      intro sorted e he
      refine ih _ e ?_
      rw [mem_insertSorted]
      rcases he with he | he
      · rcases List.mem_cons.mp he with rfl | he
        · exact .inr (.inl rfl)
        · exact .inl he
      · exact .inr (.inr he)
  exact List.mem_map.mpr ⟨_,hfold _ [] _ (.inl (List.mem_filter.mpr ⟨h,ht⟩)),rfl⟩

end Timer

def Exchange.Armed {μ : Type} (x : Exchange μ) : Prop :=
  ∃ t, x.timer = some t ∧ t.due = Clock.dueTick (Clock.deadline x.since x.timeout)

namespace Network

/-- The exchange `x` has read all there was, is connected, and its timer has not gone off. -/
structure Idle (n : Network) (x : Exchange Matcher) : Prop where
  early : ∃ t, x.timer = some t ∧ n.sounded < t.due
  hears : (n.peer x.peer).Hears x.listener true []

def Tells (n : Network) (p : Nat) (n' : Network) : Prop := ∀ ref ∈ n.loadsListening p, ref ∈ n'.ready

section
variable {n n' n'' : Network} {ref : LoadRef} {x : Exchange Matcher} {p : Nat}

/-! ## Messages wake -/

theorem Tells.calm (h : Tells n p n') (hc : Calm n' n'') : Tells n p n'' :=
  fun ref href => hc.ready.mem (h ref href)

theorem tells_deliver (n : Network) (p : Nat) (m : Message) : Tells n p (n.deliver p m) :=
  fun _ href => (mem_wakeAll _).mpr (.inr href)

theorem tells_deliverLines (n : Network) (p : Nat) {lines : List String} (h : messages lines ≠ []) :
    Tells n p (n.deliverLines p lines).2 := by
  cases lines with
  | nil => exact absurd rfl h
  | cons line lines =>
    unfold messages at h
    unfold deliverLines
    cases hp : Message.parse? line with
    | none =>
      rw [hp] at h
      exact absurd rfl h
    | some m => exact (n.tells_deliver p m).calm (calm_deliverLines ..)

theorem tells_send {command : String} {args : List String}
    (h : answers (n.peer p) command args ≠ []) : Tells n p (n.send p command args).2 := by
  have hs := n.stays_handed p command args
  unfold answers at h
  rw [send_eq]
  cases hr : ((n.peer p).send command args).1 with
  | error cause =>
    rw [hr] at h
    exact absurd rfl h
  | ok lines =>
    rw [hr] at h
    intro ref href
    exact tells_deliverLines _ p h ref (hs.loadsListening p ▸ href)

theorem tells_accept {m : Message} (h : ((n.peer p).handle m).isSome = true) :
    Tells n p (n.accept p m) := by
  obtain ⟨notices,heq⟩ := n.accept_eq p m
  obtain ⟨changed,hc⟩ := Option.isSome_iff_exists.mp h
  rw [heq, hc]
  have hs : Stays n ((n.note notices).onPeer p fun _ => changed) :=
    (Stays.of_inner (n.inner_note notices)).trans (.listeners _ p (handle_listeners hc))
  intro ref href
  exact tells_deliver _ p m ref (hs.loadsListening p ▸ href)

theorem tells_receive {r : Received} (h : accepted (n.peer p) r ≠ []) :
    Tells n p (n.receive p r) := by
  cases r with
  | failed reason => exact absurd rfl h
  | line line =>
    unfold accepted at h
    unfold receive
    dsimp only at h ⊢
    cases hm : Message.parse? line with
    | none =>
      rw [hm] at h
      exact absurd rfl h
    | some m =>
      rw [hm] at h
      dsimp only at h ⊢
      split at h
      · next hgo =>
        rw [Bool.and_eq_true] at hgo
        have hs := Stays.of_inner (n.inner_note [.lineReceived p line])
        rw [if_pos hgo.1]
        intro ref href
        exact tells_accept (n := n.note [.lineReceived p line]) hgo.2 ref
          (hs.loadsListening p ▸ href)
      · exact absurd rfl h

/-- Who listens already when a request is sent is told what is delivered meanwhile. -/
theorem tells_openRequest (ho : n.Owned) {h : Holder} (hno : n.exchanges.get? h = none)
    {service : Option String} (timeout : Span)
    (ha : answers (n.peer p) Reply.extjwt (Reply.anyTarget :: service.toList) ≠ []) :
    Tells n p (n.openRequest h p service timeout).2 := by
  intro ref href
  have hb := began_openExchange h p .extjwt timeout ho
  have hq := n.quiet_openExchange h p .extjwt timeout
  obtain ⟨x,hx,hp,hr⟩ := mem_loadsListening.mp href
  have hne : h ≠ .load ref := by
    rintro rfl
    rw [hno] at hx
    cases hx
  refine tells_send ?_ ref (mem_loadsListening.mpr ⟨x,(hb.others _ hne).trans hx,hp,?_⟩)
  · rwa [← answers_face, hq.face, answers_face]
  · rw [hb.registered]
    exact List.mem_append_left _ hr

/-- Whatever a connection delivers wakes the tasks that listen to it. -/
theorem told_of_delivers (hn : n.Orderly) (hs : n.Sane) (ho : n.Owned) {e : Event}
    (hd : n.delivers p e ≠ []) (href : ref ∈ n.loadsListening p) (hother : e ≠ .turn ref) :
    ref ∈ (n.step e).ready := by
  cases e with
  | deliver q m =>
    simp only [delivers, ne_eq, ite_eq_right_iff, not_forall] at hd
    obtain ⟨rfl,_⟩ := hd
    exact n.tells_deliver q m ref href
  | receive q r =>
    simp only [delivers, ne_eq, ite_eq_right_iff, not_forall] at hd
    obtain ⟨rfl,hr⟩ := hd
    exact tells_receive hr ref href
  | send q command args =>
    simp only [delivers, ne_eq, ite_eq_right_iff, not_forall] at hd
    obtain ⟨rfl,ha⟩ := hd
    exact tells_send ha ref href
  | turn ref' =>
    simp only [delivers, ne_eq, ite_eq_right_iff, not_forall] at hd
    obtain ⟨hasks,ha⟩ := hd
    obtain ⟨t,ht,hb,rfl⟩ := (asks?_eq_some hn).mp hasks
    let c := n.called ref'
    have hgoes := (arrive_of_sound (n := c) (hn _) ht).1
    have hi : Inner n (c.arrive ref' t.key).2 := (n.inner_called ref').trans (c.inner_arrive ..)
    have hno : (c.arrive ref' t.key).2.exchanges.get? (.load ref') = none := by
      rw [hi.exchanges]
      exact hs.no_request ht hb
    have hask : ref ∈ (c.ask ref' t.key).2.ready := by
      refine tells_openRequest (ho.inner hi) hno _ ?_ ref ?_
      · rwa [hi.peer]
      · rwa [(Stays.of_inner hi).loadsListening]
    have hne : ref ≠ ref' := fun h => hother (congrArg Event.turn h).symm
    have hw := c.work_worked ref' t
    rw [step_turn n ht]
    refine record_ready hne t.key _ ?_
    generalize (n.called ref').work ref' t = r at hw
    obtain ⟨w,n'⟩ := r
    dsimp only at hw ⊢
    cases hw with
    | resumed hb' => rw [hb] at hb'; cases hb'
    | withheld _ harrive => rw [hgoes] at harrive; cases harrive
    | sent => exact (still_inquire ..).calm.ready.mem hask
    | failed cause => exact (still_failRequest ..).calm.ready.mem hask
    | broken => exact hask
  | _ => exact absurd rfl hd

/-! ## The end of a connection and timers wake -/

/-- Whoever is dropped is told. -/
theorem told_or_registered (hn : n.Orderly) (hs : n.Sane) (ho : n.Owned) {e : Event}
    (hx : n.exchanges.get? (.load ref) = some x) (hr : x.listener ∈ n.registered x.peer)
    (hother : e.holder? ≠ some (.load ref)) :
    ref ∈ (n.step e).ready ∨ x.listener ∈ (n.step e).registered x.peer := by
  have hl := mem_loadsListening.mpr ⟨x,hx,rfl,hr⟩
  cases act_change hn hs ho (.event e) with
  | stays hs => exact .inr ((hs.registered _).symm ▸ hr)
  | @closed p hc _ =>
    by_cases hp : p = x.peer
    · subst hp
      exact .inl (hc.told ref hl)
    · exact .inr (((hc.registered _).trans (if_neg hp)).symm ▸ hr)
  | @ended h x' hx' hleaves he =>
    have hne : h ≠ .load ref := by
      rintro rfl
      exact hother hleaves.holder
    refine .inr ?_
    have hreg := he.registered x.peer
    split at hreg
    · next hp =>
      have hapart := ho.tidy.apart h _ x' x hx' hx hne hp (hp ▸ lt_of_registered hr)
      exact hreg ▸ List.mem_filter.mpr ⟨hr,by simpa using hapart.symm⟩
    · exact hreg ▸ hr
  | kept _ _ hk => exact .inr ((hk.registered _).symm ▸ hr)
  | began _ hb => exact .inr ((hb.registered _).symm ▸ List.mem_append_left _ hr)
  | tried _ ht => exact .inr ((ht.registered _).symm ▸ hr)

/-- A timer that goes off wakes its task. -/
theorem told_of_sound (hx : n.exchanges.get? (.load ref) = some x) {t : Timer}
    (ht : x.timer = some t) (hdue : t.due ≤ Clock.tick n.now) : ref ∈ (n.step .sound).ready := by
  have htimer : (t, Holder.load ref) ∈ n.timers := by
    refine List.mem_filterMap.mpr ⟨(.load ref, x),(Table.mem_entries_iff ..).mpr hx,?_⟩
    simp [ht]
  refine (mem_wakeAll _).mpr (.inr (List.mem_filterMap.mpr ⟨.load ref,?_,rfl⟩))
  exact Timer.mem_goingOff htimer (by simpa [Timer.isOff] using hdue)

/-- A task that has nothing to do goes on to have nothing to do, or is put into the line. -/
theorem Idle.step (hn : n.Orderly) (hs : n.Sane) (ho : n.Owned) (hi : n.Idle x)
    (hx : n.exchanges.get? (.load ref) = some x) {e : Event}
    (hother : e.holder? ≠ some (.load ref)) : ref ∈ (n.step e).ready ∨ (n.step e).Idle x := by
  have hr : x.listener ∈ n.registered x.peer := List.contains_iff_mem.mp hi.hears.registered
  have hl := mem_loadsListening.mpr ⟨x,hx,rfl,hr⟩
  obtain ⟨t,ht,hearly⟩ := hi.early
  by_cases hd : n.delivers x.peer e = []
  · obtain ⟨open',got,hh,hgot,_⟩ :=
      (step_carries hn ho.tidy e).relays _ x hother hx (lt_of_registered hr) _ _ hi.hears
    rw [hd] at hgot
    obtain rfl := List.prefix_nil.mp hgot
    rcases told_or_registered hn hs ho hx hr hother with htold | hreg
    · exact .inl htold
    · have hopen : open' = true := by
        rw [← hh.registered]
        exact List.contains_iff_mem.mpr hreg
      subst hopen
      have hsounded := n.step_sounded e
      split at hsounded
      · next he =>
        subst he
        by_cases hdue : t.due ≤ Clock.tick n.now
        · exact .inl (told_of_sound hx ht hdue)
        · exact .inr ⟨⟨t,ht,by rw [hsounded]; omega⟩,hh⟩
      · exact .inr ⟨⟨t,ht,hsounded ▸ hearly⟩,hh⟩
  · refine .inl (told_of_delivers hn hs ho hd hl ?_)
    rintro rfl
    exact hother rfl

/-! ## Turns -/

def Fresh (n : Network) (x : Exchange Matcher) : Prop :=
  x.Armed ∨ (x.timer = none ∧ x.since = n.now)

theorem Fresh.looked (h : n.Fresh x) : (n.looked x).exchange.Armed := by
  have htimeout := (n.looked_exchange x).2.2
  unfold Exchange.Armed
  rw [looked_timer, looked_since, htimeout, Exchange.arm]
  rcases h with ⟨t,ht,hdue⟩ | ⟨hnone,hsince⟩
  · exact ⟨t,by rw [ht]; rfl,hdue⟩
  · exact ⟨Timer.set n.now x.timeout n.tickets,by rw [hnone]; rfl,by rw [hsince]; rfl⟩

/-- Where there is nothing to do, a look resolves nothing. -/
theorem Idle.unresolved (h : n.Idle x) : (n.looked x).result = none := by
  obtain ⟨t,ht,hearly⟩ := h.early
  have hsaid : n.said x = none := by rw [said, h.hears.unread_eq]; rfl
  rw [looked_said, hsaid, h.hears.registered]
  simpa [Exchange.timedOut, Exchange.arm, Timer.isOff, ht] using hearly

/-- A look that does not resolve an exchange leaves nothing to do. -/
theorem idle_drained (ho : n.Owned) {h : Holder} (hx : n.exchanges.get? h = some x)
    (hr : (n.looked x).result = none) : (n.drained h x).Idle (n.looked x).exchange := by
  obtain ⟨hpeer,hlistener,_⟩ := n.looked_exchange x
  rw [looked_said, Option.or_eq_none_iff] at hr
  have hopen : (n.peer x.peer).listeners.isRegistered x.listener = true := by
    by_contra hc
    simp [Bool.eq_false_iff.mpr hc] at hr
  have hp : x.peer < n.peers.length := lt_of_registered (List.contains_iff_mem.mp hopen)
  constructor
  · have hearly : n.sounded < (x.timer.getD (Timer.set n.now x.timeout n.tickets)).due := by
      simpa [hopen, Exchange.timedOut, Exchange.arm, Timer.isOff] using hr.2
    exact ⟨_,n.looked_timer x,hearly⟩
  · obtain ⟨unread,hu⟩ := Option.isSome_iff_exists.mp (ho.inbox h x hx hp)
    have hh : (n.peer x.peer).Hears x.listener true unread :=
      ⟨hopen,hu,ho.tidy.known h x hx hp⟩
    rw [hpeer, hlistener, drained_peer, if_pos ⟨rfl,hp⟩]
    exact hh.drain

theorem Owned.ask (ho : n.Owned) (hno : n.exchanges.get? (.load ref) = none) (p : Nat) :
    (n.ask ref p).2.Owned := by
  have ha := n.inner_arrive ref p
  have ho' := ho.inner ha
  rw [← ha.exchanges] at hno
  have hbegan := began_openRequest ho' hno p (n.manager ref.manager).config.service
    (n.manager ref.manager).config.requestTimeout
  exact ho'.began hno hbegan (carries_ask ho.tidy ref p).tidy (n.outer_ask ref p).length

/-- All tasks that wait stand in line or have nothing to do, and those that have run have an exchange
whose timer is set. -/
structure Attended (n : Network) : Prop where
  waiting : ∀ ref t, (n.manager ref.manager).loader.tasks.get? ref.load = some t →
    ref ∈ n.ready ∨ ∃ x, n.exchanges.get? (.load ref) = some x ∧ n.Idle x
  armed : ∀ ref t, (n.manager ref.manager).loader.tasks.get? ref.load = some t →
    t.begun = true → ∃ x, n.exchanges.get? (.load ref) = some x ∧ x.Armed

theorem Inquired.idle (h : Inquired n ref .waits n') (ho : n.Owned)
    (hx : ∃ x, n.exchanges.get? (.load ref) = some x ∧ n.Fresh x) :
    ∃ x, n'.exchanges.get? (.load ref) = some x ∧ x.Armed ∧ n'.Idle x := by
  obtain ⟨x,hx,hf⟩ := hx
  generalize hw : Turn.waits = w at h
  cases h with
  | gone hno =>
    rw [hno] at hx
    cases hx
  | @open_ x₁ hx₁ hr =>
    rw [hx] at hx₁
    cases hx₁
    exact ⟨_,(drained_exchange hx _).trans (if_pos rfl),hf.looked,idle_drained ho hx hr⟩
  | resolved => cases hw

/-- A task that is still there after its turn has nothing to do. -/
theorem Attended.turn (hn : n.Orderly) (hs : n.Sane) (ho : n.Owned) (h : n.Attended)
    {t' : LoadTask Nat Token TokenError}
    (ht' : ((n.step (.turn ref)).manager ref.manager).loader.tasks.get? ref.load = some t') :
    ∃ x, (n.step (.turn ref)).exchanges.get? (.load ref) = some x ∧ x.Armed ∧
      (n.step (.turn ref)).Idle x := by
  let c := n.called ref
  have hc : Inner n c := n.inner_called ref
  cases ht : (n.manager ref.manager).loader.tasks.get? ref.load with
  | none =>
    have hsame : n.step (.turn ref) = c := c.runLoad_of_gone ht
    rw [hsame] at ht'
    have hnone : (c.manager ref.manager).loader.tasks.get? ref.load = none := ht
    rw [hnone] at ht'
    cases ht'
  | some t =>
    -- a load that has ended has no task
    have hopen : (n.step (.turn ref)).ending? ref = none := (hn.step _ _).loader.no_ending ht'
    rcases inquired_of_open hn ht hopen with ⟨hb,hi⟩ | ⟨hb,hi⟩
    · obtain ⟨x,hx,harmed⟩ := h.armed ref t ht hb
      exact hi.idle (ho.inner hc) ⟨x,hx,.inl harmed⟩
    · have hno : c.exchanges.get? (.load ref) = none := hs.no_request ht hb
      refine hi.idle ((ho.inner hc).ask hno t.key) ⟨_,ask_exchange c ref t.key,.inr ⟨rfl,?_⟩⟩
      exact ((c.outer_ask ref t.key).now.trans (c.inner_arrive ref t.key).now).symm

/-! ## Every reachable network is attended -/

/-- A load that is there after an event was there before, or a lookup has just started it. -/
theorem task_before (hn : n.Orderly) {e : Event} {t : LoadTask Nat Token TokenError}
    (ht : ((n.step e).manager ref.manager).loader.tasks.get? ref.load = some t)
    (hturn : e ≠ .turn ref) (hdie : e ≠ .die ref) :
    (n.manager ref.manager).loader.tasks.get? ref.load = some t ∨
    (e = .lookup ref.manager t.key ∧ t.begun = false ∧ ref ∈ (n.step e).ready) := by
  have hm : ref.manager < n.managers.length := n.step_managers_length e ▸ lt_of_task ht
  rcases step_moved hn hm e with hl | ⟨d,hd,hl⟩
  · exact .inl (hl ▸ ht)
  · rcases hl.task ht with h | ⟨rfl,_⟩ | ⟨hid,hw,rfl⟩
    · exact .inl h
    · rcases event_of_load hd rfl with rfl | rfl
      · exact absurd rfl hturn
      · exact absurd rfl hdie
    · obtain rfl := (event_of_deed? hd).1 _ rfl
      refine .inr ⟨rfl,by rw [LoadTask.begun, hw],?_⟩
      have ho : (n.lookup ref.manager t.key).2.Orderly := hn.step (.lookup ref.manager t.key)
      have habout : (n.lookup ref.manager t.key).2.about ref.manager t.key = .pending ref.load :=
        (ho _).about_eq_pending.mpr ⟨t,ht,rfl,(ho _).live _ _ ht⟩
      rw [hid] at habout
      have hready := lookup_ready hn hm habout
      have href : n.nextRef ref.manager = ref := congrArg (LoadRef.mk ref.manager) hid.symm
      rwa [href] at hready

theorem Attended.step (hn : n.Orderly) (hs : n.Sane) (ho : n.Owned) (h : n.Attended) (e : Event) :
    (n.step e).Attended := by
  have hc := step_carries hn ho.tidy e
  have hboth : ∀ ref t, ((n.step e).manager ref.manager).loader.tasks.get? ref.load = some t →
      (ref ∈ (n.step e).ready ∨ ∃ x, (n.step e).exchanges.get? (.load ref) = some x ∧
        (n.step e).Idle x) ∧
      (t.begun = true → ∃ x, (n.step e).exchanges.get? (.load ref) = some x ∧ x.Armed) := by
    intro ref t ht
    by_cases hturn : e = .turn ref
    · subst hturn
      obtain ⟨x,hx,harmed,hidle⟩ := h.turn hn hs ho ht
      exact ⟨.inr ⟨x,hx,hidle⟩,fun _ => ⟨x,hx,harmed⟩⟩
    · have hdie : e ≠ .die ref := by
        rintro rfl
        rw [task_of_die hn] at ht
        cases ht
      have hother : e.holder? ≠ some (.load ref) := by
        cases e <;> simp_all [Event.holder?]
      rcases task_before hn ht hturn hdie with ht₀ | ⟨_,hb,hready⟩
      · constructor
        · rcases h.waiting ref t ht₀ with hready | ⟨x,hx,hidle⟩
          · exact .inl (step_ready hturn hdie hready)
          · exact (hidle.step hn hs ho hx hother).imp_right
              fun hi => ⟨x,(hc.exchanges _ hother).trans hx,hi⟩
        · intro hb
          obtain ⟨x,hx,harmed⟩ := h.armed ref t ht₀ hb
          exact ⟨x,(hc.exchanges _ hother).trans hx,harmed⟩
      · refine ⟨.inl hready,fun hb' => ?_⟩
        rw [hb] at hb'
        cases hb'
  exact ⟨fun ref t ht => (hboth ref t ht).1,fun ref t ht => (hboth ref t ht).2⟩

theorem attended_start (peers : List Peer) (configs : List TokenConfig) :
    (start peers configs).Attended := by
  have hnone : ∀ (ref : LoadRef) t,
      ((start peers configs).manager ref.manager).loader.tasks.get? ref.load ≠ some t := by
    intro ref t ht
    rw [start_manager] at ht
    cases ht
  exact ⟨fun ref t ht => absurd ht (hnone ref t),fun ref t ht => absurd ht (hnone ref t)⟩

structure Regular (n : Network) : Prop where
  orderly : n.Orderly
  sane : n.Sane
  owned : n.Owned
  attended : n.Attended
  nodup : n.ready.Nodup

theorem Regular.step (h : n.Regular) (e : Event) : (n.step e).Regular where
  orderly := h.orderly.step e
  sane := h.sane.step h.orderly e
  owned := h.owned.act h.orderly h.sane (.event e)
  attended := h.attended.step h.orderly h.sane h.owned e
  nodup := step_nodup h.nodup e

theorem Regular.after (h : n.Regular) (es : List Event) : (n.after es).Regular := by
  induction es generalizing n with
  | nil => exact h
  | cons e es ih => exact ih (h.step e)

/-- What is regular stays so as long as managers, connections, exchanges and the line do. -/
theorem Regular.inner (h : n.Regular) (hi : Inner n n') (hm : n'.managers = n.managers)
    (hs : Still n n') : n'.Regular := by
  have howned := h.owned.inner hi
  have hmanager : ∀ m, n'.manager m = n.manager m := fun m => congrArg (·.getD m default) hm
  have hidle : ∀ {x}, n.Idle x → n'.Idle x := fun hx =>
    ⟨hs.sounded ▸ hx.early,hi.peer _ ▸ hx.hears⟩
  refine ⟨h.orderly.of_managers hm,h.sane.of_managers hm howned.tidy fun _ => by rw [hi.exchanges],
    howned,⟨fun ref t ht => ?_,fun ref t ht => ?_⟩,hs.ready ▸ h.nodup⟩
  · rw [hmanager] at ht
    rw [hs.ready, hi.exchanges]
    exact (h.attended.waiting ref t ht).imp_right fun ⟨x,hx,hx'⟩ => ⟨x,hx,hidle hx'⟩
  · rw [hmanager] at ht
    rw [hi.exchanges]
    exact h.attended.armed ref t ht

theorem regular_start {peers : List Peer} (hfresh : ∀ q ∈ peers, q.listeners = {})
    (configs : List TokenConfig) : (start peers configs).Regular where
  orderly := orderly_start peers configs
  sane := reached_sane peers configs []
  owned := owned_start hfresh configs
  attended := attended_start peers configs
  nodup := List.nodup_nil

end

end Network

end ChatToken
