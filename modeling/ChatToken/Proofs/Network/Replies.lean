import ChatToken.Proofs.Network.Delivery

/-! # How requests end

The request of a load ends with a token made of what its peer has delivered since it was sent, or
with one of a few errors.
-/
namespace ChatToken

inductive RequestError (c : TokenConfig) : TokenError → Prop where
  | unsupported : RequestError c (.unsupported Reply.extjwt)
  | timeout : RequestError c (.timeout c.requestTimeout)
  | protocol (detail : String) : RequestError c (.protocol detail)
  | malformed (detail : String) : RequestError c (.malformed detail)
  | disconnected : RequestError c .disconnected
  | sendFailed (cause : String) : RequestError c (.sendFailed cause)

inductive RequestResult (c : TokenConfig) (now : Nat) : Except TokenError Token → Prop where
  | token {value : String} : value ≠ "" → RequestResult c now (.ok ⟨value,now⟩)
  | failure {e : TokenError} : RequestError c e → RequestResult c now (.error e)

def Expected (c : TokenConfig) : Ending Token TokenError → Prop
  | .loaded t => t.value ≠ ""
  | .failed e => RequestError c e
  | .lost => True

theorem RequestResult.expected {c : TokenConfig} {now : Nat} {result : Except TokenError Token}
    (h : RequestResult c now result) : Expected c (Loader.endingOf result) := by
  cases h with
  | token hne => exact hne
  | failure he => exact he

namespace Reply

theorem classify_reject {m : Message} {e : TokenError} (h : classify m = .reject e) :
    e = .unsupported extjwt ∨ ∃ detail, e = .protocol detail := by
  unfold classify at h
  split at h
  · split at h
    · split at h <;> cases h
    · cases h
  · split at h
    · split at h
      · cases h
        exact .inl rfl
      · cases h
    · split at h
      · split at h
        · cases h
          exact .inr ⟨_,rfl⟩
        · cases h
      · cases h

theorem response_error {ms : List Message} {e : TokenError}
    (h : Verdict.response (ms.map classify) = some (.error e)) :
    e = .unsupported extjwt ∨ ∃ detail, e = .protocol detail := by
  unfold Verdict.response at h
  split at h
  · cases h
  · next e' hf =>
    cases h
    obtain ⟨m,_,hm⟩ := List.mem_map.mp (List.mem_of_find?_eq_some hf)
    exact classify_reject hm
  · cases h

end Reply

theorem verdicts_extjwt (ms : List Message) :
    Exchange.verdicts Matcher.classify .extjwt ms = ms.map Reply.classify := by
  induction ms with
  | nil => rfl
  | cons m ms ih => rw [Exchange.verdicts, List.map_cons]; exact congrArg _ ih

theorem after_extjwt (ms : List Message) :
    Exchange.after Matcher.classify .extjwt ms = .extjwt := by
  induction ms with
  | nil => rfl
  | cons m ms ih => exact ih

theorem ofPayload_cases (now : Nat) (payload : String) :
    (payload ≠ "" ∧ Token.ofPayload now payload = .ok ⟨payload,now⟩) ∨
    ∃ detail, Token.ofPayload now payload = .error (.malformed detail) := by
  unfold Token.ofPayload
  split
  · exact .inr ⟨_,rfl⟩
  · next h =>
    refine .inl ⟨?_,rfl⟩
    rintro rfl
    exact h rfl

namespace Network

section
variable {n n' : Network} {ref : LoadRef} {x : Exchange Matcher}

inductive Inquired (n : Network) (ref : LoadRef) : Turn → Network → Prop where
  | gone : n.exchanges.get? (.load ref) = none → Inquired n ref .waits n
  | open_ {x : Exchange Matcher} : n.exchanges.get? (.load ref) = some x →
      (n.looked x).result = none → Inquired n ref .waits (n.drained (.load ref) x)
  | resolved {x : Exchange Matcher} {result : Except TokenError String} {n' : Network} :
      n.exchanges.get? (.load ref) = some x → (n.looked x).result = some result →
      n'.exchanges.get? (.load ref) = none →
      Inquired n ref (.ended (result.bind (Token.ofPayload n.now))) n'

theorem dropLoad_exchange (n : Network) (ref : LoadRef) :
    (n.dropLoad ref).exchanges.get? (.load ref) = none :=
  (n.closeExchange_exchange (.load ref) (.load ref)).trans (if_pos rfl)

/-- A request is there after an event that is no turn of its task only if it was there before. -/
theorem request_kept (hn : n.Orderly) (ht : n.Tidy) {e : Event} (hturn : e ≠ .turn ref)
    (hx : (n.step e).exchanges.get? (.load ref) = some x) :
    e ≠ .die ref ∧ e.holder? ≠ some (.load ref) ∧ n.exchanges.get? (.load ref) = some x := by
  have hdie : e ≠ .die ref := by
    rintro rfl
    rw [step, dropLoad_exchange] at hx
    cases hx
  have hother : e.holder? ≠ some (.load ref) := by
    cases e <;> simp_all [Event.holder?]
  exact ⟨hdie,hother,by rwa [(step_carries hn ht e).exchanges _ hother] at hx⟩

/-- A request comes back with what a look at its exchange leads to. -/
theorem pollRequest_result {h : Holder} (hx : n.exchanges.get? h = some x) :
    (n.pollRequest h).1 = (n.looked x).result.map (·.bind (Token.ofPayload n.now)) := by
  have hnow := (n.quiet_pollExchange h).now
  have hp := pollExchange_eq hx
  unfold pollRequest
  cases hr : (n.looked x).result with
  | none =>
    rw [hr] at hp
    rw [hp]
    rfl
  | some result =>
    rw [hr] at hp
    rw [hp] at hnow ⊢
    dsimp only at hnow ⊢
    rw [hnow]
    rfl

/-- A look at a request that does not come back. -/
theorem pollRequest_open {h : Holder} (hx : n.exchanges.get? h = some x)
    (hr : (n.looked x).result = none) : n.pollRequest h = (none, n.drained h x) := by
  rw [pollRequest, pollExchange_eq hx, hr]

theorem pollRequest_closed {h : Holder} (hx : n.exchanges.get? h = some x)
    {result : Except TokenError String} (hr : (n.looked x).result = some result) :
    (n.pollRequest h).2.exchanges.get? h = none := by
  rw [pollRequest, pollExchange_eq hx, hr]
  exact (closeExchange_exchange ..).trans (if_pos rfl)

theorem inquire_inquired (n : Network) (ref : LoadRef) :
    Inquired n ref (n.inquire ref).1 (n.inquire ref).2 := by
  cases hx : n.exchanges.get? (.load ref) with
  | none =>
    have hi : n.inquire ref = (.waits, n) := by rw [inquire, pollRequest, pollExchange, hx]
    rw [hi]
    exact .gone hx
  | some x =>
    have hp := pollRequest_result hx
    cases hr : (n.looked x).result with
    | none =>
      have hi : n.inquire ref = (.waits, n.drained (.load ref) x) := by
        rw [inquire, pollRequest_open hx hr]
      rw [hi]
      exact .open_ hx hr
    | some result =>
      have hi : n.inquire ref = (.ended (result.bind (Token.ofPayload n.now)),
          (n.pollRequest (.load ref)).2) := by
        rw [hr] at hp
        unfold inquire
        generalize n.pollRequest (.load ref) = r at hp ⊢
        obtain ⟨_ | result',n'⟩ := r <;> cases hp
        rfl
      rw [hi]
      exact .resolved hx hr (pollRequest_closed hx hr)

structure Serves (c : TokenConfig) (p : Nat) (x : Exchange Matcher) : Prop where
  matcher : x.matcher = .extjwt
  timeout : x.timeout = c.requestTimeout
  peer : x.peer = p

variable {c : TokenConfig} {p : Nat}

def said (n : Network) (x : Exchange Matcher) : Option (Except TokenError String) :=
  Verdict.behind x.payload (Verdict.response (Exchange.verdicts Matcher.classify x.matcher
    ((n.peer x.peer).listeners.unread x.listener)))

theorem looked_said (n : Network) (x : Exchange Matcher) :
    (n.looked x).result = (n.said x).or
      (if (n.peer x.peer).listeners.isRegistered x.listener = false then
        some (.error .disconnected)
      else if (x.arm n.now n.tickets).timedOut n.sounded then some (.error (.timeout x.timeout))
      else none) := by
  unfold looked Exchange.look
  exact Exchange.poll_result ..

theorem looked_result (h : x.matcher = .extjwt) :
    (n.looked x).result =
      (Verdict.behind x.payload (Verdict.response
        (((n.peer x.peer).listeners.unread x.listener).map Reply.classify))).or
        (if (n.peer x.peer).listeners.isRegistered x.listener = false then
          some (.error .disconnected)
        else if (x.arm n.now n.tickets).timedOut n.sounded then some (.error (.timeout x.timeout))
        else none) := by
  rw [looked_said, said, h, verdicts_extjwt]

theorem Serves.looked (h : Serves c p x) : Serves c p (n.looked x).exchange where
  matcher := by
    unfold Network.looked Exchange.look
    dsimp only
    rw [Exchange.poll_exchange, Exchange.read_exchange]
    exact (congrArg (Exchange.after Matcher.classify · _) h.matcher).trans (after_extjwt _)
  timeout := (n.looked_exchange x).2.2.trans h.timeout
  peer := (n.looked_exchange x).1.trans h.peer

/-- A request ends with a token that is not empty, or with one of a few errors. -/
theorem Serves.result (h : Serves c p x) {result : Except TokenError String}
    (hr : (n.looked x).result = some result) :
    RequestResult c n.now (result.bind (Token.ofPayload n.now)) := by
  cases result with
  | ok payload =>
    change RequestResult c n.now (Token.ofPayload n.now payload)
    rcases ofPayload_cases n.now payload with ⟨hne,ho⟩ | ⟨detail,ho⟩ <;> rw [ho]
    · exact .token hne
    · exact .failure (.malformed detail)
  | error e =>
    refine .failure ?_
    rw [looked_result h.matcher] at hr
    cases hv : Verdict.response
      (((n.peer x.peer).listeners.unread x.listener).map Reply.classify) with
    | none =>
      rw [hv] at hr
      simp only [Verdict.behind, Option.map_none, Option.none_or] at hr
      split at hr
      · cases hr
        exact .disconnected
      · split at hr
        · cases hr
          rw [h.timeout]
          exact .timeout
        · cases hr
    | some r =>
      rw [hv] at hr
      cases r with
      | ok text => cases hr
      | error e' =>
        cases hr
        rcases Reply.response_error hv with rfl | ⟨detail,rfl⟩
        · exact .unsupported
        · exact .protocol detail

theorem deliverLines_exchanges (n : Network) (p : Nat) (lines : List String) :
    (n.deliverLines p lines).2.exchanges = n.exchanges := by
  induction lines generalizing n with
  | nil => rfl
  | cons line lines ih =>
    unfold deliverLines
    cases Message.parse? line with
    | none => rfl
    | some m => exact (ih _).trans (inner_wakeAll (n.onPeer p (·.dispatch m)) _).exchanges

theorem send_exchanges (n : Network) (p : Nat) (command : String) (args : List String) :
    (n.send p command args).2.exchanges = n.exchanges := by
  rw [send_eq]
  split
  · rfl
  · exact deliverLines_exchanges ..

def opened (n : Network) (ref : LoadRef) (p : Nat) : Exchange Matcher :=
  (Exchange.listen (n.peer p) p .extjwt (n.manager ref.manager).config.requestTimeout n.now).1

theorem opened_serves (n : Network) (ref : LoadRef) (p : Nat) :
    Serves (n.manager ref.manager).config p (n.opened ref p) := ⟨rfl,rfl,rfl⟩

theorem ask_exchange (n : Network) (ref : LoadRef) (p : Nat) :
    (n.ask ref p).2.exchanges.get? (.load ref) = some (n.opened ref p) := by
  have ha := n.inner_arrive ref p
  unfold ask openRequest
  dsimp only
  rw [send_exchanges, opened, ← ha.peer, ← ha.now]
  exact (openExchange_exchange ..).trans (if_pos rfl)

/-- What the work of a turn does to the exchange of its load: it is there as long as the request has
not come back. -/
inductive Served (n : Network) (ref : LoadRef) (p : Nat) : Turn → Network → Prop where
  | waits {n' : Network} : (∀ x, n'.exchanges.get? (.load ref) = some x →
      Serves (n.manager ref.manager).config p x) → Served n ref p .waits n'
  | ended {result : Except TokenError Token} {n' : Network} :
      RequestResult (n.manager ref.manager).config n.now result →
      n'.exchanges.get? (.load ref) = none → Served n ref p (.ended result) n'
  | died {n' : Network} : Served n ref p .died n'

theorem Inquired.served {n₀ : Network} {w : Turn} (h : Inquired n ref w n')
    (hx : ∀ x, n.exchanges.get? (.load ref) = some x →
      Serves (n₀.manager ref.manager).config p x)
    (hnow : n.now = n₀.now) : Served n₀ ref p w n' := by
  cases h with
  | gone hno => exact .waits hx
  | open_ hsome _ =>
    refine .waits ?_
    intro x' hx'
    rw [drained_exchange hsome, if_pos rfl] at hx'
    cases hx'
    exact (hx _ hsome).looked
  | resolved hsome hr hno =>
    rw [hnow]
    exact .ended (hnow ▸ (hx _ hsome).result hr) hno

theorem Worked.served {t : LoadTask Nat Token TokenError} {w : Turn} (h : Worked n ref t w n')
    (hgoes : (n.arrive ref t.key).1 = false)
    (hx : ∀ x, n.exchanges.get? (.load ref) = some x →
      Serves (n.manager ref.manager).config t.key x) : Served n ref t.key w n' := by
  have hnow : (n.ask ref t.key).2.now = n.now :=
    (n.outer_ask ref t.key).now.trans (n.inner_arrive ref t.key).now
  cases h with
  | resumed => exact (inquire_inquired n ref).served hx rfl
  | withheld _ ha => rw [hgoes] at ha; cases ha
  | sent =>
    refine (inquire_inquired (n.ask ref t.key).2 ref).served ?_ hnow
    intro x hx'
    rw [ask_exchange] at hx'
    cases hx'
    exact n.opened_serves ref t.key
  | failed cause =>
    exact .ended (.failure (.sendFailed cause)) ((closeExchange_exchange ..).trans (if_pos rfl))
  | broken => exact .died

/-! ## Every reachable network is sane -/

structure Sane (n : Network) : Prop where
  tidy : n.Tidy
  /-- The exchange of a load is its request. -/
  requests : ∀ ref x, n.exchanges.get? (.load ref) = some x →
    ∃ t, (n.manager ref.manager).loader.tasks.get? ref.load = some t ∧ t.begun = true ∧
      Serves (n.manager ref.manager).config t.key x
  endings : ∀ ref ending, n.ending? ref = some ending →
    Expected (n.manager ref.manager).config ending
  tokens : ∀ m p t, n.about m p = .valid t → t.value ≠ ""

section
variable {t : LoadTask Nat Token TokenError}

/-- A load whose task has not run yet has no request. -/
theorem Sane.no_request (hs : n.Sane)
    (ht : (n.manager ref.manager).loader.tasks.get? ref.load = some t) (hb : t.begun = false) :
    n.exchanges.get? (.load ref) = none := by
  cases hx : n.exchanges.get? (.load ref) with
  | none => rfl
  | some x =>
    obtain ⟨t',ht',hb',_⟩ := hs.requests ref x hx
    rw [ht] at ht'
    cases ht'
    rw [hb] at hb'
    cases hb'

/-- A turn serves the request of its load. -/
theorem Sane.served (hn : n.Orderly) (hs : n.Sane)
    (ht : (n.manager ref.manager).loader.tasks.get? ref.load = some t) :
    Served (n.called ref) ref t.key ((n.called ref).work ref t).1 ((n.called ref).work ref t).2 := by
  have hgoes := (arrive_of_sound (n := n.called ref) (hn _) ht).1
  refine ((n.called ref).work_worked ref t).served hgoes ?_
  intro x hx
  obtain ⟨t',ht',_,hserves⟩ := hs.requests ref x hx
  rw [ht] at ht'
  cases ht'
  exact hserves

/-- A load ends with what its request has come back with. -/
theorem Sane.finish_result (hn : n.Orderly) (hs : n.Sane) {e : Event}
    {result : Except TokenError Token}
    (h : n.deed? ref.manager e = some (.finish ref.load p result)) :
    RequestResult (n.manager ref.manager).config n.now result := by
  obtain ⟨t,ht,_,_⟩ := deed?_fits hn h
  rcases event_of_load h rfl with rfl | rfl
  · have hserved := hs.served hn ht
    have hd := n.deed?_turn ht
    rw [h] at hd
    generalize (n.called ref).work ref t = r at hserved hd
    obtain ⟨w,n'⟩ := r
    cases hserved with
    | ended hr =>
      cases hd
      exact hr
    | waits => cases hb : t.begun <;> simp [Turn.deed?, hb] at hd
    | died => cases hd
  · simp [deed?] at h

theorem Sane.task_of_turn (hs : n.Sane)
    (hx : (n.step (.turn ref)).exchanges.get? (.load ref) = some x) :
    ∃ t, (n.manager ref.manager).loader.tasks.get? ref.load = some t := by
  cases ht : (n.manager ref.manager).loader.tasks.get? ref.load with
  | some t => exact ⟨t,rfl⟩
  | none =>
    have hsame : n.step (.turn ref) = n.called ref := (n.called ref).runLoad_of_gone ht
    rw [hsame] at hx
    obtain ⟨t,ht',_⟩ := hs.requests ref x hx
    rw [ht] at ht'
    cases ht'

/-- A request that is still there after a turn of its task waits for the next one. -/
theorem Sane.turn_waits (hn : n.Orderly) (hs : n.Sane)
    (ht : (n.manager ref.manager).loader.tasks.get? ref.load = some t)
    (hx : (n.step (.turn ref)).exchanges.get? (.load ref) = some x) :
    ((n.called ref).work ref t).1 = .waits ∧
    n.step (.turn ref) = ((n.called ref).work ref t).2 := by
  have hserved := hs.served hn ht
  rw [step_turn n ht] at hx ⊢
  generalize (n.called ref).work ref t = r at hserved hx
  obtain ⟨w,n'⟩ := r
  cases hserved with
  | waits => exact ⟨rfl,rfl⟩
  | ended _ hno =>
    rw [record, (inner_concludeLoad ..).exchanges, hno] at hx
    cases hx
  | died =>
    rw [record, dropLoad_exchange] at hx
    cases hx

/-- A load whose exchange is there after a turn of its task has not ended. -/
theorem Sane.request_turn (hn : n.Orderly) (hs : n.Sane)
    (ht : (n.manager ref.manager).loader.tasks.get? ref.load = some t)
    (hx : (n.step (.turn ref)).exchanges.get? (.load ref) = some x) :
    Serves (n.manager ref.manager).config t.key x ∧ (n.step (.turn ref)).ending? ref = none := by
  obtain ⟨hw,hstep⟩ := hs.turn_waits hn ht hx
  have hserved := hs.served hn ht
  rw [hw, ← hstep] at hserved
  refine ⟨by cases hserved with | waits hserves => exact hserves x hx,?_⟩
  cases he : (n.step (.turn ref)).ending? ref with
  | none => rfl
  | some ending =>
    have hends : n.Ends (.turn ref) ref ending := ⟨(hn _).loader.no_ending ht,he⟩
    have hd := n.deed?_turn ht
    obtain ⟨q,_,⟨result,hd',_⟩ | ⟨hd',_⟩⟩ := hends.deed hn <;> rw [hd', hw] at hd <;>
      cases hb : t.begun <;> simp [Turn.deed?, hb] at hd

/-- What is a request of a load after an event was one before, or has just been sent. -/
theorem Sane.step_request (hn : n.Orderly) (hs : n.Sane) (e : Event)
    (hx : (n.step e).exchanges.get? (.load ref) = some x) :
    ∃ t, ((n.step e).manager ref.manager).loader.tasks.get? ref.load = some t ∧ t.begun = true ∧
      Serves ((n.step e).manager ref.manager).config t.key x := by
  by_cases hturn : e = .turn ref
  · subst hturn
    obtain ⟨t,ht⟩ := hs.task_of_turn hx
    have hm := lt_of_task ht
    obtain ⟨hserves,hopen⟩ := hs.request_turn hn ht hx
    obtain ⟨t',ht',hk,_⟩ :=
      running_step hn hm ⟨t,ht,rfl,(hn _).live _ _ ht⟩ (.turn ref) hopen
    refine ⟨t',ht',(spent_turn hn hm ht).2 t' ht',?_⟩
    rw [step_config hn _ _, hk]
    exact hserves
  · obtain ⟨hdie,_,hx'⟩ := request_kept hn hs.tidy hturn hx
    obtain ⟨t,ht,hb,hserves⟩ := hs.requests ref x hx'
    have hm := lt_of_task ht
    have hid := (hn ref.manager).loader.numbered _ _ ht
    refine ⟨t,(step_other_load hn hm hid hturn hdie).1.trans ht,hb,?_⟩
    rw [step_config hn e _]
    exact hserves

theorem Sane.step (hn : n.Orderly) (hs : n.Sane) (e : Event) : (n.step e).Sane where
  tidy := (step_carries hn hs.tidy e).tidy
  requests _ _ hx := hs.step_request hn e hx
  endings := by
    intro ref ending he
    cases ho : n.ending? ref with
    | some ending' =>
      rw [step_ending hn e ho] at he
      cases he
      rw [step_config hn e _]
      exact hs.endings ref ending ho
    | none =>
      have hends : n.Ends e ref ending := ⟨ho,he⟩
      rw [step_config hn e _]
      obtain ⟨q,_,⟨result,hd,rfl⟩ | ⟨_,rfl⟩⟩ := hends.deed hn
      · exact (hs.finish_result hn hd).expected
      · trivial
  tokens := by
    intro m p t ht
    by_cases hm : m < n.managers.length
    · rw [step_about hn hm] at ht
      cases hd : n.deed? m e with
      | none =>
        rw [hd] at ht
        exact hs.tokens m p t ht
      | some d =>
        rw [hd] at ht
        rcases PeerState.next_eq_valid ht with h | ⟨id,q,rfl,_⟩
        · exact hs.tokens m p t h
        · have hd' : n.deed? (LoadRef.mk m id).manager e =
              some (.finish (LoadRef.mk m id).load q (.ok t)) := hd
          cases hs.finish_result hn hd' with
          | token hne => exact hne
    · have hm' : ¬ m < (n.step e).managers.length := by rwa [n.step_managers_length e]
      rw [about, manager_of_not_lt hm'] at ht
      cases ht

end

theorem sane_start (peers : List Peer) (configs : List TokenConfig) :
    (start peers configs).Sane where
  tidy := by
    refine ⟨?_,?_⟩
    · intro h x hx
      cases hx
    · intro h h' x x' hx
      cases hx
  requests := by
    intro ref x hx
    cases hx
  endings := by
    intro ref ending he
    rw [ending?, start_manager] at he
    cases he
  tokens := by
    intro m p t ht
    rw [about, start_manager] at ht
    cases ht

theorem Sane.after (hn : n.Orderly) (hs : n.Sane) (es : List Event) : (n.after es).Sane := by
  induction es generalizing n with
  | nil => exact hs
  | cons e es ih => exact ih (hn.step e) (hs.step hn e)

theorem reached_sane (peers : List Peer) (configs : List TokenConfig) (es : List Event) :
    ((start peers configs).after es).Sane :=
  (sane_start peers configs).after (orderly_start peers configs) es

end

end Network

end ChatToken
