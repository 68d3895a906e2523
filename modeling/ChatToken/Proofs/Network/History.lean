import ChatToken.Proofs.Network.Replies

/-! # Where tokens come from

What an exchange has read and what waits for it are what its connection has delivered since the
exchange began to listen. So the token that a load ends with is made of what its peer has delivered
since the load asked for it.
-/
namespace ChatToken.Network

/-- The connection of `x` has delivered `ms` since `x` began to listen. The exchange has read some
of these messages, the next ones wait for it, and there are no others unless it was dropped. -/
def Follows (n : Network) (x : Exchange Matcher) (ms : List Message) : Prop :=
  ∃ old unread open_, (n.peer x.peer).Hears x.listener open_ unread ∧ old ++ unread <+: ms ∧
    (open_ = true → old ++ unread = ms) ∧ Verdict.response (old.map Reply.classify) = none ∧
    x.payload = String.join (Verdict.pieces (old.map Reply.classify))

section
variable {n n' : Network} {ref : LoadRef} {p : Nat} {x : Exchange Matcher} {ms ms' : List Message}

theorem Follows.relays (h : n.Follows x ms)
    (hr : (n.peer x.peer).Relays (n'.peer x.peer) x.listener ms') : n'.Follows x (ms ++ ms') := by
  obtain ⟨old,unread,open_,hh,hbegins,hall,hquiet,hpayload⟩ := h
  obtain ⟨open',got,hh',hgot,hclosed,hopen⟩ := hr _ _ hh
  refine ⟨old,unread ++ got,open',hh',?_,?_,hquiet,hpayload⟩
  · rw [← List.append_assoc]
    cases open_ with
    | true =>
      rw [hall rfl]
      exact (List.prefix_append_right_inj _).mpr hgot
    | false =>
      rw [hclosed rfl, List.append_nil]
      exact hbegins.trans (List.prefix_append ..)
  · intro ho
    obtain ⟨ho',rfl⟩ := hopen ho
    rw [← List.append_assoc, hall ho']

theorem looked_payload (hx : x.matcher = .extjwt) :
    (n.looked x).exchange.payload = x.payload ++ String.join (Verdict.pieces
      (((n.peer x.peer).listeners.unread x.listener).map Reply.classify)) := by
  unfold looked Exchange.look
  dsimp only
  rw [Exchange.poll_exchange, Exchange.read_exchange]
  exact congrArg (fun vs => x.payload ++ String.join (Verdict.pieces vs))
    ((congrArg (Exchange.verdicts Matcher.classify · _) hx).trans (verdicts_extjwt _))

/-- A look that does not resolve an exchange only moves messages to those that are read. -/
theorem Follows.drained (h : n.Follows x ms) (hmatcher : x.matcher = .extjwt)
    (hp : x.peer < n.peers.length) {holder : Holder} (hr : (n.looked x).result = none) :
    (n.drained holder x).Follows (n.looked x).exchange ms := by
  obtain ⟨old,unread,open_,hh,hbegins,hall,hquiet,hpayload⟩ := h
  obtain ⟨hpeer,hlistener,_⟩ := n.looked_exchange x
  have hunread : Verdict.response (unread.map Reply.classify) = none := by
    rw [looked_result hmatcher, hh.unread_eq, Option.or_eq_none_iff, Verdict.behind_eq_none] at hr
    exact hr.1
  refine ⟨old ++ unread,[],open_,?_,?_,?_,?_,?_⟩
  · rw [hpeer, hlistener, drained_peer, if_pos ⟨rfl,hp⟩]
    exact hh.drain
  · rwa [List.append_nil]
  · rwa [List.append_nil]
  · rw [List.map_append, Verdict.response_append hquiet, hunread]
    rfl
  · rw [looked_payload hmatcher, hh.unread_eq, hpayload, List.map_append,
      Verdict.pieces_append hquiet, String.join_append]

/-- A request comes back with the response among the delivered messages. -/
theorem Follows.response (h : n.Follows x ms) (hmatcher : x.matcher = .extjwt) {text : String}
    (hr : (n.looked x).result = some (.ok text)) :
    Verdict.response (ms.map Reply.classify) = some (.ok text) := by
  obtain ⟨old,unread,open_,hh,⟨rest,rfl⟩,hall,hquiet,hpayload⟩ := h
  -- the response lies among the messages that were heard, so those that were missed do not matter
  have hread : Verdict.response ((old ++ unread).map Reply.classify) = some (.ok text) := by
    rw [List.map_append, Verdict.response_append hquiet, ← hpayload]
    rw [looked_result hmatcher, hh.unread_eq] at hr
    cases hb : Verdict.behind x.payload (Verdict.response (unread.map Reply.classify)) with
    | some r => rwa [hb] at hr
    | none =>
      rw [hb, Option.none_or] at hr
      split at hr
      · cases hr
      · split at hr <;> cases hr
  rw [List.map_append]
  exact Verdict.response_append_of_some hread _

theorem openExchange_follows (n : Network) (h : Holder) (hp : p < n.peers.length)
    (timeout : Span) :
    (n.openExchange h p .extjwt timeout).Follows
      (Exchange.listen (n.peer p) p .extjwt timeout n.now).1 [] := by
  refine ⟨[],[],!(n.peer p).dropsNew,?_,List.nil_prefix,fun _ => rfl,rfl,rfl⟩
  change ((n.openExchange h p .extjwt timeout).peer p).Hears (n.peer p).subscribe.1 _ _
  rw [openExchange_peer, if_pos ⟨rfl,hp⟩]
  exact (n.peer p).hears_subscribe

/-- A request is followed from the moment it is sent. -/
theorem openRequest_follows (ht : n.Tidy) (h : Holder) (hp : p < n.peers.length)
    (service : Option String) (timeout : Span) :
    (n.openRequest h p service timeout).2.Follows
      (Exchange.listen (n.peer p) p .extjwt timeout n.now).1
      (answers (n.peer p) Reply.extjwt (Reply.anyTarget :: service.toList)) := by
  have ho := carries_openExchange ht h p .extjwt timeout
  have hq := n.quiet_openExchange h p .extjwt timeout
  have hsend := (carries_send ho.tidy p Reply.extjwt (Reply.anyTarget :: service.toList)).relays h _
    (by simp) ((openExchange_exchange ..).trans (if_pos rfl)) (by rwa [ho.length])
  have hfollows := (n.openExchange_follows h hp timeout).relays hsend
  rw [List.nil_append, if_pos, ← answers_face, hq.face, answers_face] at hfollows
  · exact hfollows
  · rfl

theorem ask_follows (ht : n.Tidy) (hp : p < n.peers.length) :
    (n.ask ref p).2.Follows (n.opened ref p) (answers (n.peer p) Reply.extjwt
      (Reply.anyTarget :: (n.manager ref.manager).config.service.toList)) := by
  have ha := n.inner_arrive ref p
  rw [opened, ← ha.peer, ← ha.now]
  exact openRequest_follows (Carries.of_inner ht ha).tidy _ (by rwa [ha.peers]) _ _

/-- A request is still there after a look if it was there before. -/
theorem Inquired.follows {w : Turn} (h : Inquired n ref w n')
    (hserves : ∀ x, n.exchanges.get? (.load ref) = some x →
      x.matcher = .extjwt ∧ x.peer < n.peers.length)
    (hx : n'.exchanges.get? (.load ref) = some x) :
    ∃ x₀, n.exchanges.get? (.load ref) = some x₀ ∧ ∀ ms, n.Follows x₀ ms → n'.Follows x ms := by
  cases h with
  | gone => exact ⟨x,hx,fun _ h => h⟩
  | open_ hsome hr =>
    obtain ⟨hmatcher,hp⟩ := hserves _ hsome
    rw [drained_exchange hsome, if_pos rfl] at hx
    cases hx
    exact ⟨_,hsome,fun _ h => h.drained hmatcher hp hr⟩
  | resolved _ _ hno =>
    rw [hno] at hx
    cases hx

/-- A request comes back with a token that is its response. -/
theorem Inquired.response {tok : Token} (h : Inquired n ref (.ended (.ok tok)) n')
    (hserves : ∀ x, n.exchanges.get? (.load ref) = some x →
      x.matcher = .extjwt ∧ x.peer < n.peers.length) :
    ∃ x₀, n.exchanges.get? (.load ref) = some x₀ ∧
      ∀ ms, n.Follows x₀ ms → Verdict.response (ms.map Reply.classify) = some (.ok tok.value) := by
  generalize hw : Turn.ended (.ok tok) = w at h
  cases h with
  | gone => cases hw
  | open_ => cases hw
  | @resolved x₀ result _ hsome hr _ =>
    refine ⟨x₀,hsome,?_⟩
    intro ms hfollows
    cases result with
    | error e => cases hw
    | ok payload =>
      have hok : Token.ofPayload n.now payload = .ok tok := (Turn.ended.inj hw).symm
      rw [hfollows.response (hserves _ hsome).1 hr]
      rcases ofPayload_cases n.now payload with ⟨_,ho⟩ | ⟨_,ho⟩ <;> rw [hok] at ho <;> cases ho
      rfl

/-- A turn that neither fails to send nor dies comes down to a look at the request, which may just
have been sent. -/
theorem Worked.inquired {t : LoadTask Nat Token TokenError} {w : Turn} (h : Worked n ref t w n')
    (hgoes : (n.arrive ref t.key).1 = false) (hdied : w ≠ .died)
    (hfailed : ∀ cause, w ≠ .ended (.error (.sendFailed cause))) :
    (t.begun = true ∧ Inquired n ref w n') ∨
    (t.begun = false ∧ Inquired (n.ask ref t.key).2 ref w n') := by
  cases h with
  | resumed hb => exact .inl ⟨hb,inquire_inquired ..⟩
  | withheld _ ha => rw [hgoes] at ha; cases ha
  | sent hb => exact .inr ⟨hb,inquire_inquired ..⟩
  | failed cause => exact absurd rfl (hfailed cause)
  | broken => exact absurd rfl hdied

/-- A turn that does not end its load has looked at the request, which was sent before or has just
been sent. -/
theorem inquired_of_open (hn : n.Orderly) {t : LoadTask Nat Token TokenError}
    (ht : (n.manager ref.manager).loader.tasks.get? ref.load = some t)
    (hopen : (n.step (.turn ref)).ending? ref = none) :
    (t.begun = true ∧ Inquired (n.called ref) ref .waits (n.step (.turn ref))) ∨
    (t.begun = false ∧
      Inquired ((n.called ref).ask ref t.key).2 ref .waits (n.step (.turn ref))) := by
  obtain ⟨hwaits,hstep⟩ := waits_of_open hn ht hopen
  have hw := (n.called ref).work_worked ref t
  rw [hwaits, ← hstep] at hw
  exact hw.inquired (arrive_of_sound (n := n.called ref) (hn _) ht).1 (by simp) (by simp)

/-! ## Along a run -/

theorem delivered_append (n : Network) (p : Nat) (es es' : List Event) :
    n.delivered p (es ++ es') = n.delivered p es ++ (n.after es).delivered p es' := by
  induction es generalizing n with
  | nil => rfl
  | cons e es ih => rw [List.cons_append, delivered, ih, delivered, List.append_assoc, after_cons]

theorem Asked.concat {es : List Event} (h : n.Asked ref p es ms) (e : Event) :
    n.Asked ref p (es ++ [e]) (ms ++ (n.after es).delivers p e) := by
  obtain ⟨first,mid,rfl,hasks,rfl⟩ := h
  refine ⟨first,mid ++ [e],by simp,hasks,?_⟩
  have he : (n.after (first ++ .turn ref :: mid)).delivered p [e] =
      (n.after (first ++ .turn ref :: mid)).delivers p e := List.append_nil _
  rw [← List.cons_append, delivered_append, ← after_append, he]

theorem asked_turn {es : List Event} (h : (n.after es).asks? ref = some p) :
    n.Asked ref p (es ++ [.turn ref]) ((n.after es).delivers p (.turn ref)) :=
  ⟨es,[],rfl,h,List.append_nil _⟩

def Recounts (n : Network) (es : List Event) : Prop :=
  ∀ ref x, (n.after es).exchanges.get? (.load ref) = some x → x.peer < n.peers.length →
    ∃ ms, n.Asked ref x.peer es ms ∧ (n.after es).Follows x ms

/-- What a turn makes of the messages that its request has been following. -/
theorem Recounts.turn {es : List Event} {t : LoadTask Nat Token TokenError} {w : Turn}
    (h : n.Recounts es) (hn : (n.after es).Orderly) (hs : (n.after es).Sane)
    (ht : ((n.after es).manager ref.manager).loader.tasks.get? ref.load = some t)
    (hp : t.key < n.peers.length) (hw : Worked ((n.after es).called ref) ref t w n')
    (hdied : w ≠ .died) (hfailed : ∀ cause, w ≠ .ended (.error (.sendFailed cause)))
    {P : List Message → Prop}
    (hlook : ∀ b : Network, Inquired b ref w n' → (∀ x, b.exchanges.get? (.load ref) = some x →
        x.matcher = .extjwt ∧ x.peer < b.peers.length) →
      ∃ x₀, b.exchanges.get? (.load ref) = some x₀ ∧ ∀ ms, b.Follows x₀ ms → P ms) :
    ∃ ms, n.Asked ref t.key (es ++ [.turn ref]) ms ∧ P ms := by
  let c := (n.after es).called ref
  have hgoes := (arrive_of_sound (n := c) (hn _) ht).1
  have hp' : t.key < c.peers.length := (n.after_peers_length es).symm ▸ hp
  rcases hw.inquired hgoes hdied hfailed with ⟨hb,hi⟩ | ⟨hb,hi⟩
  · -- the request was sent earlier, and this turn delivers nothing
    have hserves : ∀ x, c.exchanges.get? (.load ref) = some x →
        Serves (c.manager ref.manager).config t.key x := by
      intro x hx
      obtain ⟨t',ht',_,hserves⟩ := hs.requests ref x hx
      rw [ht] at ht'
      cases ht'
      exact hserves
    obtain ⟨x₀,hx₀,hP⟩ := hlook c hi fun x hx => ⟨(hserves x hx).matcher,(hserves x hx).peer ▸ hp'⟩
    have hpeer := (hserves x₀ hx₀).peer
    obtain ⟨ms,hasked,hfollows⟩ := h ref x₀ hx₀ (hpeer ▸ hp)
    have hnothing : (n.after es).delivers t.key (.turn ref) = [] := by
      simp [delivers, asks?_eq hn ht, hb]
    have hasked' := hasked.concat (.turn ref)
    rw [hpeer, hnothing, List.append_nil] at hasked'
    exact ⟨ms,hasked',hP ms hfollows⟩
  · -- this turn has sent the request
    have hlen : (c.ask ref t.key).2.peers.length = c.peers.length :=
      (c.outer_ask ref t.key).length.trans (congrArg _ (c.inner_arrive ref t.key).peers)
    obtain ⟨x₀,hx₀,hP⟩ := hlook _ hi (by
      intro x hx
      rw [ask_exchange] at hx
      cases hx
      exact ⟨rfl,hlen ▸ hp'⟩)
    rw [ask_exchange] at hx₀
    cases hx₀
    have hasks : (n.after es).asks? ref = some t.key := by
      rw [asks?_eq hn ht, hb]
      rfl
    refine ⟨_,asked_turn hasks,hP _ ?_⟩
    rw [delivers, if_pos hasks]
    exact ask_follows (n := c) ⟨hs.tidy.known,hs.tidy.apart⟩ hp'

theorem Recounts.concat {es : List Event} (h : n.Recounts es) (hn : (n.after es).Orderly)
    (hs : (n.after es).Sane) (e : Event) : n.Recounts (es ++ [e]) := by
  intro ref x hx hp
  rw [after_concat] at hx ⊢
  by_cases hturn : e = .turn ref
  · subst hturn
    obtain ⟨t,ht⟩ := hs.task_of_turn hx
    obtain ⟨hwaits,hstep⟩ := hs.turn_waits hn ht hx
    have hpeer : x.peer = t.key := (hs.request_turn hn ht hx).1.peer
    have hw := ((n.after es).called ref).work_worked ref t
    rw [hwaits, ← hstep] at hw
    rw [hpeer] at hp ⊢
    exact h.turn hn hs ht hp hw (by simp) (by simp) fun b hi hserves => hi.follows hserves hx
  · obtain ⟨_,hother,hx'⟩ := request_kept hn hs.tidy hturn hx
    obtain ⟨ms,hasked,hfollows⟩ := h ref x hx' hp
    exact ⟨_,hasked.concat e,hfollows.relays ((step_carries hn hs.tidy e).relays _ x hother hx'
      (by rwa [after_peers_length]))⟩

theorem recounts (peers : List Peer) (configs : List TokenConfig) (es : List Event) :
    (start peers configs).Recounts es := by
  induction es using List.reverseRecOn with
  | nil =>
    intro ref x hx
    cases hx
  | append_singleton es e ih =>
    exact ih.concat (reached_orderly peers configs es) (reached_sane peers configs es) e

/-- A load ends with a token that it has just made of what its peer has delivered since it asked. -/
theorem Recounts.loaded {es : List Event} (h : n.Recounts es) (hn : (n.after es).Orderly)
    (hs : (n.after es).Sane) (hp : p < n.peers.length) {e : Event} {tok : Token}
    (hr : ((n.after es).manager ref.manager).loader.Running ref.load p)
    (he : (n.after es).Ends e ref (.loaded tok)) :
    tok.acquiredAt = (n.after es).now ∧ ∃ ms, n.Asked ref p (es ++ [e]) ms ∧
      Verdict.response (ms.map Reply.classify) = some (.ok tok.value) := by
  obtain ⟨t,ht,rfl,_⟩ := hr
  obtain ⟨q,⟨t',ht',rfl,_⟩,⟨result,hd,hending⟩ | ⟨_,hending⟩⟩ := he.deed hn
  · rw [ht] at ht'
    cases ht'
    cases result with
    | error e => cases hending
    | ok tok' =>
      cases hending
      refine ⟨by cases hs.finish_result hn hd; rfl,?_⟩
      rcases event_of_load hd rfl with rfl | rfl
      · have hw := ((n.after es).called ref).work_worked ref t
        have hturn := (n.after es).deed?_turn ht
        rw [hd] at hturn
        generalize ((n.after es).called ref).work ref t = r at hw hturn
        obtain ⟨w,n'⟩ := r
        have hended : w = .ended (.ok tok) := by
          cases w with
          | ended result => cases hturn; rfl
          | _ => cases hb : t.begun <;> simp [Turn.deed?, hb] at hturn
        subst hended
        exact h.turn hn hs ht hp hw (by simp) (by simp) fun b hi hserves => hi.response hserves
      · simp [deed?] at hd
  · cases hending

end

end ChatToken.Network
