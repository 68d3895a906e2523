import ChatToken.Proofs.Message.RoundTrip
import ChatToken.Proofs.Network.Changes
import ChatToken.Proofs.Network.History
import ChatToken.Proofs.Network.Queue
import ChatToken.Proofs.Response

/-! # Responses in pieces

A response that arrives line by line, with other lines between, is put together again: its lines are
read back as the messages that they were written from, and the request of a caller comes back with
all of its pieces, in whichever turns the caller looks at it.
-/
namespace ChatToken

theorem Reply.classify_source (m : Message) (source : Option String) :
    classify { m with source } = classify m := rfl

theorem Verdict.response_cons {vs ws : List Verdict} (v : Verdict)
    (h : response vs = response ws) : response (v :: vs) = response (v :: ws) := by
  cases v <;> simp [h]

namespace Message

variable {own ms : List Message} {lines : List String}

/-- The messages in the lines make the same response as those that were written. -/
theorem Interleaved.response (h : Interleaved own lines)
    (hown : ∀ m ∈ own, ∀ source, (∀ s ∈ source, ' ' ∉ s.toList) → Writable { m with source })
    (hms : lines.map parse? = ms.map some) :
    Verdict.response (ms.map Reply.classify) = Verdict.response (own.map Reply.classify) := by
  induction h generalizing ms with
  | nil =>
    obtain rfl : ms = [] := by simpa using hms.symm
    rfl
  | @own m line own lines hline _ ih =>
    obtain ⟨source,hsource,rfl⟩ := hline
    rw [List.map_cons, parse_text (hown m (by simp) source hsource)] at hms
    cases ms with
    | nil => cases hms
    | cons m' ms =>
      obtain ⟨hm,hrest⟩ := List.cons.inj hms
      cases hm
      rw [List.map_cons, List.map_cons, Reply.classify_source]
      exact Verdict.response_cons _ (ih (fun m' hm' => hown m' (by simp [hm'])) hrest)
  | @other m line own lines hparse hunrelated _ ih =>
    rw [List.map_cons, hparse] at hms
    cases ms with
    | nil => cases hms
    | cons m' ms =>
      obtain ⟨hm,hrest⟩ := List.cons.inj hms
      cases hm
      rw [List.map_cons, unrelated_iff.mp hunrelated, Verdict.response_skip]
      exact ih hown hrest

end Message

namespace Response

variable {service : String} {pieces : List String} {last : String}

/-- Pieces without line ends can be written, for a service that is named in one word. -/
theorem writable_of_pieces
    (hservice : service ≠ "" ∧ ' ' ∉ service.toList ∧ service.toList.head? ≠ some ':')
    (hclean : ∀ piece ∈ pieces ++ [last], ∀ ch ∈ piece.toList, Message.isLineEnd ch = false) :
    ∀ m ∈ (ofPieces service pieces last).messages, ∀ source, (∀ s ∈ source, ' ' ∉ s.toList) →
      Message.Writable { m with source } := by
  have hcommand : (Message.upperText Reply.extjwt).toList = "EXTJWT".toList := by decide
  have hne : service.toList ≠ [] := by simpa using hservice.1
  have hstar : Reply.anyTarget.toList ≠ [] ∧ ' ' ∉ Reply.anyTarget.toList ∧
      Reply.anyTarget.toList.head? ≠ some ':' := by decide
  have hwritable : ∀ params piece source, piece ∈ pieces ++ [last] →
      (∀ s ∈ source, ' ' ∉ s.toList) →
      (∀ q ∈ params, q = Reply.anyTarget ∨ q = service) →
      Message.Writable { Message.of Reply.extjwt (params ++ [piece]) with source } := by
    intro params piece source hpiece hsource hparams
    refine ⟨hsource,?_,?_,?_,?_,?_⟩
    · dsimp only [Message.of]
      rw [hcommand]
      decide
    · dsimp only [Message.of]
      rw [hcommand]
      decide
    · intro _
      dsimp only [Message.of]
      rw [hcommand]
      decide
    · intro q hq
      dsimp only [Message.of] at hq
      rw [List.dropLast_concat] at hq
      rcases hparams q hq with rfl | rfl
      · exact hstar
      · exact ⟨hne,hservice.2⟩
    · intro ch hch
      have hlast : ({ Message.of Reply.extjwt (params ++ [piece]) with source } :
          Message).lastParam? = some piece := List.getLast?_concat ..
      rw [hlast, Option.getD_some] at hch
      exact hclean piece hpiece ch (List.mem_of_getLast? hch)
  intro m hm source hsource
  rw [messages, List.mem_append, List.mem_singleton] at hm
  rcases hm with hm | rfl
  · obtain ⟨piece,hpiece,rfl⟩ := List.mem_map.mp hm
    exact hwritable [_,_,_] piece source (by simp [hpiece]) hsource (by simp)
  · exact hwritable [_,_] last source (by simp) hsource (by simp)

theorem response_messages (r : Response) :
    Verdict.response (r.messages.map Reply.classify) = some (.ok r.payload) :=
  r.response_drop r.messages_ne_nil

theorem payload_of_pieces : (ofPieces service pieces last).payload = String.join (pieces ++ [last]) := by
  have hpiece : ∀ piece : String, (Message.of Reply.extjwt
      [Reply.anyTarget, service, Reply.anyTarget, piece]).lastParam = piece := fun _ => rfl
  have hlast : (Message.of Reply.extjwt [Reply.anyTarget, service, last]).lastParam = last := rfl
  simp only [payload, tail, messages, ofPieces, List.drop_zero, List.map_append, List.map_map,
    List.map_cons, List.map_nil, hlast]
  congr 2
  exact (List.map_congr_left fun piece _ => hpiece piece).trans (List.map_id _)

end Response

/-- The text of a token is the payload of its response, which must not be empty. -/
theorem map_value_ofPayload (now : Nat) (payload : String) :
    (Token.ofPayload now payload).map Token.value =
      if payload = "" then .error (.malformed "empty token") else .ok payload := by
  unfold Token.ofPayload
  by_cases h : payload = ""
  · simp [h, Except.map]
  · simp [h, Except.map]

namespace Network

/-- The exchange `x` of the caller `c` goes on and listens to `p`, which has delivered `ms` since it
began. -/
structure Waits (n : Network) (c p : Nat) (x : Exchange Matcher) (ms : List Message) : Prop where
  exchange : n.exchanges.get? (.caller c) = some x
  peer : x.peer = p
  matcher : x.matcher = .extjwt
  listens : x.listener ∈ n.registered p
  follows : n.Follows x ms

def Brings (n : Network) (x : Exchange Matcher) (r : Except TokenError String) : Prop :=
  ∃ unread open_, (n.peer x.peer).Hears x.listener open_ unread ∧
    Verdict.behind x.payload (Verdict.response (unread.map Reply.classify)) = some r

section
variable {n n' : Network} {c p : Nat} {x : Exchange Matcher} {ms ms' : List Message}
  {r : Except TokenError String}

/-- What has been delivered to an exchange that listens has been read or waits. -/
theorem Follows.heard (h : n.Follows x ms) (hl : x.listener ∈ n.registered x.peer) :
    ∃ unread, (n.peer x.peer).Hears x.listener true unread ∧
      Verdict.behind x.payload (Verdict.response (unread.map Reply.classify)) =
        Verdict.response (ms.map Reply.classify) := by
  obtain ⟨old,unread,open_,hh,_,hall,hquiet,hpayload⟩ := h
  have hopen : open_ = true := by
    rw [← hh.registered]
    exact List.contains_iff_mem.mpr hl
  subst hopen
  refine ⟨unread,hh,?_⟩
  rw [← hall rfl, List.map_append, Verdict.response_append hquiet, hpayload]

theorem Follows.brings (h : n.Follows x ms) (hl : x.listener ∈ n.registered x.peer)
    (hr : Verdict.response (ms.map Reply.classify) = some r) : n.Brings x r := by
  obtain ⟨unread,hh,hv⟩ := h.heard hl
  exact ⟨unread,true,hh,hv.trans hr⟩

namespace Waits

theorem brings (h : n.Waits c p x ms)
    (hr : Verdict.response (ms.map Reply.classify) = some r) : n.Brings x r :=
  h.follows.brings (h.peer ▸ h.listens) hr

theorem result (h : n.Waits c p x ms)
    (hlate : (x.arm n.now n.tickets).timedOut n.sounded = false) :
    (n.looked x).result = Verdict.response (ms.map Reply.classify) := by
  obtain ⟨unread,hh,hv⟩ := h.follows.heard (h.peer ▸ h.listens)
  rw [looked_result h.matcher, hh.unread_eq, hv, hh.registered, hlate]
  simp

/-- A look that does not resolve the exchange. -/
theorem look (h : n.Waits c p x ms) (hp : p < n.peers.length) (hr : (n.looked x).result = none) :
    (n.pollRequest (.caller c)).2.Waits c p (n.looked x).exchange ms := by
  obtain ⟨hpeer,hlistener,_⟩ := n.looked_exchange x
  have hk := kept_drained h.exchange
  rw [pollRequest_open h.exchange hr]
  refine ⟨?_,hpeer.trans h.peer,?_,?_,?_⟩
  · exact (drained_exchange h.exchange _).trans (if_pos rfl)
  · have hs : Serves { requestTimeout := x.timeout } p x := ⟨h.matcher,rfl,h.peer⟩
    exact hs.looked.matcher
  · rw [hlistener, hk.registered]
    exact h.listens
  · exact h.follows.drained h.matcher (h.peer ▸ hp) hr

/-- An act of somebody else, which does not close the connection. -/
theorem act (hn : n.Orderly) (hs : n.Sane) (ho : n.Owned) (h : n.Waits c p x ms)
    (hp : p < n.peers.length) {a : Act} (ha : a.holder? ≠ some (.caller c))
    (hopen : a ≠ .event (.disconnect p)) (hlink : ((n.act a).peer p).link ≠ .stream false) :
    (n.act a).Waits c p x (ms ++ n.conveys p a) := by
  have hc := act_carries hn ho.tidy a
  obtain ⟨hx,rfl,hm,hl,hf⟩ := h
  refine ⟨(hc.exchanges _ ha).trans hx,rfl,hm,?_,hf.relays (hc.relays _ x ha hx hp)⟩
  exact still_registered hn hs ho hx (fun hl => ha hl.holder) hopen (fun _ => hlink) hl

end Waits

theorem returned?_append (n : Network) (c : Nat) (as bs : List Act) :
    n.returned? c (as ++ bs) = (n.returned? c as).or ((n.play as).returned? c bs) := by
  induction as generalizing n with
  | nil => rfl
  | cons a as ih => rw [List.cons_append, returned?, ih, returned?, Option.or_assoc, play_cons]

theorem returned?_of_look (n : Network) (c : Nat) (as : List Act) :
    n.returned? c (.lookRequest c :: as) =
      (n.pollRequest (.caller c)).1.or ((n.pollRequest (.caller c)).2.returned? c as) := by
  rw [returned?, if_pos rfl]
  rfl

/-- As long as its timer is not due, a request comes back with the response as soon as the caller
looks at it and all of the response has been delivered. -/
theorem Waits.play (hn : n.Orderly) (hs : n.Sane) (ho : n.Owned) (ht : n.Timely)
    (h : n.Waits c p x ms) (hp : p < n.peers.length) {t : Timer} (hx : x.timer = some t)
    {as : List Act} (hown : ∀ a ∈ as, a.holder? = some (.caller c) → a = .lookRequest c)
    (hopen : n.StaysOpen p as) (hearly : (n.play as).sounded < t.due) :
    (∃ r now, Verdict.response ((ms ++ n.conveyed p as).map Reply.classify) = some r ∧
      n.returned? c as = some (r.bind (Token.ofPayload now))) ∨
    n.returned? c as = none ∧ ∃ x', (n.play as).Waits c p x' (ms ++ n.conveyed p as) := by
  induction as generalizing n x ms with
  | nil => exact .inr ⟨rfl,x,by simpa [conveyed] using h⟩
  | cons a as ih =>
    obtain ⟨hdisconnect,hlink,hrest⟩ := hopen
    have hown' := fun b hb => hown b (List.mem_cons_of_mem a hb)
    have hp' : p < (n.act a).peers.length := by rwa [n.act_peers_length]
    have ih := @ih (n.act a)
    by_cases ha : a.holder? = some (.caller c)
    · obtain rfl := hown a List.mem_cons_self ha
      have harm : (x.arm n.now n.tickets).timer = some t := by rw [Exchange.arm, hx]; rfl
      have hoff : (x.arm n.now n.tickets).timedOut n.sounded = false := by
        have hle := (ht.play (.lookRequest c :: as)).1
        simp only [Exchange.timedOut, harm, Option.any_some, Timer.isOff]
        simpa using Nat.lt_of_le_of_lt hle hearly
      have hnothing : ms ++ n.conveyed p (.lookRequest c :: as) =
          ms ++ (n.act (.lookRequest c)).conveyed p as := rfl
      have hresult := h.result hoff
      rw [hnothing, returned?_of_look, pollRequest_result h.exchange, hresult]
      cases hr : Verdict.response (ms.map Reply.classify) with
      | some r =>
        refine .inl ⟨r,n.now,?_,rfl⟩
        rw [List.map_append]
        exact Verdict.response_append_of_some hr _
      | none =>
        have hlooked := h.look hp (hresult.trans hr)
        exact ih (hn.act _) (hs.act hn _) (ho.act hn hs _) (ht.act _).2 hlooked hp'
          ((n.looked_timer x).trans harm) hown' hrest hearly
    · have hne : ¬ a = .lookRequest c := by
        rintro rfl
        exact ha rfl
      rw [returned?, if_neg hne, Option.none_or, conveyed, ← List.append_assoc]
      exact ih (hn.act a) (hs.act hn a) (ho.act hn hs a) (ht.act a).2
        (h.act hn hs ho hp ha hdisconnect hlink) hp' hx hown' hrest hearly

theorem Brings.relays (h : n.Brings x r)
    (hr : (n.peer x.peer).Relays (n'.peer x.peer) x.listener ms') : n'.Brings x r := by
  obtain ⟨unread,open_,hh,hv⟩ := h
  obtain ⟨open',got,hh',_⟩ := hr _ _ hh
  refine ⟨unread ++ got,open',hh',?_⟩
  cases hu : Verdict.response (unread.map Reply.classify) with
  | none =>
    rw [hu] at hv
    cases hv
  | some r' =>
    rw [List.map_append, Verdict.response_append_of_some hu, ← hu]
    exact hv

theorem Brings.result (h : n.Brings x r) (hm : x.matcher = .extjwt) :
    (n.looked x).result = some r := by
  obtain ⟨unread,open_,hh,hv⟩ := h
  rw [looked_result hm, hh.unread_eq, hv, Option.some_or]

/-- Once all of the response has been delivered, a request comes back with it, whatever happens
before the caller looks. -/
theorem Brings.play (hn : n.Orderly) (ht : n.Tidy) (h : n.Brings x r)
    (hx : n.exchanges.get? (.caller c) = some x) (hm : x.matcher = .extjwt)
    (hp : x.peer < n.peers.length) {as : List Act}
    (hown : ∀ a ∈ as, a.holder? = some (.caller c) → a = .lookRequest c) :
    ∃ now, n.returned? c (as ++ [.lookRequest c]) = some (r.bind (Token.ofPayload now)) := by
  have hlook : ∀ bs, n.returned? c (.lookRequest c :: bs) =
      some (r.bind (Token.ofPayload n.now)) := by
    intro bs
    rw [returned?_of_look, pollRequest_result hx, h.result hm]
    rfl
  induction as generalizing n with
  | nil => exact ⟨n.now,hlook []⟩
  | cons a as ih =>
    by_cases ha : a.holder? = some (.caller c)
    · obtain rfl := hown a List.mem_cons_self ha
      exact ⟨n.now,hlook _⟩
    · have hc := act_carries hn ht a
      have hx' := (hc.exchanges _ ha).trans hx
      have h' := h.relays (hc.relays _ x ha hx hp)
      have hne : ¬ a = .lookRequest c := by
        rintro rfl
        exact ha rfl
      rw [List.cons_append, returned?, if_neg hne, Option.none_or]
      refine ih (hn.act a) hc.tidy h' hx' (by rwa [n.act_peers_length])
        (fun b hb => hown b (List.mem_cons_of_mem a hb)) fun bs => ?_
      rw [returned?_of_look, pollRequest_result hx', h'.result hm]
      rfl

/-- What a caller gets that looks for the last time once all of the response has been delivered. -/
theorem Waits.returned (hn : n.Orderly) (hs : n.Sane) (ho : n.Owned) (ht : n.Timely)
    (h : n.Waits c p x ms) (hp : p < n.peers.length) {t : Timer} (hx : x.timer = some t)
    {during later : List Act}
    (hown : ∀ a ∈ during ++ later, a.holder? = some (.caller c) → a = .lookRequest c)
    (hopen : n.StaysOpen p during) (hearly : (n.play during).sounded < t.due)
    (hr : Verdict.response ((ms ++ n.conveyed p during).map Reply.classify) = some r) :
    ∃ now, n.returned? c (during ++ later ++ [.lookRequest c]) =
      some (r.bind (Token.ofPayload now)) := by
  rw [List.append_assoc, returned?_append]
  rcases h.play hn hs ho ht hp hx (fun a ha => hown a (List.mem_append_left _ ha)) hopen hearly with
    ⟨r',now,hr',hreturned⟩ | ⟨hreturned,x',hw⟩
  · rw [hr] at hr'
    cases hr'
    exact ⟨now,by rw [hreturned, Option.some_or]⟩
  · rw [hreturned, Option.none_or]
    have hp' : x'.peer < (n.play during).peers.length := by
      rwa [hw.peer, play_peers_length]
    exact (hw.brings hr).play (hn.play during) (hs.play hn during).tidy hw.exchange hw.matcher
      hp' fun a ha => hown a (List.mem_append_right _ ha)

theorem dropsNew_of_sent {h : Holder} {service : Option String} {timeout : Span}
    (hsent : (n.openRequest h p service timeout).1 = .sent) : (n.peer p).dropsNew = false := by
  cases hc : (n.peer p).connected with
  | true => simp [Peer.dropsNew, hc]
  | false =>
    have hq := n.quiet_openExchange h p .extjwt timeout
    rw [openRequest, send_of_disconnected] at hsent
    · cases hsent
    · rw [hq.connected, hc]

/-- A request that could be sent waits for its response. -/
theorem waits_openRequest (ho : n.Owned) (hp : p < n.peers.length)
    (hno : n.exchanges.get? (.caller c) = none) (service : Option String) (timeout : Span)
    (hsent : (n.openRequest (.caller c) p service timeout).1 = .sent) :
    (n.openRequest (.caller c) p service timeout).2.Waits c p
      (Exchange.listen (n.peer p) p .extjwt timeout n.now).1
      (answers (n.peer p) Reply.extjwt (Reply.anyTarget :: service.toList)) := by
  have hb := began_openRequest ho hno p service timeout
  refine ⟨hb.exchange,rfl,rfl,?_,openRequest_follows ho.tidy _ hp service timeout⟩
  rw [hb.registered, if_pos ⟨rfl,hp,dropsNew_of_sent hsent⟩]
  simp

section
variable {service : Option String} {timeout : Span}

theorem startRequest_of_sent (hsent : (n.openRequest (.caller c) p service timeout).1 = .sent) :
    n.startRequest c p service timeout =
      (n.openRequest (.caller c) p service timeout).2.pollRequest (.caller c) := by
  rw [startRequest]
  rcases hs : n.openRequest (.caller c) p service timeout with ⟨s,n'⟩
  rw [hs] at hsent
  cases hsent
  rfl

/-- A response that is delivered while the request is sent is there at the first look. -/
theorem startRequest_of_response (ho : n.Owned) (hp : p < n.peers.length)
    (hno : n.exchanges.get? (.caller c) = none)
    (hsent : (n.openRequest (.caller c) p service timeout).1 = .sent)
    (hr : Verdict.response ((answers (n.peer p) Reply.extjwt
      (Reply.anyTarget :: service.toList)).map Reply.classify) = some r) :
    ∃ now, (n.startRequest c p service timeout).1 = some (r.bind (Token.ofPayload now)) := by
  have hw := waits_openRequest ho hp hno service timeout hsent
  rw [startRequest_of_sent hsent, pollRequest_result hw.exchange, (hw.brings hr).result rfl]
  exact ⟨_,rfl⟩

/-- Otherwise the first look sets the timer, and the request waits for what is left. -/
theorem waits_startRequest (ho : n.Owned) (hp : p < n.peers.length)
    (hno : n.exchanges.get? (.caller c) = none)
    (hsent : (n.openRequest (.caller c) p service timeout).1 = .sent)
    (hearly : n.sounded < Clock.dueTick (Clock.deadline n.now timeout))
    (hr : Verdict.response ((answers (n.peer p) Reply.extjwt
      (Reply.anyTarget :: service.toList)).map Reply.classify) = none) :
    (n.startRequest c p service timeout).1 = none ∧
    ∃ x t, (n.startRequest c p service timeout).2.Waits c p x
        (answers (n.peer p) Reply.extjwt (Reply.anyTarget :: service.toList)) ∧
      x.timer = some t ∧ t.due = Clock.dueTick (Clock.deadline n.now timeout) := by
  let n₀ := (n.openRequest (.caller c) p service timeout).2
  let x := (Exchange.listen (n.peer p) p Matcher.extjwt timeout n.now).1
  let t := Timer.set n₀.now timeout n₀.tickets
  have hw : n₀.Waits c p x _ := waits_openRequest ho hp hno service timeout hsent
  have hnow : n₀.now = n.now := (n.outer_openRequest ..).now
  have hsounded : n₀.sounded = n.sounded := (n.calm_openRequest ..).sounded
  have hdue : t.due = Clock.dueTick (Clock.deadline n.now timeout) := by
    rw [← hnow]
    rfl
  have hoff : (x.arm n₀.now n₀.tickets).timedOut n₀.sounded = false := by
    have harm : (x.arm n₀.now n₀.tickets).timer = some t := rfl
    rw [Exchange.timedOut, harm, Option.any_some, Timer.isOff, hdue, hsounded]
    exact decide_eq_false (Nat.not_le.mpr hearly)
  have hquiet : (n₀.looked x).result = none := (hw.result hoff).trans hr
  rw [startRequest_of_sent hsent, pollRequest_result hw.exchange]
  refine ⟨by rw [hquiet]; rfl,_,t,?_,n₀.looked_timer x,hdue⟩
  exact hw.look (by rwa [(n.outer_openRequest ..).length]) hquiet

/-- A request that listens from the start comes back with the response that is delivered to it before
its timer is due, and before its connection is closed. -/
theorem yields_response (hn : n.Orderly) (hs : n.Sane) (ho : n.Owned) (ht : n.Timely)
    (hp : p < n.peers.length) (hno : n.exchanges.get? (.caller c) = none)
    (hsent : (n.openRequest (.caller c) p service timeout).1 = .sent) {during later : List Act}
    (hown : ∀ a ∈ during ++ later, a.holder? = some (.caller c) → a = .lookRequest c)
    (hopen : (n.startRequest c p service timeout).2.StaysOpen p during)
    (hearly : during = [] ∨ ((n.startRequest c p service timeout).2.play during).sounded <
      Clock.dueTick (Clock.deadline n.now timeout))
    (hr : Verdict.response ((answers (n.peer p) Reply.extjwt (Reply.anyTarget :: service.toList) ++
      (n.startRequest c p service timeout).2.conveyed p during).map Reply.classify) = some r) :
    ∃ now, n.yields? c p service timeout (during ++ later ++ [.lookRequest c]) =
      some (r.bind (Token.ofPayload now)) := by
  rw [yields?]
  cases hfirst : Verdict.response ((answers (n.peer p) Reply.extjwt
      (Reply.anyTarget :: service.toList)).map Reply.classify) with
  | some r' =>
    rw [List.map_append, Verdict.response_append_of_some hfirst] at hr
    cases hr
    obtain ⟨now,hnow⟩ := startRequest_of_response ho hp hno hsent hfirst
    exact ⟨now,by rw [hnow, Option.some_or]⟩
  | none =>
    have hact : (n.startRequest c p service timeout).2 = n.act (.request c p service timeout) := by
      simp [Network.act, Table.contains, hno]
    rw [hact] at hopen hearly hr ⊢
    have ht' := ht.act (.request c p service timeout)
    replace hearly := hearly.resolve_left fun hnone => by
      rw [hnone, conveyed, List.append_nil, hfirst] at hr
      cases hr
    obtain ⟨hnothing,x,t,hw,hx,hdue⟩ := waits_startRequest ho hp hno hsent
      ((ht'.1.trans (ht'.2.play during).1).trans_lt hearly) hfirst
    rw [hact] at hw
    rw [hnothing, Option.none_or]
    exact hw.returned (hn.act _) (hs.act hn _) (ho.act hn hs _) ht'.2 (by rwa [n.act_peers_length])
      hx hown hopen (hdue ▸ hearly) hr

end

end

/-- Let the lines of a response in one or more pieces reach a request in order, some while it is sent
and the others before its timer is due, with any unrelated lines between them, while its connection
stays open. Then the request yields the token that the pieces make together, or says that it is empty,
however often the caller looks, and whatever else goes on in the network, before or after. -/
theorem pieces_reassembled (peers : List Peer) (hfresh : ∀ q ∈ peers, q.listeners = {})
    (configs : List TokenConfig) (before : List Act) (c : Nat) (p : Fin peers.length)
    (service : Option String) (timeout : Span) (during later : List Act) (word : String)
    (pieces : List String) (last : String) (lines : List String)
    (hword : word ≠ "" ∧ ' ' ∉ word.toList ∧ word.toList.head? ≠ some ':')
    (hclean : ∀ piece ∈ pieces ++ [last], ∀ ch ∈ piece.toList, Message.isLineEnd ch = false)
    (hlines : Message.Interleaved (Response.ofPieces word pieces last).messages lines) :
    let n := (start peers configs).play before
    let n₁ := (n.startRequest c p service timeout).2
    n.exchanges.get? (.caller c) = none →
    (n.openRequest (.caller c) p service timeout).1 = .sent →
    lines.map Message.parse? = (answers (n.peer p) Reply.extjwt
      (Reply.anyTarget :: service.toList) ++ n₁.conveyed p during).map some →
    n₁.StaysOpen p during →
    during = [] ∨ (n₁.play during).sounded < Clock.dueTick (Clock.deadline n.now timeout) →
    (∀ a ∈ during ++ later, a.holder? = some (.caller c) → a = .lookRequest c) →
    (n.yields? c p service timeout (during ++ later ++ [.lookRequest c])).map
        (Except.map Token.value) =
      some (if String.join (pieces ++ [last]) = "" then .error (.malformed "empty token")
        else .ok (String.join (pieces ++ [last]))) := by
  intro n n₁ hno hsent hdelivered hopen hearly hown
  let n₀ := start peers configs
  have hn₀ : n₀.Orderly := orderly_start peers configs
  have hs₀ : n₀.Sane := sane_start peers configs
  have hp : (p : Nat) < n.peers.length := by
    rw [n₀.play_peers_length]
    exact p.isLt
  have hr := hlines.response (Response.writable_of_pieces hword hclean) hdelivered
  rw [Response.response_messages, Response.payload_of_pieces] at hr
  obtain ⟨now,hyields⟩ := yields_response (hn₀.play before) (hs₀.play hn₀ before)
    ((owned_start hfresh configs).play hn₀ hs₀ before) ((timely_start peers configs).play before).2
    hp hno hsent hown hopen hearly hr
  rw [hyields, Option.map_some]
  exact congrArg some (map_value_ofPayload now _)

/-- The first piece comes while the request is sent, and the second one, which begins with a space,
behind a line for somebody else. The connection is closed before the caller looks again. -/
theorem two_pieces_reassembled :
    let n := start [{ name := "irc", replies := some ⟨[[":irc EXTJWT * files * AB"]],0⟩ }] []
    let during := [Act.lookRequest 0, .event (.deliver 0 (.of "EXTJWT" ["#files", "*", "no"])),
      .event (.deliver 0 (.of "EXTJWT" ["*", "files", " :CD"]))]
    (n.yields? 0 0 (some "files") (Span.ofSeconds 10)
        (during ++ [.event (.disconnect 0)] ++ [.lookRequest 0])).map (Except.map Token.value) =
      some (.ok "AB :CD") := by
  intro n during
  have hlines : Message.Interleaved (Response.ofPieces "files" ["AB"] " :CD").messages
      [":irc EXTJWT * files * AB", "extjwt #files * no", "EXTJWT * files : :CD"] :=
    .own ⟨some "irc",by decide +kernel,by decide +kernel⟩
      (.other (m := .of "EXTJWT" ["#files", "*", "no"]) (by decide +kernel) (by decide +kernel)
        (.own ⟨none,by decide +kernel,by decide +kernel⟩ .nil))
  have hfresh : ∀ q ∈ [({ name := "irc", replies := some ⟨[[":irc EXTJWT * files * AB"]],0⟩ } : Peer)],
      q.listeners = {} := by simp
  let n₁ := (n.startRequest 0 0 (some "files") (Span.ofSeconds 10)).2
  have hsent : (n.openRequest (.caller 0) 0 (some "files") (Span.ofSeconds 10)).1 = .sent := by
    decide +kernel
  have hanswers : answers (n.peer 0) Reply.extjwt (Reply.anyTarget :: (some "files").toList) =
      [⟨some "irc","EXTJWT",["*", "files", "*", "AB"]⟩] := by decide +kernel
  have hconveyed : n₁.conveyed 0 during =
      [.of "EXTJWT" ["#files", "*", "no"], .of "EXTJWT" ["*", "files", " :CD"]] := rfl
  have hdelivered : [":irc EXTJWT * files * AB", "extjwt #files * no", "EXTJWT * files : :CD"].map
      Message.parse? = (answers (n.peer 0) Reply.extjwt
        (Reply.anyTarget :: (some "files").toList) ++ n₁.conveyed 0 during).map some := by
    rw [hanswers, hconveyed]
    decide +kernel
  have hopen : n₁.StaysOpen 0 during := by decide +kernel
  have hearly : (n₁.play during).sounded < Clock.dueTick (Clock.deadline n.now (Span.ofSeconds 10)) :=
    by decide +kernel
  have hclean : ∀ piece ∈ ["AB"] ++ [" :CD"], ∀ ch ∈ piece.toList, Message.isLineEnd ch = false := by
    simp [Message.isLineEnd]
  have h := pieces_reassembled _ hfresh [] [] 0 ⟨0,by decide⟩ (some "files") (Span.ofSeconds 10)
    during [.event (.disconnect 0)] "files" ["AB"] " :CD" _ (by decide +kernel) hclean
    hlines rfl hsent hdelivered hopen (.inr hearly) (by decide +kernel)
  have hjoined : (if String.join (["AB"] ++ [" :CD"]) = "" then .error (.malformed "empty token")
      else .ok (String.join (["AB"] ++ [" :CD"]))) = (.ok "AB :CD" : Except TokenError String) := by
    decide +kernel
  exact h.trans (congrArg some hjoined)

end Network

end ChatToken
