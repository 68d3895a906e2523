import ChatToken.Network.Secrecy
import ChatToken.Proofs.Exchange.Outcome
import ChatToken.Proofs.Loader.Renaming

/-! # Messages, exchanges and connections without token texts

What a message means to an exchange, what an exchange comes to and what a connection does depend on
the texts of tokens only by their sizes.
-/
namespace ChatToken

/-! ## Texts -/

namespace Text

theorem utf8ByteSize_veil (s : String) : (veil s).utf8ByteSize = s.utf8ByteSize := by
  have hstars : ∀ k, (String.ofList (List.replicate k '*')).utf8ByteSize = k := by
    intro k
    induction k with
    | zero => rfl
    | succ k ih =>
      rw [List.replicate_succ', String.ofList_append, String.utf8ByteSize_append, ih]
      rfl
  exact hstars _

theorem veil_eq_veil {s s' : String} : veil s = veil s' ↔ s.utf8ByteSize = s'.utf8ByteSize := by
  refine ⟨fun h => ?_,fun h => by rw [veil, veil, h]⟩
  rw [← utf8ByteSize_veil s, h, utf8ByteSize_veil]

theorem veil_append {s s' t t' : String} (hs : veil s' = veil s) (ht : veil t' = veil t) :
    veil (s' ++ t') = veil (s ++ t) := by
  rw [veil_eq_veil] at *
  rw [String.utf8ByteSize_append, String.utf8ByteSize_append, hs, ht]

end Text

/-! ## Messages -/

namespace Message

variable {m m' : Message}

def veil (m : Message) : Message :=
  if m.carriesText then m.withLast (Text.veil m.lastParam) else m

theorem length_withLast (h : m.carriesText = true) (text : String) :
    (m.withLast text).params.length = m.params.length := by
  simp only [carriesText, Bool.and_eq_true, decide_eq_true_eq] at h
  simp only [withLast, List.length_append, List.length_dropLast, List.length_singleton]
  omega

theorem lastParam_withLast (m : Message) (text : String) : (m.withLast text).lastParam = text := by
  simp [withLast, lastParam, lastParam?]

theorem first_withLast (h : m.carriesText = true) (text : String) :
    (m.withLast text).param? 0 = m.param? 0 := by
  simp only [carriesText, Bool.and_eq_true, decide_eq_true_eq] at h
  obtain ⟨_,h2⟩ := h
  have hlen : 0 < m.params.dropLast.length := by
    rw [List.length_dropLast]
    omega
  rw [param?, param?, withLast, List.getElem?_append_left hlen, List.getElem?_dropLast]
  exact if_pos (by omega)

theorem carriesText_withLast (h : m.carriesText = true) (text : String) :
    (m.withLast text).carriesText = true := by
  have hl := length_withLast h text
  have hf := first_withLast h text
  unfold carriesText at h ⊢
  rw [hl, hf]
  exact h

theorem withLast_withLast (m : Message) (text text' : String) :
    (m.withLast text).withLast text' = m.withLast text' := by
  simp [withLast]

theorem Reworded.veil (h : m.Reworded m') : m'.veil = m.veil := by
  obtain rfl | ⟨hc,text,hsize,rfl⟩ := h
  · rfl
  · rw [Message.veil, Message.veil, if_pos hc, if_pos (carriesText_withLast hc text),
      withLast_withLast, lastParam_withLast, Text.veil_eq_veil.mpr hsize]

/-- Messages that are the same without their texts are the same, or both carry texts, of the same
size. -/
theorem eq_or_of_veil (h : m'.veil = m.veil) :
    m' = m ∨ m.carriesText = true ∧ m'.carriesText = true ∧
      m'.params.length = m.params.length ∧ Text.veil m'.lastParam = Text.veil m.lastParam := by
  have hcarries : ∀ m : Message, m.veil.carriesText = m.carriesText := by
    intro m
    unfold Message.veil
    split
    · next hc => rw [hc, carriesText_withLast hc]
    · rfl
  have hc := congrArg carriesText h
  rw [hcarries, hcarries] at hc
  by_cases hm : m.carriesText = true
  · have hm' := hc.trans hm
    refine .inr ⟨hm,hm',?_,?_⟩
    · have hlen := congrArg (·.params.length) h
      simpa only [Message.veil, if_pos hm, if_pos hm', length_withLast hm, length_withLast hm']
        using hlen
    · have hlast := congrArg lastParam h
      simpa only [Message.veil, if_pos hm, if_pos hm', lastParam_withLast] using hlast
  · have hm' : ¬ m'.carriesText = true := by rwa [hc]
    rw [Message.veil, Message.veil, if_neg hm, if_neg hm'] at h
    exact .inl h

theorem command_of_carriesText (h : m.carriesText = true) : m.command = Reply.extjwt := by
  simp only [carriesText, Bool.and_eq_true, beq_iff_eq] at h
  exact h.1.1

theorem target_of_carriesText (h : m.carriesText = true) : m.param? 0 = some Reply.anyTarget := by
  simp only [carriesText, Bool.and_eq_true, beq_iff_eq] at h
  exact h.1.2

theorem command_of_veil (h : m'.veil = m.veil) : m'.command = m.command := by
  obtain rfl | ⟨hc,hc',_⟩ := eq_or_of_veil h
  · rfl
  · rw [command_of_carriesText hc, command_of_carriesText hc']

theorem lastParam_of_veil (h : m'.veil = m.veil) :
    Text.veil m'.lastParam = Text.veil m.lastParam := by
  obtain rfl | ⟨_,_,_,hlast⟩ := eq_or_of_veil h
  · rfl
  · exact hlast

/-- A message that is no answer to a token request has no text to be left out. -/
theorem eq_of_veil (h : m'.veil = m.veil) (hc : m.command ≠ Reply.extjwt) : m' = m := by
  obtain rfl | ⟨hcarries,_⟩ := eq_or_of_veil h
  · rfl
  · exact absurd (command_of_carriesText hcarries) hc

end Message

/-! ## Verdicts -/

def Verdict.veil : Verdict → Verdict
  | skip => skip
  | fragment piece => fragment (Text.veil piece)
  | complete piece => complete (Text.veil piece)
  | reject e => reject e

theorem Reply.classify_veil {m m' : Message} (h : m'.veil = m.veil) :
    (classify m').veil = (classify m).veil := by
  obtain rfl | ⟨hc,hc',hlen,hlast⟩ := Message.eq_or_of_veil h
  · rfl
  · unfold classify
    rw [Message.command_of_carriesText hc, Message.command_of_carriesText hc',
      Message.target_of_carriesText hc, Message.target_of_carriesText hc', hlen]
    simp only [if_true]
    split <;> simp only [Verdict.veil, hlast]

theorem Matcher.classify_veil {m m' : Message} (h : m'.veil = m.veil) (matcher : Matcher) :
    (matcher.classify m').1.veil = (matcher.classify m).1.veil ∧
    (matcher.classify m').2 = (matcher.classify m).2 := by
  cases matcher with
  | extjwt => exact ⟨Reply.classify_veil h,rfl⟩
  | registration =>
    refine ⟨?_,rfl⟩
    by_cases hc : m.command = Reply.extjwt
    · have hskip : ∀ m : Message, m.command = Reply.extjwt → Registration.classify m = .skip := by
        intro m hm
        unfold Registration.classify Registration.isWelcomeEnd Registration.isRefusal
        rw [hm]
        rfl
      have hc' := (Message.command_of_veil h).trans hc
      simp only [classify, hskip m hc, hskip m' hc']
    · rw [Message.eq_of_veil h hc]
  | prepared command verdicts =>
    have hlast := Message.lastParam_of_veil h
    have hpiece : ∀ piece : Option String, Text.veil (piece.getD m'.lastParam) =
        Text.veil (piece.getD m.lastParam) := by
      intro piece
      cases piece with
      | none => exact hlast
      | some _ => rfl
    simp only [classify, Message.command_of_veil h]
    split
    · cases verdicts with
      | nil => exact ⟨rfl,rfl⟩
      | cons v rest =>
        refine ⟨?_,rfl⟩
        cases v <;> simp only [PreparedVerdict.verdict, Verdict.veil, hpiece]
    · exact ⟨rfl,rfl⟩

/-! ## Exchanges -/

namespace Exchange

variable {x x' : Exchange Matcher} {ms ms' : List Message}

def veil (x : Exchange Matcher) : Exchange Matcher := { x with payload := Text.veil x.payload }

structure Reading.Veils (r r' : Reading Matcher) : Prop where
  result : r'.result.map (·.map Text.veil) = r.result.map (·.map Text.veil)
  exchange : r'.exchange.veil = r.exchange.veil
  pieces : r'.pieces.map String.utf8ByteSize = r.pieces.map String.utf8ByteSize

theorem read_veil (hx : x'.veil = x.veil) (hms : ms'.map Message.veil = ms.map Message.veil) :
    (read Matcher.classify x ms).Veils (read Matcher.classify x' ms') := by
  induction ms generalizing ms' x x' with
  | nil =>
    obtain rfl : ms' = [] := List.map_eq_nil_iff.mp hms
    exact ⟨rfl,hx,rfl⟩
  | cons m ms ih =>
    obtain _ | ⟨m',ms'⟩ := ms'
    · cases hms
    obtain ⟨hm,hms⟩ := List.cons.inj hms
    have hmatcher : x'.matcher = x.matcher := by
      have h := congrArg Exchange.matcher hx
      exact h
    have hpayload : Text.veil x'.payload = Text.veil x.payload := congrArg Exchange.payload hx
    obtain ⟨hv,hs⟩ := Matcher.classify_veil hm x.matcher
    unfold read
    rw [hmatcher]
    generalize Matcher.classify x.matcher m' = c' at hv hs ⊢
    generalize Matcher.classify x.matcher m = c at hv hs ⊢
    obtain ⟨v,s⟩ := c
    obtain ⟨v',s'⟩ := c'
    obtain rfl : s' = s := hs
    have hstep : ∀ {t t' : String}, Text.veil t' = Text.veil t →
        ({ x' with matcher := s', payload := t' } : Exchange Matcher).veil =
          ({ x with matcher := s', payload := t } : Exchange Matcher).veil := by
      intro t t' ht
      simp only [veil, mk.injEq] at hx ⊢
      exact ⟨hx.1,hx.2.1,trivial,hx.2.2.2.1,hx.2.2.2.2.1,ht,hx.2.2.2.2.2.2⟩
    cases v with
    | skip =>
      cases v' <;> cases hv
      exact ih (hstep hpayload) hms
    | fragment piece =>
      cases v' with
      | fragment piece' =>
        have hpiece : Text.veil piece' = Text.veil piece := Verdict.fragment.inj hv
        obtain ⟨hr,he,hp⟩ := ih (hstep (Text.veil_append hpayload hpiece)) hms
        refine ⟨hr,he,?_⟩
        rw [List.map_cons, List.map_cons, hp, Text.veil_eq_veil.mp hpiece]
      | _ => cases hv
    | complete piece =>
      cases v' with
      | complete piece' =>
        have hpiece : Text.veil piece' = Text.veil piece := Verdict.complete.inj hv
        refine ⟨?_,hstep hpayload,rfl⟩
        simp only [Option.map_some, Except.map, Text.veil_append hpayload hpiece]
      | _ => cases hv
    | reject e =>
      cases v' with
      | reject e' =>
        obtain rfl : e' = e := Verdict.reject.inj hv
        exact ⟨rfl,hstep hpayload,rfl⟩
      | _ => cases hv

theorem poll_veil (hx : x'.veil = x.veil) (hms : ms'.map Message.veil = ms.map Message.veil)
    (now sounded ticket : Nat) (open_ : Bool) :
    (x.poll Matcher.classify now sounded ticket open_ ms).Veils
      (x'.poll Matcher.classify now sounded ticket open_ ms') := by
  have harm : (x'.arm now ticket).veil = (x.arm now ticket).veil := by
    have h := congrArg (fun x : Exchange Matcher => x.arm now ticket) hx
    exact h
  have hr := read_veil harm hms
  have htimeout : (x'.arm now ticket).timeout = (x.arm now ticket).timeout := by
    have h := congrArg Exchange.timeout harm
    exact h
  unfold poll
  dsimp only
  have htimed : ∀ {y y' : Exchange Matcher}, y'.veil = y.veil →
      y'.timedOut sounded = y.timedOut sounded := by
    intro y y' hy
    have h := congrArg (fun y : Exchange Matcher => y.timedOut sounded) hy
    exact h
  rw [htimeout, htimed hr.exchange]
  generalize (x.arm now ticket).timeout = timeout
  generalize read Matcher.classify (x'.arm now ticket) ms' = r' at hr ⊢
  generalize read Matcher.classify (x.arm now ticket) ms = r at hr ⊢
  obtain ⟨result,y,pieces⟩ := r
  obtain ⟨result',y',pieces'⟩ := r'
  obtain ⟨hres,hy,hp⟩ := hr
  cases result with
  | some a =>
    cases result' with
    | some a' => exact ⟨hres,hy,hp⟩
    | none => cases hres
  | none =>
    cases result' with
    | some a' => cases hres
    | none =>
      dsimp only
      split
      · exact ⟨rfl,hy,hp⟩
      · split
        · exact ⟨rfl,hy,hp⟩
        · exact ⟨rfl,hy,hp⟩

end Exchange

/-! ## Listeners -/

namespace Listeners

variable (ls : Listeners) (id : Nat)

def veil (ls : Listeners) : Listeners :=
  { ls with inboxes := ls.inboxes.mapValues fun _ ms => ms.map Message.veil }

theorem veil_add : ls.add.2.veil = ls.veil.add.2 := by
  simp only [add, veil, Table.mapValues_insert]
  rfl

theorem veil_close : (ls.close id).veil = ls.veil.close id := by
  simp only [close, veil, Table.mapValues_erase]

theorem veil_drain : (ls.drain id).veil = ls.veil.drain id := by
  unfold drain veil
  rw [Table.mapValues_adjust]
  intro ms
  rfl

theorem hasInbox_veil : ls.veil.hasInbox id = ls.hasInbox id := by
  simp only [hasInbox, veil, Table.contains, Table.get?_mapValues, Option.isSome_map]

theorem veil_dispatch (m : Message) : (ls.dispatch m).veil = ls.veil.dispatch m.veil := by
  have hhas : ls.veil.hasInbox = ls.hasInbox := funext fun id => ls.hasInbox_veil id
  have hreg : ls.veil.isRegistered = ls.isRegistered := rfl
  unfold dispatch
  rw [hhas, hreg]
  simp only [veil, Table.mapValues, mk.injEq, List.map_map, true_and, Table.mk.injEq]
  refine List.map_congr_left fun e _ => ?_
  simp only [Function.comp_apply]
  split <;> simp

theorem unread_veil : ls.veil.unread id = (ls.unread id).map Message.veil := by
  simp only [unread, veil, Table.get?_mapValues]
  cases ls.inboxes.get? id <;> rfl

end Listeners

/-! ## Connections -/

namespace Peer

/-- Two connections that are the same but for the texts in what waits for their listeners, and in
their prepared answers. -/
structure Veils (p p' : Peer) : Prop where
  name : p'.name = p.name
  link : p'.link = p.link
  listeners : p'.listeners.veil = p.listeners.veil
  sent : p'.sent = p.sent
  capabilities : p'.capabilities = p.capabilities
  replies : Option.Rel PreparedReplies.Reworded p.replies p'.replies
  connected : p'.connected = p.connected

variable {p p' : Peer}

theorem Veils.refl (p : Peer) : p.Veils p where
  name := rfl
  link := rfl
  listeners := rfl
  sent := rfl
  capabilities := rfl
  replies := by
    cases p.replies with
    | none => exact .none
    | some r => exact .some ⟨rfl,fun k => List.forall₂_same.mpr fun _ _ => .inl rfl⟩
  connected := rfl

namespace Veils

theorem shown (h : p.Veils p') : p'.shown = p.shown := by
  rw [Peer.shown, Peer.shown, h.link, h.name]

theorem isWriting (h : p.Veils p') : p'.isWriting = p.isWriting := by
  rw [Peer.isWriting, Peer.isWriting, h.link, h.connected]

theorem isReading (h : p.Veils p') : p'.isReading = p.isReading := by
  rw [Peer.isReading, Peer.isReading, h.link]

/-- What only touches the listeners. -/
theorem onListeners (h : p.Veils p') {ls ls' : Listeners} (hl : ls'.veil = ls.veil) :
    { p with listeners := ls }.Veils { p' with listeners := ls' } :=
  ⟨h.name,h.link,hl,h.sent,h.capabilities,h.replies,h.connected⟩

theorem subscribe (h : p.Veils p') :
    p'.subscribe.1 = p.subscribe.1 ∧ p.subscribe.2.Veils p'.subscribe.2 := by
  have hid : p'.listeners.add.1 = p.listeners.add.1 := by
    have h := congrArg Listeners.nextId h.listeners
    exact h
  have hdrops : p'.dropsNew = p.dropsNew := by
    rw [Peer.dropsNew, Peer.dropsNew, h.link, h.connected]
  have hadd : p'.listeners.add.2.veil = p.listeners.add.2.veil := by
    rw [Listeners.veil_add, Listeners.veil_add, h.listeners]
  have hkept : (if p'.dropsNew then p'.listeners.add.2.remove p'.listeners.add.1
        else p'.listeners.add.2).veil =
      (if p.dropsNew then p.listeners.add.2.remove p.listeners.add.1
        else p.listeners.add.2).veil := by
    rw [hdrops, hid]
    split
    · exact congrArg (fun ls : Listeners => ls.remove p.listeners.add.1) hadd
    · exact hadd
  exact ⟨hid,h.onListeners hkept⟩

theorem hangUp (h : p.Veils p') (id : Nat) : (p.hangUp id).Veils (p'.hangUp id) := by
  refine h.onListeners ?_
  have hremove : (p'.listeners.remove id).veil = (p.listeners.remove id).veil :=
    congrArg (fun ls : Listeners => ls.remove id) h.listeners
  refine (Listeners.veil_close ..).trans (Eq.trans ?_ (Listeners.veil_close ..).symm)
  exact congrArg (fun ls : Listeners => ls.close id) hremove

theorem drained (h : p.Veils p') (id : Nat) :
    { p with listeners := p.listeners.drain id }.Veils
      { p' with listeners := p'.listeners.drain id } :=
  h.onListeners (by rw [Listeners.veil_drain, Listeners.veil_drain, h.listeners])

theorem dispatch (h : p.Veils p') {m m' : Message} (hm : m'.veil = m.veil) :
    (p.dispatch m).Veils (p'.dispatch m') :=
  h.onListeners (by rw [Listeners.veil_dispatch, Listeners.veil_dispatch, h.listeners, hm])

theorem disconnect (h : p.Veils p') : p.disconnect.Veils p'.disconnect :=
  ⟨h.name,h.link,congrArg Listeners.clear h.listeners,h.sent,h.capabilities,h.replies,rfl⟩

theorem endReading (h : p.Veils p') : p.endReading.Veils p'.endReading :=
  ⟨h.name,rfl,congrArg Listeners.clear h.listeners,h.sent,h.capabilities,h.replies,h.connected⟩

theorem endWriting (h : p.Veils p') : p.endWriting.Veils p'.endWriting :=
  ⟨h.name,h.link,h.listeners,h.sent,h.capabilities,h.replies,rfl⟩

theorem setCapability (h : p.Veils p') (name : String) (value : Option String) :
    (p.setCapability name value).Veils (p'.setCapability name value) := by
  refine ⟨h.name,h.link,h.listeners,h.sent,?_,h.replies,h.connected⟩
  unfold Peer.setCapability
  rw [h.capabilities]

theorem prepare (h : p.Veils p') {r r' : Option PreparedReplies}
    (hr : Option.Rel PreparedReplies.Reworded r r') :
    { p with replies := r }.Veils { p' with replies := r' } :=
  ⟨h.name,h.link,h.listeners,h.sent,h.capabilities,hr,h.connected⟩

/-- What a message does before it reaches the listeners does not depend on its text. -/
theorem handle (h : p.Veils p') {m m' : Message} (hm : m'.veil = m.veil) :
    Option.Rel Veils (p.handle m) (p'.handle m') := by
  have hcommand := Message.command_of_veil hm
  unfold Peer.handle
  rw [hcommand]
  split
  · next hping =>
    obtain rfl : m' = m := Message.eq_of_veil hm (by rw [hping]; decide)
    unfold Peer.queue
    rw [h.connected]
    split
    · refine .some ⟨h.name,h.link,h.listeners,?_,h.capabilities,h.replies,rfl⟩
      exact congrArg (· ++ [pong m']) h.sent
    · exact .none
  · split
    · next hcap =>
      obtain rfl : m' = m := Message.eq_of_veil hm (by rw [hcap]; decide)
      refine .some ⟨h.name,h.link,h.listeners,h.sent,?_,h.replies,h.connected⟩
      exact congrArg (Capabilities.applyAll · m') h.capabilities
    · exact .some h

/-- The same is sent, and answered but for the texts. -/
theorem send (h : p.Veils p') (command : String) (args : List String) :
    ((∃ cause, (p.send command args).1 = .error cause ∧ (p'.send command args).1 = .error cause) ∨
      ∃ lines lines', (p.send command args).1 = .ok lines ∧ (p'.send command args).1 = .ok lines' ∧
        List.Forall₂ Message.LineReworded lines lines') ∧
    (p.send command args).2.Veils (p'.send command args).2 := by
  have hfailure : p'.sendFailure = p.sendFailure := by rw [sendFailure, sendFailure, h.link]
  have hsent : ∀ ms : List Message, p'.sent ++ ms = p.sent ++ ms := fun ms => by rw [h.sent]
  have hnone : ((∃ cause, (Except.ok [] : Except String (List String)) = .error cause ∧
      (Except.ok [] : Except String (List String)) = .error cause) ∨
      ∃ lines lines', (Except.ok [] : Except String (List String)) = .ok lines ∧
        (Except.ok [] : Except String (List String)) = .ok lines' ∧
        List.Forall₂ Message.LineReworded lines lines') := .inr ⟨[],[],rfl,rfl,.nil⟩
  unfold Peer.send
  rw [h.connected, hfailure]
  split
  · dsimp only
    split
    · have hr := h.replies
      generalize p'.replies = replies' at hr ⊢
      generalize p.replies = replies at hr ⊢
      cases hr with
      | none =>
        exact ⟨hnone,h.name,h.link,h.listeners,hsent _,h.capabilities,.none,rfl⟩
      | @some r r' hr =>
        have hlines : List.Forall₂ Message.LineReworded r.next.1 r'.next.1 := by
          have hsame : { r' with answered := r.answered } = r' := by rw [← hr.answered]
          exact hsame ▸ hr.lines r.answered
        refine ⟨.inr ⟨_,_,rfl,rfl,hlines⟩,h.name,h.link,h.listeners,hsent _,h.capabilities,?_,rfl⟩
        exact .some ⟨congrArg (· + 1) hr.answered,hr.lines⟩
    · exact ⟨hnone,h.name,h.link,h.listeners,hsent _,h.capabilities,h.replies,rfl⟩
  · exact ⟨.inl ⟨_,rfl,rfl⟩,h⟩

end Veils

end Peer

end ChatToken
