import ChatToken.Proofs.Network.Exchanges
import ChatToken.Proofs.Network.Veil

/-! # Token texts stay secret

Two networks that are the same but for the texts of tokens stay so, whatever happens to both, as
long as only texts are different in what comes in. What is reported and what is answered is then the
same but for the texts, and no log event of the token library and no metric holds one.
-/
namespace ChatToken

/-! ## Side by side -/

section
variable {α β : Type} {R : α → β → Prop} {l : List α} {l' : List β}

theorem forall₂_modify (h : List.Forall₂ R l l') {f : α → α} {g : β → β}
    (hf : ∀ a b, R a b → R (f a) (g b)) (i : Nat) :
    List.Forall₂ R (l.modify i f) (l'.modify i g) := by
  induction h generalizing i with
  | nil => simp
  | cons ha hl ih =>
    cases i with
    | zero => exact .cons (hf _ _ ha) hl
    | succ i => exact .cons ha (ih i)

theorem forall₂_getD (h : List.Forall₂ R l l') {a : α} {b : β} (hd : R a b) (i : Nat) :
    R (l.getD i a) (l'.getD i b) := by
  induction h generalizing i with
  | nil => exact hd
  | cons ha hl ih =>
    cases i with
    | zero => exact ha
    | succ i => exact ih i

theorem filterMap_of_map {γ δ : Type} {g : α → γ} {g' : β → γ} {f : α → Option δ}
    {f' : β → Option δ} (h : l'.map g' = l.map g) (hf : ∀ a b, g' b = g a → f' b = f a) :
    l'.filterMap f' = l.filterMap f := by
  induction l generalizing l' with
  | nil =>
    obtain rfl : l' = [] := List.map_eq_nil_iff.mp h
    rfl
  | cons a l ih =>
    obtain _ | ⟨b,l'⟩ := l'
    · cases h
    obtain ⟨hb,hl⟩ := List.cons.inj h
    rw [List.filterMap_cons, List.filterMap_cons, hf a b hb, ih hl]

theorem result_cases {ε : Type} {f : α → β} {r r' : Except ε α} (h : r'.map f = r.map f) :
    (∃ e, r = .error e ∧ r' = .error e) ∨ ∃ a a', r = .ok a ∧ r' = .ok a' ∧ f a' = f a := by
  cases r with
  | error e =>
    cases r' with
    | error e' => exact .inl ⟨e,rfl,congrArg _ (Except.error.inj h)⟩
    | ok a' => cases h
  | ok a =>
    cases r' with
    | error e' => cases h
    | ok a' => exact .inr ⟨a,a',rfl,rfl,Except.ok.inj h⟩

theorem option_cases {f : α → β} {o o' : Option α} (h : o'.map f = o.map f) :
    (o = none ∧ o' = none) ∨ ∃ a a', o = some a ∧ o' = some a' ∧ f a' = f a := by
  cases o with
  | none => exact .inl ⟨rfl,Option.map_eq_none_iff.mp h⟩
  | some a =>
    cases o' with
    | none => cases h
    | some a' => exact .inr ⟨a,a',rfl,rfl,Option.some.inj h⟩

end

/-! ## Tokens and managers -/

theorem Token.size_of_veil {t t' : Token} (h : t'.veil = t.veil) : t'.size = t.size :=
  Text.veil_eq_veil.mp (congrArg Token.value h)

theorem Token.ofPayload_veil {now : Nat} {s s' : String} (h : Text.veil s' = Text.veil s) :
    (ofPayload now s').map veil = (ofPayload now s).map veil := by
  have hempty : s'.isEmpty = s.isEmpty := by
    rw [String.isEmpty, String.isEmpty, Text.veil_eq_veil.mp h]
  unfold ofPayload
  rw [hempty]
  split
  · rfl
  · simp only [Except.map, veil, h]

/-- Exchanges that are the same but for their texts listen to the same connection. -/
theorem Exchange.same_of_veil {x x' : Exchange Matcher} (hx : x'.veil = x.veil) :
    x'.peer = x.peer ∧ x'.listener = x.listener ∧ x'.since = x.since := by
  have hp := congrArg Exchange.peer hx
  have hl := congrArg Exchange.listener hx
  have hs := congrArg Exchange.since hx
  exact ⟨hp,hl,hs⟩

/-- What a request comes back with, from what its exchange does. -/
theorem bind_ofPayload_veil {now : Nat} {r r' : Except TokenError String}
    (h : r'.map Text.veil = r.map Text.veil) :
    (r'.bind (Token.ofPayload now)).map Token.veil =
      (r.bind (Token.ofPayload now)).map Token.veil := by
  obtain ⟨e,rfl,rfl⟩ | ⟨s,s',rfl,rfl,hs⟩ := result_cases h
  · rfl
  · exact Token.ofPayload_veil hs

theorem Ending.outcome_map (e : Ending Token TokenError) :
    (e.map Token.veil).outcome = Outcome.veil e.outcome := by
  cases e with
  | failed e => cases e <;> rfl
  | _ => rfl

namespace Manager

def veil (g : Manager) : Manager := { g with loader := g.loader.map Token.veil }

theorem staleness_veil (c : TokenConfig) (now : Nat) (t : Token) :
    staleness c now t.veil = staleness c now t := rfl

end Manager

def Notice.isOwn : Notice → Bool
  | .lineReceived _ _ => false
  | _ => true

namespace Network

/-- Two networks that are the same but for the texts of tokens. -/
structure Veils (n n' : Network) : Prop where
  now : n'.now = n.now
  sounded : n'.sounded = n.sounded
  peers : List.Forall₂ Peer.Veils n.peers n'.peers
  managers : List.Forall₂ (fun g g' => g'.veil = g.veil) n.managers n'.managers
  exchanges : n'.exchanges.mapValues (fun _ => Exchange.veil) =
    n.exchanges.mapValues fun _ => Exchange.veil
  ready : n'.ready = n.ready
  tickets : n'.tickets = n.tickets
  knownLost : n'.knownLost = n.knownLost
  notices : n'.notices.filter Notice.isOwn = n.notices.filter Notice.isOwn

namespace Veils

variable {n n' : Network}

theorem refl (n : Network) : n.Veils n :=
  ⟨rfl,rfl,List.forall₂_same.mpr fun p _ => .refl p,List.forall₂_same.mpr fun _ _ => rfl,rfl,rfl,
    rfl,rfl,rfl⟩

theorem peer (h : n.Veils n') (p : Nat) : (n.peer p).Veils (n'.peer p) :=
  forall₂_getD h.peers (.refl default) p

theorem manager (h : n.Veils n') (m : Nat) : (n'.manager m).veil = (n.manager m).veil :=
  forall₂_getD h.managers rfl m

theorem config (h : n.Veils n') (m : Nat) : (n'.manager m).config = (n.manager m).config := by
  have h := congrArg Manager.config (h.manager m)
  exact h

theorem marks (h : n.Veils n') (m : Nat) : (n'.manager m).marks = (n.manager m).marks := by
  have h := congrArg Manager.marks (h.manager m)
  exact h

theorem loader (h : n.Veils n') (m : Nat) :
    (n'.manager m).loader.map Token.veil = (n.manager m).loader.map Token.veil :=
  congrArg Manager.loader (h.manager m)

theorem exchange (h : n.Veils n') (hd : Holder) :
    (n'.exchanges.get? hd).map Exchange.veil = (n.exchanges.get? hd).map Exchange.veil := by
  have he := congrArg (·.get? hd) h.exchanges
  simpa only [Table.get?_mapValues] using he

theorem contains (h : n.Veils n') (hd : Holder) :
    n'.exchanges.contains hd = n.exchanges.contains hd := by
  have hs := congrArg Option.isSome (h.exchange hd)
  rw [Option.isSome_map, Option.isSome_map] at hs
  exact hs

/-! ### Pieces of a step -/

theorem note (h : n.Veils n') {notices notices' : List Notice}
    (hs : notices'.filter Notice.isOwn = notices.filter Notice.isOwn) :
    (n.note notices).Veils (n'.note notices') :=
  { h with
    notices := by
      simp only [Network.note, List.filter_append]
      rw [h.notices, hs] }

theorem report (h : n.Veils n') (notices : List Notice) :
    (n.note notices).Veils (n'.note notices) := h.note rfl

theorem onPeer (h : n.Veils n') {f f' : Peer → Peer}
    (hf : ∀ p p', p.Veils p' → (f p).Veils (f' p')) (p : Nat) :
    (n.onPeer p f).Veils (n'.onPeer p f') :=
  { h with peers := forall₂_modify h.peers hf p }

theorem onManager (h : n.Veils n') {f f' : Manager → Manager}
    (hf : ∀ g g' : Manager, g'.veil = g.veil → (f' g').veil = (f g).veil) (m : Nat) :
    (n.onManager m f).Veils (n'.onManager m f') :=
  { h with managers := forall₂_modify h.managers hf m }

theorem wake (h : n.Veils n') (ref : LoadRef) : (n.wake ref).Veils (n'.wake ref) := by
  unfold Network.wake
  rw [h.ready]
  split
  · exact h
  · exact { h with ready := rfl }

theorem wakeAll (h : n.Veils n') (refs : List LoadRef) :
    (n.wakeAll refs).Veils (n'.wakeAll refs) := by
  induction refs generalizing n n' with
  | nil => exact h
  | cons ref refs ih => exact ih (h.wake ref)

/-- Two networks have the same exchanges, with the same listeners, and the same timers. -/
theorem entries (h : n.Veils n') :
    n'.exchanges.entries.map (fun e => (e.1, e.2.veil)) =
      n.exchanges.entries.map fun e => (e.1, e.2.veil) := congrArg Table.entries h.exchanges

theorem loadsListening (h : n.Veils n') (p : Nat) : n'.loadsListening p = n.loadsListening p := by
  have hregistered : ∀ id, (n'.peer p).listeners.isRegistered id =
      (n.peer p).listeners.isRegistered id := by
    intro id
    have hl := congrArg (·.isRegistered id) (h.peer p).listeners
    exact hl
  refine filterMap_of_map h.entries ?_
  rintro ⟨hd,x⟩ ⟨hd',x'⟩ he
  obtain ⟨rfl,hx⟩ := Prod.mk.inj he
  obtain ⟨hp,hl,_⟩ := Exchange.same_of_veil hx
  cases hd' with
  | load ref =>
    dsimp only
    rw [hp, hl, hregistered]
  | caller c => rfl

theorem timers (h : n.Veils n') : n'.timers = n.timers := by
  refine filterMap_of_map h.entries ?_
  rintro ⟨hd,x⟩ ⟨hd',x'⟩ he
  obtain ⟨rfl,hx⟩ := Prod.mk.inj he
  have ht := congrArg Exchange.timer hx
  exact congrArg (Option.map (·, hd')) ht

/-! ### Messages -/

theorem deliver (h : n.Veils n') (p : Nat) {m m' : Message} (hm : m'.veil = m.veil) :
    (n.deliver p m).Veils (n'.deliver p m') := by
  unfold Network.deliver
  rw [h.loadsListening]
  exact (h.onPeer (fun _ _ hp => hp.dispatch hm) p).wakeAll _

theorem deliverLines (h : n.Veils n') (p : Nat) {lines lines' : List String}
    (hl : List.Forall₂ Message.LineReworded lines lines') :
    (n'.deliverLines p lines').1 = (n.deliverLines p lines).1 ∧
    (n.deliverLines p lines).2.Veils (n'.deliverLines p lines').2 := by
  induction hl generalizing n n' with
  | nil => exact ⟨rfl,h⟩
  | @cons line line' lines lines' hline hl ih =>
    unfold Network.deliverLines
    obtain rfl | ⟨m,m',hp,hp',hm⟩ := hline
    · cases Message.parse? line' with
      | none => exact ⟨rfl,h⟩
      | some m => exact ih (h.deliver p rfl)
    · rw [hp, hp']
      exact ih (h.deliver p hm.veil)

theorem disconnect (h : n.Veils n') (p : Nat) : (n.disconnect p).Veils (n'.disconnect p) := by
  unfold Network.disconnect
  rw [h.loadsListening]
  exact (h.onPeer (fun _ _ hp => hp.disconnect) p).wakeAll _

theorem endStream (h : n.Veils n') (p : Nat) : (n.endStream p).Veils (n'.endStream p) := by
  unfold Network.endStream
  rw [h.loadsListening]
  exact ((h.onPeer (fun _ _ hp => hp.endReading) p).report _).wakeAll _

theorem finishStream (h : n.Veils n') (p : Nat) :
    (n.finishStream p).Veils (n'.finishStream p) := by
  unfold Network.finishStream
  rw [(h.peer p).isReading]
  split
  · exact h.endStream p
  · exact h

theorem failWriting (h : n.Veils n') (p : Nat) (reason : String) :
    (n.failWriting p reason).Veils (n'.failWriting p reason) := by
  unfold Network.failWriting
  rw [(h.peer p).isWriting]
  split
  · exact (h.onPeer (fun _ _ hp => hp.endWriting) p).report _
  · exact h

theorem sendNotices (h : n.Veils n') (p : Nat) (m : Message) :
    n'.sendNotices p m = n.sendNotices p m := by
  unfold Network.sendNotices
  rw [(h.peer p).link]

theorem accept (h : n.Veils n') (p : Nat) {m m' : Message} (hm : m'.veil = m.veil) :
    (n.accept p m).Veils (n'.accept p m') := by
  have hping : (if m.command = "PING" then n.note (n.sendNotices p (Peer.pong m)) else n).Veils
      (if m'.command = "PING" then n'.note (n'.sendNotices p (Peer.pong m')) else n') := by
    rw [Message.command_of_veil hm]
    split
    · next hc =>
      -- The answer to a ping quotes it, but a ping carries no token text.
      obtain rfl : m' = m := Message.eq_of_veil hm (by rw [hc]; decide)
      rw [h.sendNotices]
      exact h.report _
    · exact h
  unfold Network.accept
  generalize (if m.command = "PING" then n.note (n.sendNotices p (Peer.pong m)) else n) = k at hping ⊢
  generalize (if m'.command = "PING" then n'.note (n'.sendNotices p (Peer.pong m')) else n') = k'
    at hping ⊢
  have hhandle := (hping.peer p).handle hm
  dsimp only
  generalize (k.peer p).handle m = r at hhandle ⊢
  generalize (k'.peer p).handle m' = r' at hhandle ⊢
  cases hhandle with
  | none => exact hping.endStream p
  | some hc => exact (hping.onPeer (fun _ _ _ => hc) p).deliver p hm

theorem receive (h : n.Veils n') (p : Nat) {line line' : String}
    (hl : Message.LineReworded line line') :
    (n.receive p (.line line)).Veils (n'.receive p (.line line')) := by
  have hn : (n.note [.lineReceived p line]).Veils (n'.note [.lineReceived p line']) := h.note rfl
  unfold Network.receive
  rw [(h.peer p).isReading]
  split
  · dsimp only
    obtain rfl | ⟨m,m',hp,hp',hm⟩ := hl
    · cases Message.parse? line' with
      | none => exact hn
      | some m => exact hn.accept p rfl
    · rw [hp, hp']
      exact hn.accept p hm.veil
  · exact h

theorem fail (h : n.Veils n') (p : Nat) (reason : String) :
    (n.receive p (.failed reason)).Veils (n'.receive p (.failed reason)) := by
  unfold Network.receive
  rw [(h.peer p).isReading]
  split
  · exact (h.report _).endStream p
  · exact h

theorem send (h : n.Veils n') (p : Nat) (command : String) (args : List String) :
    (n'.send p command args).1 = (n.send p command args).1 ∧
    (n.send p command args).2.Veils (n'.send p command args).2 := by
  have hn := h.report (n.sendNotices p (Message.of command args))
  rw [← h.sendNotices] at hn
  obtain ⟨hanswer,hpeer⟩ := (hn.peer p).send command args
  rw [h.sendNotices] at hn hanswer hpeer
  unfold Network.send
  dsimp only
  rw [h.sendNotices]
  generalize (n.note (n.sendNotices p (Message.of command args))) = k at hn hanswer hpeer ⊢
  generalize (n'.note (n.sendNotices p (Message.of command args))) = k' at hn hanswer hpeer ⊢
  generalize (k.peer p).send command args = r at hanswer hpeer ⊢
  generalize (k'.peer p).send command args = r' at hanswer hpeer ⊢
  obtain ⟨answer,changed⟩ := r
  obtain ⟨answer',changed'⟩ := r'
  have hp : (k.onPeer p fun _ => changed).Veils (k'.onPeer p fun _ => changed') :=
    hn.onPeer (fun _ _ _ => hpeer) p
  obtain ⟨cause,rfl,rfl⟩ | ⟨lines,lines',rfl,rfl,hl⟩ := hanswer
  · exact ⟨rfl,hp⟩
  · obtain ⟨hfirst,hd⟩ := hp.deliverLines p hl
    dsimp only
    generalize Network.deliverLines _ p lines = r at hfirst hd ⊢
    generalize Network.deliverLines _ p lines' = r' at hfirst hd ⊢
    obtain ⟨broken,k⟩ := r
    obtain ⟨broken',k'⟩ := r'
    obtain rfl : broken' = broken := hfirst
    cases broken' <;> exact ⟨rfl,hd⟩

/-! ### Exchanges -/

theorem openExchange (h : n.Veils n') (hd : Holder) (p : Nat) (matcher : Matcher)
    (timeout : Span) :
    (n.openExchange hd p matcher timeout).Veils (n'.openExchange hd p matcher timeout) := by
  obtain ⟨hid,hc⟩ := (h.peer p).subscribe
  have hp : (n.onPeer p fun _ => (n.peer p).subscribe.2).Veils
      (n'.onPeer p fun _ => (n'.peer p).subscribe.2) := h.onPeer (fun _ _ _ => hc) p
  refine { hp with exchanges := ?_ }
  simp only [Network.openExchange, Exchange.listen, Table.mapValues_insert]
  rw [h.exchanges, hid, h.now]

theorem closeExchange (h : n.Veils n') (hd : Holder) :
    (n.closeExchange hd).Veils (n'.closeExchange hd) := by
  unfold Network.closeExchange
  obtain ⟨hx,hx'⟩ | ⟨x,x',hx,hx',hv⟩ := option_cases (h.exchange hd)
  · rw [hx, hx']
    exact h
  · obtain ⟨hp,hl,_⟩ := Exchange.same_of_veil hv
    rw [hx, hx']
    dsimp only
    rw [hp, hl]
    have hc := (h.onPeer (fun _ _ hp => hp.hangUp x.listener) x.peer).report
      [.listenerRemoved x.peer x.listener]
    refine { hc with exchanges := ?_ }
    simp only [Table.mapValues_erase, h.exchanges]

theorem looked (h : n.Veils n') {x x' : Exchange Matcher} (hv : x'.veil = x.veil) :
    (n.looked x).Veils (n'.looked x') := by
  obtain ⟨hp,hl,_⟩ := Exchange.same_of_veil hv
  have hpeer := (h.peer x.peer).listeners
  have hunread : ((n'.peer x.peer).listeners.unread x.listener).map Message.veil =
      ((n.peer x.peer).listeners.unread x.listener).map Message.veil := by
    rw [← Listeners.unread_veil, ← Listeners.unread_veil, hpeer]
  have hopen : (n'.peer x.peer).listeners.isRegistered x.listener =
      (n.peer x.peer).listeners.isRegistered x.listener := by
    have hl := congrArg (·.isRegistered x.listener) hpeer
    exact hl
  have hr := Exchange.poll_veil hv hunread n.now n.sounded n.tickets
    ((n.peer x.peer).listeners.isRegistered x.listener)
  unfold Network.looked Exchange.look
  dsimp only
  rw [hp, hl, h.now, h.sounded, h.tickets, hopen]
  exact hr

theorem drained (h : n.Veils n') (hd : Holder) {x x' : Exchange Matcher}
    (hv : x'.veil = x.veil) : (n.drained hd x).Veils (n'.drained hd x') := by
  obtain ⟨hp,hl,_⟩ := Exchange.same_of_veil hv
  have hr := h.looked hv
  -- Of a piece only the size is reported.
  have hpieces : (n'.looked x').pieces.map (fun piece => Notice.pieceReceived piece.utf8ByteSize) =
      (n.looked x).pieces.map fun piece => Notice.pieceReceived piece.utf8ByteSize := by
    have hp := congrArg (List.map Notice.pieceReceived) hr.pieces
    simpa only [List.map_map, Function.comp_def] using hp
  unfold Network.drained
  dsimp only
  rw [hpieces, hp, hl, h.tickets]
  have hread := (h.report ((n.looked x).pieces.map fun piece =>
    .pieceReceived piece.utf8ByteSize)).onPeer
      (fun _ _ _ => (h.peer x.peer).drained x.listener) x.peer
  refine { hread with exchanges := ?_, tickets := rfl }
  have hadjust : ∀ (t : Table Holder (Exchange Matcher)) (y : Exchange Matcher),
      (t.adjust hd fun _ => y).mapValues (fun _ => Exchange.veil) =
        (t.mapValues fun _ => Exchange.veil).adjust hd fun _ => y.veil :=
    fun t y => t.mapValues_adjust hd fun _ => rfl
  rw [hadjust, hadjust, h.exchanges, hr.exchange]

theorem resultNotices_veil {r r' : Except TokenError String}
    (h : r'.map Text.veil = r.map Text.veil) :
    resultNotices r' = resultNotices r := by
  obtain ⟨e,rfl,rfl⟩ | ⟨s,s',rfl,rfl,_⟩ := result_cases h <;> rfl

theorem pollExchange (h : n.Veils n') (hd : Holder) :
    (n'.pollExchange hd).1.map (·.map Text.veil) = (n.pollExchange hd).1.map (·.map Text.veil) ∧
    (n.pollExchange hd).2.Veils (n'.pollExchange hd).2 := by
  obtain ⟨hx,hx'⟩ | ⟨x,x',hx,hx',hv⟩ := option_cases (h.exchange hd)
  · unfold Network.pollExchange
    rw [hx, hx']
    exact ⟨rfl,h⟩
  · have hr := (h.looked hv).result
    have hdrained := h.drained hd hv
    rw [pollExchange_eq hx, pollExchange_eq hx']
    refine ⟨hr,?_⟩
    obtain ⟨hn,hn'⟩ | ⟨r,r',hn,hn',hresult⟩ := option_cases hr
    · rw [hn, hn']
      exact hdrained
    · rw [hn, hn']
      dsimp only
      rw [resultNotices_veil hresult]
      exact (hdrained.report _).closeExchange hd

/-! ### Requests -/

theorem openRequest (h : n.Veils n') (hd : Holder) (p : Nat) (service : Option String)
    (timeout : Span) :
    (n'.openRequest hd p service timeout).1 = (n.openRequest hd p service timeout).1 ∧
    (n.openRequest hd p service timeout).2.Veils (n'.openRequest hd p service timeout).2 :=
  (h.openExchange hd p .extjwt timeout).send p Reply.extjwt (Reply.anyTarget :: service.toList)

theorem noteRequest (h : n.Veils n') (since : Nat) {r r' : Except TokenError Token}
    (hr : r'.map Token.veil = r.map Token.veil) :
    (n.noteRequest since r).Veils (n'.noteRequest since r') := by
  have hstatus : statusOf r' = statusOf r := by
    obtain ⟨e,rfl,rfl⟩ | ⟨t,t',rfl,rfl,_⟩ := result_cases hr <;> rfl
  unfold Network.noteRequest
  rw [hstatus, h.now]
  exact h.report _

theorem failRequest (h : n.Veils n') (hd : Holder) (cause : String) :
    (n.failRequest hd cause).2.Veils (n'.failRequest hd cause).2 := by
  unfold Network.failRequest
  dsimp only
  rw [h.now]
  exact (h.noteRequest n.now rfl).closeExchange hd

theorem pollRequest (h : n.Veils n') (hd : Holder) :
    (n'.pollRequest hd).1.map (·.map Token.veil) = (n.pollRequest hd).1.map (·.map Token.veil) ∧
    (n.pollRequest hd).2.Veils (n'.pollRequest hd).2 := by
  have hsince : ((n'.exchanges.get? hd).map (·.since)).getD n'.now =
      ((n.exchanges.get? hd).map (·.since)).getD n.now := by
    obtain ⟨hx,hx'⟩ | ⟨x,x',hx,hx',hv⟩ := option_cases (h.exchange hd)
    · rw [hx, hx', h.now]
    · rw [hx, hx']
      exact (Exchange.same_of_veil hv).2.2
  obtain ⟨hr,hn⟩ := h.pollExchange hd
  unfold Network.pollRequest
  dsimp only
  rw [hsince]
  generalize ((n.exchanges.get? hd).map (·.since)).getD n.now = since
  generalize Network.pollExchange n hd = r at hr hn ⊢
  generalize Network.pollExchange n' hd = r' at hr hn ⊢
  obtain ⟨result,k⟩ := r
  obtain ⟨result',k'⟩ := r'
  obtain ⟨rfl,rfl⟩ | ⟨a,a',rfl,rfl,ha⟩ := option_cases hr
  · exact ⟨rfl,hn⟩
  · have hbound : (a'.bind (Token.ofPayload k.now)).map Token.veil =
        (a.bind (Token.ofPayload k.now)).map Token.veil := bind_ofPayload_veil ha
    dsimp only at hn ⊢
    rw [hn.now]
    exact ⟨congrArg some hbound,hn.noteRequest since hbound⟩

theorem startRequest (h : n.Veils n') (c p : Nat) (service : Option String) (timeout : Span) :
    (n'.startRequest c p service timeout).1.map (·.map Token.veil) =
      (n.startRequest c p service timeout).1.map (·.map Token.veil) ∧
    (n.startRequest c p service timeout).2.Veils (n'.startRequest c p service timeout).2 := by
  obtain ⟨hr,hn⟩ := h.openRequest (.caller c) p service timeout
  unfold Network.startRequest
  generalize Network.openRequest n (.caller c) p service timeout = r at hr hn ⊢
  generalize Network.openRequest n' (.caller c) p service timeout = r' at hr hn ⊢
  obtain ⟨result,k⟩ := r
  obtain ⟨result',k'⟩ := r'
  obtain rfl : result' = result := hr
  cases result' with
  | sent => exact hn.pollRequest (.caller c)
  | failed cause => exact ⟨rfl,hn.failRequest (.caller c) cause⟩
  | broken line => exact ⟨rfl,hn.closeExchange (.caller c)⟩

/-! ### Loads -/

theorem onMarks (h : n.Veils n') (f : Marks Nat → Marks Nat) (m : Nat) :
    (n.onManager m fun g => { g with marks := f g.marks }).Veils
      (n'.onManager m fun g => { g with marks := f g.marks }) :=
  h.onManager (fun _ _ hg => congrArg (fun g : Manager => { g with marks := f g.marks }) hg) m

theorem checkMark (h : n.Veils n') (m p : Nat) :
    (n'.checkMark m p).1 = (n.checkMark m p).1 ∧
    (n.checkMark m p).2.Veils (n'.checkMark m p).2 := by
  have hn := h.onMarks (·.refresh n.now p) m
  unfold Network.checkMark
  rw [h.marks, h.now]
  cases (n.manager m).marks.standing n.now p with
  | marked => exact ⟨rfl,hn⟩
  | unmarked => exact ⟨rfl,hn⟩
  | expired => exact ⟨rfl,hn.report _⟩

theorem markPeer (h : n.Veils n') (m p : Nat) : (n.markPeer m p).Veils (n'.markPeer m p) := by
  have hn := h.onMarks (·.mark n.now p) m
  unfold Network.markPeer
  dsimp only
  rw [h.now, hn.marks]
  exact hn.report _

/-- Puts loaders that are the same but for the texts into managers that are. -/
theorem onLoader (h : n.Veils n') (m : Nat) {l l' : Loader Nat Token TokenError}
    (hl : l'.map Token.veil = l.map Token.veil) :
    (n.onManager m fun g => { g with loader := l }).Veils
      (n'.onManager m fun g => { g with loader := l' }) := by
  refine h.onManager (fun g g' hg => ?_) m
  have hm := congrArg (fun g : Manager => { g with loader := l.map Token.veil }) hg
  unfold Manager.veil
  rw [hl]
  exact hm

theorem finishLoad (h : n.Veils n') (ref : LoadRef) {r r' : Except TokenError Token}
    (hr : r'.map Token.veil = r.map Token.veil) :
    (n.finishLoad ref r).Veils (n'.finishLoad ref r') := by
  have hfresh := Manager.staleness_veil (n.manager ref.manager).config n.now
  have hn := (n.manager ref.manager).loader.map_finish hfresh ref.load r
  have hn' := (n'.manager ref.manager).loader.map_finish hfresh ref.load r'
  rw [h.loader, hr] at hn'
  obtain ⟨hl,hs⟩ := Prod.mk.inj (hn'.symm.trans hn)
  unfold Network.finishLoad
  dsimp only
  rw [h.config, h.now, hs]
  exact (h.onLoader ref.manager hl).report _

theorem concludeLoad (h : n.Veils n') (ref : LoadRef) (p : Nat) {r r' : Except TokenError Token}
    (hr : r'.map Token.veil = r.map Token.veil) :
    (n.concludeLoad ref p r).Veils (n'.concludeLoad ref p r') := by
  unfold Network.concludeLoad
  obtain ⟨e,rfl,rfl⟩ | ⟨t,t',rfl,rfl,ht⟩ := result_cases hr
  · cases e with
    | unsupported command => exact ((h.report _).markPeer ref.manager p).finishLoad ref rfl
    | _ => exact (h.report _).finishLoad ref rfl
  · dsimp only
    rw [Token.size_of_veil ht]
    exact (h.report _).finishLoad ref hr

theorem dropLoad (h : n.Veils n') (ref : LoadRef) : (n.dropLoad ref).Veils (n'.dropLoad ref) := by
  have hc := h.closeExchange (.load ref)
  have habandon : ∀ g g' : Manager, g'.veil = g.veil →
      ({ g' with loader := g'.loader.abandon ref.load } : Manager).veil =
        ({ g with loader := g.loader.abandon ref.load } : Manager).veil := by
    intro g g' hg
    have hm := congrArg (fun g : Manager => { g with loader := g.loader.abandon ref.load }) hg
    unfold Manager.veil at hm ⊢
    dsimp only at hm ⊢
    rwa [Loader.map_abandon, Loader.map_abandon] at hm
  have hn := hc.onManager habandon ref.manager
  exact { hn with ready := congrArg (List.filter (· != ref)) hn.ready }

theorem continueLoad (h : n.Veils n') (ref : LoadRef) (p : Nat) :
    (n.continueLoad ref p).Veils (n'.continueLoad ref p) := by
  obtain ⟨hr,hn⟩ := h.pollRequest (.load ref)
  unfold Network.continueLoad
  generalize Network.pollRequest n (.load ref) = r at hr hn ⊢
  generalize Network.pollRequest n' (.load ref) = r' at hr hn ⊢
  obtain ⟨result,k⟩ := r
  obtain ⟨result',k'⟩ := r'
  obtain ⟨rfl,rfl⟩ | ⟨a,a',rfl,rfl,ha⟩ := option_cases hr
  · exact hn
  · exact hn.concludeLoad ref p ha

theorem beginLoad (h : n.Veils n') (ref : LoadRef) (p : Nat) :
    (n.beginLoad ref p).Veils (n'.beginLoad ref p) := by
  have hb := (n.manager ref.manager).loader.map_begin (f := Token.veil) ref.load
  have hb' := (n'.manager ref.manager).loader.map_begin (f := Token.veil) ref.load
  rw [h.loader] at hb'
  obtain ⟨hl,hs⟩ := Prod.mk.inj (hb'.symm.trans hb)
  obtain ⟨hmark,hk⟩ := ((h.onLoader ref.manager hl).report
    (((n.manager ref.manager).loader.begin ref.load).2.map .loader)).checkMark ref.manager p
  unfold Network.beginLoad
  dsimp only
  rw [hs, h.config]
  generalize Network.checkMark _ ref.manager p = r' at hmark hk ⊢
  generalize Network.checkMark _ ref.manager p = r at hmark hk ⊢
  obtain ⟨marked,k⟩ := r
  obtain ⟨marked',k'⟩ := r'
  obtain rfl : marked' = marked := hmark
  cases marked' with
  | true => exact (hk.report _).finishLoad ref rfl
  | false =>
    obtain ⟨hsent,ho⟩ := hk.openRequest (.load ref) p (n.manager ref.manager).config.service
      (n.manager ref.manager).config.requestTimeout
    dsimp only at hsent ho ⊢
    generalize Network.openRequest k _ _ _ _ = r at hsent ho ⊢
    generalize Network.openRequest k' _ _ _ _ = r' at hsent ho ⊢
    obtain ⟨sending,k⟩ := r
    obtain ⟨sending',k'⟩ := r'
    obtain rfl : sending' = sending := hsent
    cases sending' with
    | sent => exact ho.continueLoad ref p
    | failed cause => exact (ho.failRequest (.load ref) cause).concludeLoad ref p rfl
    | broken line => exact ho.dropLoad ref

theorem runLoad (h : n.Veils n') (ref : LoadRef) : (n.runLoad ref).Veils (n'.runLoad ref) := by
  have htask : ((n'.manager ref.manager).loader.tasks.get? ref.load).map (LoadTask.map Token.veil) =
      ((n.manager ref.manager).loader.tasks.get? ref.load).map (LoadTask.map Token.veil) := by
    rw [← Loader.map_task, ← Loader.map_task, h.loader]
  unfold Network.runLoad
  obtain ⟨ht,ht'⟩ | ⟨t,t',ht,ht',hv⟩ := option_cases htask
  · rw [ht, ht']
    exact h
  · have hkey : t'.key = t.key := by
      have hk := congrArg LoadTask.key hv
      exact hk
    have hbegun : t'.begun = t.begun := by
      rw [← LoadTask.begun_map Token.veil t', hv, LoadTask.begun_map]
    rw [ht, ht']
    dsimp only
    rw [hkey, hbegun]
    split
    · exact h.continueLoad ref t.key
    · exact h.beginLoad ref t.key

/-! ### Callers -/

theorem lookup (h : n.Veils n') (m p : Nat) :
    (n'.lookup m p).1.veil = (n.lookup m p).1.veil ∧
    (n.lookup m p).2.Veils (n'.lookup m p).2 := by
  obtain ⟨hmark,hk⟩ := h.checkMark m p
  unfold Network.lookup
  generalize Network.checkMark n m p = r at hmark hk ⊢
  generalize Network.checkMark n' m p = r' at hmark hk ⊢
  obtain ⟨marked,k⟩ := r
  obtain ⟨marked',k'⟩ := r'
  obtain rfl : marked' = marked := hmark
  cases marked' with
  | true => exact ⟨rfl,hk.report _⟩
  | false =>
    dsimp only at hk ⊢
    -- Whether a token is stale can be told from its age alone.
    have hfresh := Manager.staleness_veil (k.manager m).config k.now
    have hl := (k.manager m).loader.map_lookup hfresh true p
    have hl' := (k'.manager m).loader.map_lookup hfresh true p
    rw [hk.loader] at hl'
    obtain ⟨ha,hrest⟩ := Prod.mk.inj (hl'.symm.trans hl)
    obtain ⟨hmap,hs⟩ := Prod.mk.inj hrest
    have hnext : (k'.manager m).loader.nextLoad = (k.manager m).loader.nextLoad := by
      have hn := congrArg Loader.nextLoad (hk.loader m)
      exact hn
    rw [hk.config, hk.now, hs, hnext]
    have hnoted := (hk.onLoader m hmap).report
      (((k.manager m).loader.lookup (Manager.staleness (k.manager m).config k.now) true p).2.2.map
        .loader)
    generalize Loader.lookup (k.manager m).loader _ true p = r at ha hnoted ⊢
    generalize Loader.lookup (k'.manager m).loader _ true p = r' at ha hnoted ⊢
    obtain ⟨answer,l,notices⟩ := r
    obtain ⟨answer',l',notices'⟩ := r'
    dsimp only at ha hnoted ⊢
    cases answer with
    | cached t =>
      cases answer' with
      | cached t' => exact ⟨congrArg TokenLookup.ready (Lookup.cached.inj ha),hnoted⟩
      | _ => cases ha
    | loading id =>
      cases answer' with
      | loading id' =>
        obtain rfl : id' = id := Lookup.loading.inj ha
        refine ⟨rfl,?_⟩
        by_cases hid : id' = (k.manager m).loader.nextLoad
        · simp only [if_pos hid]
          exact hnoted.wake _
        · simp only [if_neg hid]
          exact hnoted
      | _ => cases ha
    | refused =>
      cases answer' with
      | refused => exact ⟨rfl,hnoted⟩
      | _ => cases ha

theorem forget (h : n.Veils n') (m p : Nat) : (n.forget m p).Veils (n'.forget m p) := by
  have hcache : ((n'.manager m).loader.cache.get? p).isSome =
      ((n.manager m).loader.cache.get? p).isSome := by
    have hc := congrArg (fun l : Loader Nat Token TokenError => (l.cache.get? p).isSome) (h.loader m)
    simpa only [Loader.map, Table.get?_mapValues, Option.isSome_map] using hc
  have hevict : ((n'.manager m).loader.evict p).map Token.veil =
      ((n.manager m).loader.evict p).map Token.veil := by
    rw [← Loader.map_evict, ← Loader.map_evict, h.loader]
  have hg : ({ n'.manager m with
        loader := (n'.manager m).loader.evict p
        marks := (n'.manager m).marks.remove p } : Manager).veil =
      ({ n.manager m with
        loader := (n.manager m).loader.evict p
        marks := (n.manager m).marks.remove p } : Manager).veil := by
    unfold Manager.veil
    dsimp only
    rw [h.config, h.marks, hevict]
  unfold Network.forget Loader.invalidate
  dsimp only
  rw [hcache, h.marks] at *
  exact (h.onManager (fun _ _ _ => hg) m).report _

theorem observe (h : n.Veils n') (ref : LoadRef) :
    (n'.observe ref).1.map Outcome.veil = (n.observe ref).1.map Outcome.veil ∧
    (n.observe ref).2.Veils (n'.observe ref).2 := by
  have hending : ((n'.manager ref.manager).loader.ending? ref.load).map (Ending.map Token.veil) =
      ((n.manager ref.manager).loader.ending? ref.load).map (Ending.map Token.veil) := by
    rw [← Loader.map_ending?, ← Loader.map_ending?, h.loader]
  unfold Network.observe
  obtain ⟨he,he'⟩ | ⟨e,e',he,he',hv⟩ := option_cases hending
  · rw [he, he']
    exact ⟨rfl,h⟩
  · have houtcome := congrArg Ending.outcome hv
    rw [Ending.outcome_map, Ending.outcome_map] at houtcome
    rw [he, he']
    cases e with
    | lost =>
      cases e' with
      | lost =>
        refine ⟨rfl,?_⟩
        dsimp only
        rw [h.knownLost]
        split
        · exact h
        · exact { h.report [.loadLost] with knownLost := rfl }
      | _ => cases hv
    | loaded t =>
      cases e' with
      | loaded t' => exact ⟨congrArg some houtcome,h⟩
      | _ => cases hv
    | failed e =>
      cases e' with
      | failed e' => exact ⟨congrArg some houtcome,h⟩
      | _ => cases hv

theorem soundTimers (h : n.Veils n') : n.soundTimers.Veils n'.soundTimers := by
  unfold Network.soundTimers
  have hs : Network.Veils { n with sounded := Clock.tick n.now }
      { n' with sounded := Clock.tick n'.now } :=
    { h with sounded := congrArg Clock.tick h.now }
  have hgoing : Timer.goingOff (Clock.tick n'.now)
        ({ n' with sounded := Clock.tick n'.now } : Network).timers =
      Timer.goingOff (Clock.tick n.now)
        ({ n with sounded := Clock.tick n.now } : Network).timers := by
    rw [hs.timers, h.now]
  dsimp only
  rw [hgoing]
  exact hs.wakeAll _

/-- Whatever happens, two networks that are the same but for the texts of tokens stay so. -/
theorem step (h : n.Veils n') {e e' : Event} (he : e.Reworded e') :
    (n.step e).Veils (n'.step e') := by
  cases he with
  | deliver p hm => exact h.deliver p hm.veil
  | receive p hl => exact h.receive p hl
  | prepare p hr => exact h.onPeer (fun _ _ hp => hp.prepare (.some hr)) p
  | same =>
    cases e with
    | lookup m p => exact (h.lookup m p).2
    | isUnsupported m p => exact (h.checkMark m p).2
    | forget m p => exact h.forget m p
    | observe ref => exact (h.observe ref).2
    | turn ref =>
      have hcalled : (n.called ref).Veils (n'.called ref) :=
        { h with ready := congrArg (List.erase · ref) h.ready }
      exact hcalled.runLoad ref
    | die ref => exact h.dropLoad ref
    | listen c p matcher timeout =>
      rw [Network.step, Network.step, h.contains]
      split
      · exact h
      · exact h.openExchange (.caller c) p matcher timeout
    | look c => exact (h.pollExchange (.caller c)).2
    | hangUp c => exact h.closeExchange (.caller c)
    | send p command args => exact (h.send p command args).2
    | deliver p m => exact h.deliver p rfl
    | disconnect p => exact h.disconnect p
    | receive p r =>
      cases r with
      | line line => exact h.receive p (.inl rfl)
      | failed reason => exact h.fail p reason
    | finishStream p => exact h.finishStream p
    | failWriting p reason => exact h.failWriting p reason
    | prepare p replies =>
      exact h.onPeer (fun _ _ hp => hp.prepare (Peer.Veils.refl { name := "", replies }).replies) p
    | advertise p name value => exact h.onPeer (fun _ _ hp => hp.setCapability name value) p
    | pass nanos => exact { h with now := congrArg (· + nanos) h.now }
    | sound => exact h.soundTimers

theorem act (h : n.Veils n') (a : Act) : (n.act a).Veils (n'.act a) := by
  cases a with
  | event e => exact h.step (.same e)
  | request c p service timeout =>
    rw [Network.act, Network.act, h.contains]
    split
    · exact h
    · exact (h.startRequest c p service timeout).2
  | lookRequest c => exact (h.pollRequest (.caller c)).2

end Veils

end Network

end ChatToken
