import ChatToken.Proofs.Network.Delivery
import ChatToken.Proofs.Network.Rewording

/-! # What gets reported

Whatever happens, what was reported stays, and more may come behind it. A line that comes in is
quoted once, when it is read; nothing else that happens quotes a line.
-/
namespace ChatToken.Network

def Adds (n n' : Network) : Prop :=
  ∃ own : List Notice, n'.notices = n.notices ++ own ∧ ∀ x ∈ own, x.isOwn = true

variable {n n' n'' : Network}

theorem adds_of_eq (h : n'.notices = n.notices) : n.Adds n' :=
  ⟨[],by rw [h, List.append_nil],by simp⟩

namespace Adds

theorem refl (n : Network) : n.Adds n := adds_of_eq rfl

theorem trans (h : n.Adds n') (h' : n'.Adds n'') : n.Adds n'' := by
  obtain ⟨own,he,hown⟩ := h
  obtain ⟨own',he',hown'⟩ := h'
  refine ⟨own ++ own',?_,?_⟩
  · rw [he', he, List.append_assoc]
  · intro x hx
    rcases List.mem_append.mp hx with hx | hx
    · exact hown x hx
    · exact hown' x hx

end Adds

section
variable (n : Network)

theorem adds_note {notices : List Notice} (h : ∀ x ∈ notices, x.isOwn = true) :
    n.Adds (n.note notices) := ⟨notices,rfl,h⟩

theorem adds_one {x : Notice} (h : x.isOwn = true) : n.Adds (n.note [x]) := by
  apply adds_note
  intro y hy
  rw [List.mem_singleton] at hy
  rw [hy, h]

theorem adds_loader (notices : List (LoaderNotice Nat TokenError)) :
    n.Adds (n.note (notices.map .loader)) := by
  apply adds_note
  intro x hx
  obtain ⟨notice,_,rfl⟩ := List.mem_map.mp hx
  rfl

/-! ## Messages -/

theorem wake_notices (ref : LoadRef) : (n.wake ref).notices = n.notices := by
  unfold wake
  split <;> rfl

theorem wakeAll_notices (refs : List LoadRef) : (n.wakeAll refs).notices = n.notices := by
  induction refs generalizing n with
  | nil => rfl
  | cons ref refs ih => exact (ih (n.wake ref)).trans (n.wake_notices ref)

theorem deliver_notices (p : Nat) (m : Message) : (n.deliver p m).notices = n.notices :=
  wakeAll_notices ..

theorem deliverLines_notices (p : Nat) (lines : List String) :
    (n.deliverLines p lines).2.notices = n.notices := by
  induction lines generalizing n with
  | nil => rfl
  | cons line lines ih =>
    unfold deliverLines
    cases Message.parse? line with
    | none => rfl
    | some m => exact (ih (n.deliver p m)).trans (n.deliver_notices p m)

theorem adds_disconnect (p : Nat) : n.Adds (n.disconnect p) := adds_of_eq (wakeAll_notices ..)

theorem adds_endStream (p : Nat) : n.Adds (n.endStream p) := by
  have hnote : (n.onPeer p Peer.endReading).Adds
      ((n.onPeer p Peer.endReading).note [.streamEnded p]) := adds_one _ rfl
  exact hnote.trans (adds_of_eq (wakeAll_notices ..))

theorem adds_finishStream (p : Nat) : n.Adds (n.finishStream p) := by
  unfold finishStream
  split
  · exact n.adds_endStream p
  · exact .refl n

theorem adds_failWriting (p : Nat) (reason : String) : n.Adds (n.failWriting p reason) := by
  unfold failWriting
  split
  · exact (n.onPeer p Peer.endWriting).adds_one rfl
  · exact .refl n

theorem adds_sendNotices (p : Nat) (m : Message) : n.Adds (n.note (n.sendNotices p m)) := by
  apply adds_note
  unfold sendNotices
  split
  · simp
  · simp [Notice.isOwn]

theorem adds_accept (p : Nat) (m : Message) : n.Adds (n.accept p m) := by
  have hping : n.Adds
      (if m.command = "PING" then n.note (n.sendNotices p (Peer.pong m)) else n) := by
    split
    · exact n.adds_sendNotices p _
    · exact .refl n
  unfold accept
  dsimp only
  split
  · exact hping.trans (adds_of_eq (deliver_notices ..))
  · exact hping.trans (adds_endStream ..)

theorem adds_fail (p : Nat) (reason : String) : n.Adds (n.receive p (.failed reason)) := by
  unfold receive
  split
  · exact (n.adds_one rfl).trans (adds_endStream ..)
  · exact .refl n

theorem adds_send (p : Nat) (command : String) (args : List String) :
    n.Adds (n.send p command args).2 := by
  rw [send_eq]
  have hnote := n.adds_sendNotices p (Message.of command args)
  split
  · exact hnote
  · exact hnote.trans (adds_of_eq (deliverLines_notices ..))

/-! ## Exchanges and requests -/

theorem adds_openExchange (h : Holder) (p : Nat) (matcher : Matcher) (timeout : Span) :
    n.Adds (n.openExchange h p matcher timeout) := adds_of_eq rfl

theorem adds_closeExchange (h : Holder) : n.Adds (n.closeExchange h) := by
  unfold closeExchange
  split
  · exact .refl n
  · next x _ => exact (n.onPeer x.peer fun q => q.hangUp x.listener).adds_one rfl

theorem adds_pollExchange (h : Holder) : n.Adds (n.pollExchange h).2 := by
  cases hx : n.exchanges.get? h with
  | none =>
    unfold pollExchange
    rw [hx]
    exact .refl n
  | some x =>
    have hdrained : n.Adds (n.drained h x) := by
      apply adds_note
      intro notice hn
      obtain ⟨piece,_,rfl⟩ := List.mem_map.mp hn
      rfl
    rw [pollExchange_eq hx]
    split
    · exact hdrained
    · next result _ =>
      have hresult : (n.drained h x).Adds ((n.drained h x).note (resultNotices result)) := by
        apply adds_note
        intro notice hn
        unfold resultNotices at hn
        split at hn
        · rw [List.mem_singleton.mp hn]
          rfl
        · cases hn
      exact hdrained.trans (hresult.trans (adds_closeExchange ..))

theorem adds_openRequest (h : Holder) (p : Nat) (service : Option String) (timeout : Span) :
    n.Adds (n.openRequest h p service timeout).2 :=
  (n.adds_openExchange h p .extjwt timeout).trans (adds_send ..)

theorem adds_openRegistration (h : Holder) (p : Nat) (nick : String) (timeout : Span) :
    n.Adds (n.openRegistration h p nick timeout).2 := by
  have hopen := n.adds_openExchange h p .registration timeout
  unfold openRegistration
  dsimp only
  generalize n.openExchange h p .registration timeout = k at hopen ⊢
  have hsend := hopen.trans (k.adds_send p "NICK" [nick])
  split
  · next he =>
    rw [he] at hsend
    exact hsend.trans (adds_send ..)
  · exact hsend

theorem adds_failRequest (h : Holder) (cause : String) : n.Adds (n.failRequest h cause).2 :=
  (n.adds_one rfl).trans (adds_closeExchange ..)

theorem adds_pollRequest (h : Holder) : n.Adds (n.pollRequest h).2 := by
  have hpoll := n.adds_pollExchange h
  unfold pollRequest
  dsimp only
  split
  · next he => rwa [he] at hpoll
  · next he =>
    rw [he] at hpoll
    exact hpoll.trans (adds_one _ rfl)

theorem adds_startRequest (c p : Nat) (service : Option String) (timeout : Span) :
    n.Adds (n.startRequest c p service timeout).2 := by
  have hopen := n.adds_openRequest (.caller c) p service timeout
  unfold startRequest
  split
  · next he =>
    rw [he] at hopen
    exact hopen.trans (adds_pollRequest ..)
  · next he =>
    rw [he] at hopen
    exact hopen.trans (adds_failRequest ..)
  · next he =>
    rw [he] at hopen
    exact hopen.trans (adds_closeExchange ..)

/-! ## Loads -/

theorem adds_checkMark (m p : Nat) : n.Adds (n.checkMark m p).2 := by
  unfold checkMark
  cases (n.manager m).marks.standing n.now p with
  | marked => exact adds_of_eq rfl
  | unmarked => exact adds_of_eq rfl
  | expired => exact (n.onManager m _).adds_one rfl

theorem adds_finishLoad (ref : LoadRef) (result : Except TokenError Token) :
    n.Adds (n.finishLoad ref result) :=
  (n.onManager ref.manager _).adds_loader _

theorem adds_concludeLoad (ref : LoadRef) (p : Nat) (result : Except TokenError Token) :
    n.Adds (n.concludeLoad ref p result) := by
  unfold concludeLoad
  refine .trans ?_ (adds_finishLoad ..)
  rcases result with e | t
  · cases e with
    | unsupported command => exact (n.adds_one rfl).trans (adds_one _ rfl)
    | _ => exact n.adds_one rfl
  · exact n.adds_one rfl

theorem adds_dropLoad (ref : LoadRef) : n.Adds (n.dropLoad ref) :=
  (n.adds_closeExchange (.load ref)).trans (adds_of_eq rfl)

theorem adds_continueLoad (ref : LoadRef) (p : Nat) : n.Adds (n.continueLoad ref p) := by
  have hpoll := n.adds_pollRequest (.load ref)
  unfold continueLoad
  split
  · next he => rwa [he] at hpoll
  · next he =>
    rw [he] at hpoll
    exact hpoll.trans (adds_concludeLoad ..)

theorem adds_beginLoad (ref : LoadRef) (p : Nat) : n.Adds (n.beginLoad ref p) := by
  unfold beginLoad
  dsimp only
  generalize hk : (n.onManager ref.manager fun g =>
    { g with loader := ((n.manager ref.manager).loader.begin ref.load).1 }).note
      (((n.manager ref.manager).loader.begin ref.load).2.map .loader) = k
  have hbegun : n.Adds k := hk ▸ (n.onManager ref.manager _).adds_loader _
  have hmark := hbegun.trans (k.adds_checkMark ref.manager p)
  split
  · next he =>
    rw [he] at hmark
    exact hmark.trans ((adds_one _ rfl).trans (adds_finishLoad ..))
  · next k' he =>
    rw [he] at hmark
    have hopen := hmark.trans (k'.adds_openRequest (.load ref) p
      (n.manager ref.manager).config.service (n.manager ref.manager).config.requestTimeout)
    split
    · next hs =>
      rw [hs] at hopen
      exact hopen.trans (adds_continueLoad ..)
    · next hs =>
      rw [hs] at hopen
      exact hopen.trans ((adds_failRequest ..).trans (adds_concludeLoad ..))
    · next hs =>
      rw [hs] at hopen
      exact hopen.trans (adds_dropLoad ..)

theorem adds_runLoad (ref : LoadRef) : n.Adds (n.runLoad ref) := by
  unfold runLoad
  split
  · exact .refl n
  · split
    · exact n.adds_continueLoad ..
    · exact n.adds_beginLoad ..

/-! ## Callers -/

theorem adds_lookup (m p : Nat) : n.Adds (n.lookup m p).2 := by
  have hmark := n.adds_checkMark m p
  unfold lookup
  split
  · next he =>
    rw [he] at hmark
    exact hmark.trans (adds_one _ rfl)
  · next k he =>
    rw [he] at hmark
    have hlookup := hmark.trans ((k.onManager m fun g => { g with
      loader := ((k.manager m).loader.lookup
        (Manager.staleness (k.manager m).config k.now) true p).2.1 }).adds_loader
          ((k.manager m).loader.lookup (Manager.staleness (k.manager m).config k.now) true p).2.2)
    dsimp only
    split
    · exact hlookup
    · refine hlookup.trans ?_
      split
      · exact adds_of_eq (wake_notices ..)
      · exact .refl _
    · exact hlookup

theorem adds_forget (m p : Nat) : n.Adds (n.forget m p) := (n.onManager m _).adds_one rfl

theorem adds_observe (ref : LoadRef) : n.Adds (n.observe ref).2 := by
  unfold observe
  split
  · exact .refl n
  · dsimp only
    split
    · exact .refl n
    · exact n.adds_one rfl
  · exact .refl n

theorem adds_soundTimers : n.Adds n.soundTimers := adds_of_eq (wakeAll_notices ..)

/-- Where a line is read, it is quoted first. -/
theorem adds_receive {p : Nat} (h : (n.peer p).isReading = true) (line : String) :
    (n.note [.lineReceived p line]).Adds (n.receive p (.line line)) := by
  unfold receive
  rw [if_pos h]
  dsimp only
  split
  · exact adds_accept ..
  · exact .refl _

/-- No other event quotes a line. -/
theorem adds_step {e : Event} (h : ∀ p line, e ≠ .receive p (.line line)) : n.Adds (n.step e) := by
  cases e with
  | lookup m p => exact n.adds_lookup m p
  | isUnsupported m p => exact n.adds_checkMark m p
  | forget m p => exact n.adds_forget m p
  | observe ref => exact n.adds_observe ref
  | turn ref => exact (n.called ref).adds_runLoad ref
  | die ref => exact n.adds_dropLoad ref
  | listen c p matcher timeout =>
    rw [step]
    split
    · exact .refl n
    · exact n.adds_openExchange (.caller c) p matcher timeout
  | look c => exact n.adds_pollExchange (.caller c)
  | hangUp c => exact n.adds_closeExchange (.caller c)
  | send p command args => exact n.adds_send p command args
  | deliver p m => exact adds_of_eq (n.deliver_notices p m)
  | disconnect p => exact n.adds_disconnect p
  | receive p r =>
    cases r with
    | line line => exact absurd rfl (h p line)
    | failed reason => exact n.adds_fail p reason
  | finishStream p => exact n.adds_finishStream p
  | failWriting p reason => exact n.adds_failWriting p reason
  | prepare p replies => exact adds_of_eq rfl
  | advertise p name value => exact adds_of_eq rfl
  | pass nanos => exact adds_of_eq rfl
  | sound => exact n.adds_soundTimers

theorem adds_act {a : Act} (h : ∀ p line, a ≠ .event (.receive p (.line line))) :
    n.Adds (n.act a) := by
  cases a with
  | event e =>
    apply n.adds_step
    rintro p line rfl
    exact h p line rfl
  | request c p service timeout =>
    rw [act]
    split
    · exact .refl n
    · exact n.adds_startRequest c p service timeout
  | lookRequest c => exact n.adds_pollRequest (.caller c)

end

end ChatToken.Network
