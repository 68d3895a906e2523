import ChatToken.Proofs.Network.Alike
import ChatToken.Proofs.Stream.Loop

/-! # Who uses a connection over a stream

Managers and callers do nothing to a connection over a stream but call it. So whatever an act does,
the connection undergoes some calls, and if nothing comes out of the stream it reads on or has
stopped as before.
-/
namespace ChatToken

open Network (Call)

def Network.Call.comesIn : Call → Bool
  | .receive _ | .finishStream => true
  | _ => false

namespace Peer
variable {q q' q'' : Peer}

def Undergoes (q q' : Peer) : Prop := ∃ cs : List Call, q' = cs.foldl undergo q

def Used (q q' : Peer) : Prop :=
  ∃ cs : List Call, (∀ c ∈ cs, c.comesIn = false) ∧ q' = cs.foldl undergo q

theorem Used.refl (q : Peer) : Used q q := ⟨[],by simp,rfl⟩

theorem Used.trans (h : Used q q') (h' : Used q' q'') : Used q q'' := by
  obtain ⟨cs,hcs,rfl⟩ := h
  obtain ⟨cs',hcs',rfl⟩ := h'
  refine ⟨cs ++ cs',?_,List.foldl_append.symm⟩
  intro c hc
  exact (List.mem_append.mp hc).elim (hcs c) (hcs' c)

theorem Used.undergoes (h : Used q q') : Undergoes q q' := by
  obtain ⟨cs,_,h⟩ := h
  exact ⟨cs,h⟩

theorem Undergoes.trans (h : Undergoes q q') (h' : Undergoes q' q'') : Undergoes q q'' := by
  obtain ⟨cs,rfl⟩ := h
  obtain ⟨cs',rfl⟩ := h'
  exact ⟨cs ++ cs',List.foldl_append.symm⟩

/-- What holds through every call holds through all of them. -/
theorem Undergoes.keeps {P : Peer → Prop} (h : Undergoes q q') (hq : P q)
    (hstep : ∀ q c, P q → P (q.undergo c)) : P q' := by
  obtain ⟨cs,rfl⟩ := h
  induction cs generalizing q with
  | nil => exact hq
  | cons c cs ih => exact ih (hstep q c hq)

theorem undergo_link (hp : q.replies = none) {c : Call} (hc : c.comesIn = false) :
    (q.undergo c).link = q.link := by
  cases c with
  | receive | finishStream => cases hc
  | send command args =>
    rw [undergo, send_plain hp]
    split <;> rfl
  | _ => rfl

theorem Used.link (h : Used q q') (hp : q.replies = none) : q'.link = q.link := by
  obtain ⟨cs,hcs,rfl⟩ := h
  induction cs generalizing q with
  | nil => rfl
  | cons c cs ih =>
    obtain ⟨hc,hcs⟩ := List.forall_mem_cons.mp hcs
    have hp' : (q.undergo c).replies = none := by rw [(follows hp c).replies, hp]
    exact (ih hp' hcs).trans (undergo_link hp hc)

end Peer

namespace Network

def Act.told? : Act → Option Nat
  | .event (.deliver p _) | .event (.disconnect p) | .event (.prepare p _)
  | .event (.advertise p _ _) => some p
  | _ => none

/-- From `n` to `n'`, nothing has come out of the stream `p`. -/
structure Uses (p : Nat) (n n' : Network) : Prop where
  streams : n'.Streams p
  used : (n.peer p).Used (n'.peer p)

section
variable {n n' n'' : Network} {p : Nat}

namespace Uses

theorem refl (h : n.Streams p) : Uses p n n := ⟨h,.refl _⟩

theorem trans (h : Uses p n n') (h' : Uses p n' n'') : Uses p n n'' :=
  ⟨h'.streams,h.used.trans h'.used⟩

theorem made (h : n.Streams p) (hlen : n'.peers.length = n.peers.length) (cs : List Call)
    (hcs : ∀ c ∈ cs, c.comesIn = false) (hp : n'.peer p = cs.foldl Peer.undergo (n.peer p)) :
    Uses p n n' := by
  have hu : (n.peer p).Used (n'.peer p) := ⟨cs,hcs,hp⟩
  exact ⟨⟨hlen ▸ h.there,hu.undergoes.keeps h.streaming fun _ c hq => hq.undergo c⟩,hu⟩

theorem same (h : n.Streams p) (hlen : n'.peers.length = n.peers.length)
    (hp : n'.peer p = n.peer p) : Uses p n n' :=
  made h hlen [] (by simp) hp

theorem inner (h : n.Streams p) (hi : Inner n n') : Uses p n n' :=
  same h (congrArg _ hi.peers) (hi.peer p)

theorem then_inner (h : Uses p n n') (hi : Inner n' n'') : Uses p n n'' :=
  h.trans (inner h.streams hi)

theorem only (h : n.Streams p) {q : Nat} (hq : q ≠ p) (hlen : n'.peers.length = n.peers.length)
    (ho : Only q n n') : Uses p n n' :=
  same h hlen (ho.elsewhere p hq)

end Uses

/-! ## Exchanges -/

theorem uses_openExchange (h : n.Streams p) (holder : Holder) (q : Nat) (matcher : Matcher)
    (timeout : Span) : Uses p n (n.openExchange holder q matcher timeout) := by
  have hpeer := n.openExchange_peer holder q matcher timeout p
  split at hpeer
  · next hq =>
    refine .made h (openExchange_length ..) [.subscribe] (by simp [Call.comesIn]) ?_
    rw [hpeer, hq.1]
    rfl
  · exact .same h (openExchange_length ..) hpeer

theorem uses_closeExchange (h : n.Streams p) (holder : Holder) :
    Uses p n (n.closeExchange holder) := by
  cases hx : n.exchanges.get? holder with
  | none =>
    rw [closeExchange_of_none hx]
    exact .refl h
  | some x =>
    have hlen := (n.quiet_closeExchange holder).length
    have hpeer := closeExchange_peer hx p
    split at hpeer
    · next hq =>
      refine .made h hlen [.unsubscribe x.listener, .close x.listener] (by simp [Call.comesIn]) ?_
      rw [hpeer, hq.1]
      rfl
    · exact .same h hlen hpeer

theorem uses_drained (h : n.Streams p) (holder : Holder) (x : Exchange Matcher) :
    Uses p n (n.drained holder x) := by
  have hlen : (n.drained holder x).peers.length = n.peers.length := List.length_modify ..
  have hpeer := n.drained_peer holder x p
  split at hpeer
  · next hq =>
    refine .made h hlen [.read x.listener] (by simp [Call.comesIn]) ?_
    rw [hpeer, hq.1]
    rfl
  · exact .same h hlen hpeer

theorem uses_pollExchange (h : n.Streams p) (holder : Holder) :
    Uses p n (n.pollExchange holder).2 := by
  cases hx : n.exchanges.get? holder with
  | none =>
    have hnone : (n.pollExchange holder).2 = n := by rw [pollExchange, hx]
    rw [hnone]
    exact .refl h
  | some x =>
    have hd := uses_drained h holder x
    rw [pollExchange_eq hx]
    cases (n.looked x).result with
    | none => exact hd
    | some result =>
      have hn := hd.then_inner ((n.drained holder x).inner_note (resultNotices result))
      exact hn.trans (uses_closeExchange hn.streams holder)

theorem uses_pollRequest (h : n.Streams p) (holder : Holder) :
    Uses p n (n.pollRequest holder).2 := by
  have hp := uses_pollExchange h holder
  unfold pollRequest
  rcases hr : n.pollExchange holder with ⟨_ | result,n'⟩ <;> rw [hr] at hp
  · exact hp
  · exact hp.then_inner (inner_note ..)

theorem uses_failRequest (h : n.Streams p) (holder : Holder) (cause : String) :
    Uses p n (n.failRequest holder cause).2 :=
  have hn := Uses.inner h (n.inner_note _)
  hn.trans (uses_closeExchange hn.streams holder)

/-! ## Requests -/

theorem uses_send (h : n.Streams p) (q : Nat) (command : String) (args : List String) :
    Uses p n (n.send q command args).2 := by
  have hlen := (n.outer_send q command args).length
  by_cases hq : q = p
  · subst hq
    exact .made h hlen [.send command args] (by simp [Call.comesIn])
      (call_peer h.there h.streaming (.send command args))
  · exact .only h hq hlen (n.only_send q command args)

theorem uses_openRequest (h : n.Streams p) (holder : Holder) (q : Nat) (service : Option String)
    (timeout : Span) : Uses p n (n.openRequest holder q service timeout).2 :=
  have ho := uses_openExchange h holder q .extjwt timeout
  ho.trans (uses_send ho.streams ..)

theorem uses_startRequest (h : n.Streams p) (c q : Nat) (service : Option String)
    (timeout : Span) : Uses p n (n.startRequest c q service timeout).2 := by
  have ho := uses_openRequest h (.caller c) q service timeout
  unfold startRequest
  rcases hs : n.openRequest (.caller c) q service timeout with ⟨_ | cause | line,n'⟩ <;>
    rw [hs] at ho
  · exact ho.trans (uses_pollRequest ho.streams _)
  · exact ho.trans (uses_failRequest ho.streams _ cause)
  · exact ho.trans (uses_closeExchange ho.streams _)

/-! ## Turns -/

theorem uses_inquire (h : n.Streams p) (ref : LoadRef) : Uses p n (n.inquire ref).2 := by
  have hp := uses_pollRequest h (.load ref)
  unfold inquire
  rcases hr : n.pollRequest (.load ref) with ⟨_ | result,n'⟩ <;> rw [hr] at hp <;> exact hp

theorem uses_ask (h : n.Streams p) (ref : LoadRef) (q : Nat) : Uses p n (n.ask ref q).2 :=
  have ha := Uses.inner h (n.inner_arrive ref q)
  ha.trans (uses_openRequest ha.streams ..)

theorem Worked.uses {ref : LoadRef} {t : LoadTask Nat Token TokenError} {w : Turn}
    (hw : Worked n ref t w n') (h : n.Streams p) : Uses p n n' := by
  have hask := uses_ask h ref t.key
  cases hw with
  | resumed => exact uses_inquire h ref
  | withheld => exact .inner h (inner_arrive ..)
  | sent => exact hask.trans (uses_inquire hask.streams ref)
  | failed cause => exact hask.trans (uses_failRequest hask.streams _ cause)
  | broken => exact hask

theorem uses_dropLoad (h : n.Streams p) (ref : LoadRef) : Uses p n (n.dropLoad ref) :=
  have hc := uses_closeExchange h (.load ref)
  ⟨⟨hc.streams.there,hc.streams.streaming⟩,hc.used⟩

theorem uses_turn (h : n.Streams p) (ref : LoadRef) : Uses p n (n.step (.turn ref)) := by
  let c := n.called ref
  have hc : c.Streams p := ⟨h.there,h.streaming⟩
  have hused : Uses p c (c.runLoad ref) := by
    cases ht : (c.manager ref.manager).loader.tasks.get? ref.load with
    | none =>
      rw [c.runLoad_of_gone ht]
      exact .refl hc
    | some t =>
      have hw := (c.work_worked ref t).uses hc
      rw [c.runLoad_eq ht]
      by_cases hdied : (c.work ref t).1 = .died
      · rw [hdied]
        exact hw.trans (uses_dropLoad hw.streams ref)
      · exact hw.then_inner (inner_record _ ref t.key hdied)
  exact ⟨hused.streams,hused.used⟩

/-! ## Acts -/

/-- Whatever nobody tells the connection and does not come out of its stream is a use of it. -/
theorem act_uses (h : n.Streams p) {a : Act} (ht : a.told? ≠ some p)
    (hr : ∀ r, a ≠ .event (.receive p r)) (hf : a ≠ .event (.finishStream p)) :
    Uses p n (n.act a) := by
  have hlen := n.act_peers_length a
  cases a with
  | event e =>
    cases e with
    | lookup m q => exact .inner h (n.inner_lookup m q)
    | isUnsupported m q => exact .inner h (n.inner_checkMark m q)
    | forget m q => exact .inner h (n.inner_forget m q)
    | observe ref => exact .inner h (n.inner_observe ref)
    | turn ref => exact uses_turn h ref
    | die ref => exact uses_dropLoad h ref
    | listen c q matcher timeout =>
      simp only [act, step]
      split
      · exact .refl h
      · exact uses_openExchange h ..
    | look c => exact uses_pollExchange h _
    | hangUp c => exact uses_closeExchange h _
    | send q command args => exact uses_send h q command args
    | deliver q m => exact .only h (fun hq => ht (congrArg some hq)) hlen (n.only_deliver q m)
    | disconnect q =>
      exact .only h (fun hq => ht (congrArg some hq)) hlen
        ((n.only_onPeer q _).trans (.of_inner (inner_wakeAll ..)))
    | receive q r =>
      have hq : q ≠ p := fun hq => hr r (hq ▸ rfl)
      exact .only h hq hlen (n.only_receive q r)
    | finishStream q =>
      have hq : q ≠ p := fun hq => hf (hq ▸ rfl)
      refine .only h hq hlen ?_
      simp only [act, step, finishStream]
      split
      · exact n.only_endStream q
      · exact .refl q n
    | failWriting q reason =>
      by_cases hq : q = p
      · subst hq
        refine .made h hlen [.failWriting reason] (by simp [Call.comesIn]) ?_
        exact call_peer h.there h.streaming (.failWriting reason)
      · refine .only h hq hlen ?_
        simp only [act, step, failWriting]
        split
        · exact (n.only_onPeer q _).trans (.of_inner (inner_note ..))
        · exact .refl q n
    | prepare q replies =>
      exact .only h (fun hq => ht (congrArg some hq)) hlen (n.only_onPeer q _)
    | advertise q name value =>
      exact .only h (fun hq => ht (congrArg some hq)) hlen (n.only_onPeer q _)
    | pass nanos => exact .same h hlen rfl
    | sound => exact .same h hlen ((inner_wakeAll ..).peer p)
  | request c q service timeout =>
    simp only [act]
    split
    · exact .refl h
    · exact uses_startRequest h c q service timeout
  | lookRequest c => exact uses_pollRequest h _

/-- Whatever an act does to a connection over a stream, the connection undergoes some calls. -/
theorem act_undergoes (h : n.Streams p) {a : Act} (ht : a.told? ≠ some p) :
    (n.act a).Streams p ∧ (n.peer p).Undergoes ((n.act a).peer p) := by
  have one : ∀ c : Call, n.act a = n.call p c →
      (n.act a).Streams p ∧ (n.peer p).Undergoes ((n.act a).peer p) := by
    intro c hc
    rw [hc]
    exact ⟨h.call c,[c],call_peer h.there h.streaming c⟩
  by_cases hr : ∃ r, a = .event (.receive p r)
  · obtain ⟨r,rfl⟩ := hr
    exact one (.receive r) rfl
  by_cases hf : a = .event (.finishStream p)
  · subst hf
    exact one .finishStream rfl
  have hu := act_uses h ht (fun r he => hr ⟨r,he⟩) hf
  exact ⟨hu.streams,hu.used.undergoes⟩

theorem play_undergoes (h : n.Streams p) {as : List Act} (ht : ∀ a ∈ as, a.told? ≠ some p) :
    (n.play as).Streams p ∧ (n.peer p).Undergoes ((n.play as).peer p) := by
  induction as generalizing n with
  | nil => exact ⟨h,[],rfl⟩
  | cons a as ih =>
    obtain ⟨ha,has⟩ := List.forall_mem_cons.mp ht
    obtain ⟨hs,hu⟩ := act_undergoes h ha
    obtain ⟨hs',hu'⟩ := ih hs has
    exact ⟨hs',hu.trans hu'⟩

end

end Network
end ChatToken
