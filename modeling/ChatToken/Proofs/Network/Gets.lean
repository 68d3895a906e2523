import ChatToken.Proofs.Network.Reassembly
import ChatToken.Proofs.Network.Settling
import ChatToken.Proofs.Network.Tokens
import ChatToken.Scenario.Gets

/-! # How often a peer is asked

Whoever gets the token of a peer at regular intervals gets the same one until it is too old. Only then
the peer is asked again, so the number of requests depends on how many intervals fit into the age up
to which tokens are handed out.
-/
namespace ChatToken

namespace Peer

section
variable {q q' : Peer} {command : String} {args lines : List String} {text : Nat → String}

theorem connected_of_send (h : (q.send command args).1 = .ok lines) : q.connected = true := by
  by_contra hc
  simp [send, hc] at h

theorem behindRequests_sent (h : q.AnswersWith args text) (k : Nat) :
    (q.behindRequests args k).sent =
      q.sent ++ List.replicate k (Message.of Reply.extjwt args) := by
  induction k with
  | zero => exact (List.append_nil _).symm
  | succ k ih =>
    obtain ⟨lines,_,_,hsend,_⟩ := h k
    rw [behindRequests, send_sent, if_pos (connected_of_send hsend), ih, List.append_assoc,
      List.replicate_succ']

/-- Prepared answers stay prepared. -/
theorem behindRequests_replies {r : PreparedReplies} (hc : q.connected = true)
    (hr : q.replies = some r) (k : Nat) :
    (q.behindRequests args k).connected = true ∧
    (q.behindRequests args k).replies = some { r with answered := r.answered + k } := by
  induction k with
  | zero => exact ⟨hc,hr⟩
  | succ k ih =>
    have hm : (Message.of Reply.extjwt args).command = Reply.extjwt := rfl
    simp [behindRequests, send, ih.1, ih.2, hm, PreparedReplies.next, Nat.add_assoc]

/-- A connection that writes the number of the request into its answer. -/
theorem answersWith_numbers (hc : q.connected = true)
    (hr : q.replies = some ⟨[["EXTJWT * files t\x7bn\x7d"]],0⟩) :
    q.AnswersWith args fun k => "t" ++ String.ofList (Nat.toDigits 10 (k + 1)) := by
  intro k
  obtain ⟨hck,hrk⟩ := @behindRequests_replies q args _ hc hr k
  let last := "t" ++ String.ofList (Nat.toDigits 10 (k + 1))
  let r := Response.ofPieces "files" [] last
  have hlast : last.toList = 't' :: Nat.toDigits 10 (k + 1) := by simp [last]
  have hplain : ∀ ch ∈ last.toList, ch ≠ ' ' ∧ Message.isLineEnd ch = false := by
    intro ch hch
    rw [hlast] at hch
    rcases List.mem_cons.mp hch with rfl | hch
    · decide
    · have hdigit := Nat.isDigit_of_mem_toDigits (by decide) (by decide) hch
      refine ⟨?_,Bool.eq_false_iff.mpr ?_⟩
      · rintro rfl
        cases hdigit
      · intro hend
        rcases (by simpa [Message.isLineEnd] using hend : ch = '\r' ∨ ch = '\n') with rfl | rfl <;>
          cases hdigit
  have hwritable : r.last.Writable :=
    @Response.writable_of_pieces "files" [] last
      (by decide +kernel) (by simpa using fun ch hch => (hplain ch hch).2) r.last
      (by simp [r, Response.messages]) none (by simp)
  have hline : String.ofList (PreparedReplies.fillNumber (k + 1)
      "EXTJWT * files t\x7bn\x7d".toList) = r.last.text := by
    have hcolon : Message.needsColon last.toList = false := by
      have hspace : ' ' ∉ last.toList := fun hmem => (hplain _ hmem).1 rfl
      rw [hlast] at hspace ⊢
      simpa [Message.needsColon] using hspace
    have hparams : Message.renderParams [['*'], "files".toList, last.toList] =
        " * files ".toList ++ last.toList := by
      simp [Message.renderParams, hcolon]
    have hrender : r.last.render = "EXTJWT".toList ++
        Message.renderParams [['*'], "files".toList, last.toList] := by
      have hcommand : r.last.command = "EXTJWT" := rfl
      rw [Message.render, hcommand]
      rfl
    rw [Message.text, hrender, hparams, hlast]
    simp [PreparedReplies.fillNumber]
  refine ⟨[r.last.text],[r.last],r,?_,?_,?_,?_,?_⟩
  · have hm : (Message.of Reply.extjwt args).command = Reply.extjwt := rfl
    have hreply : ([["EXTJWT * files t\x7bn\x7d"]][k]? <|>
        [["EXTJWT * files t\x7bn\x7d"]].getLast?).getD [] = ["EXTJWT * files t\x7bn\x7d"] := by
      cases k <;> rfl
    simp only [send, hck, hm, hrk, if_true, PreparedReplies.next, Nat.zero_add, Nat.add_sub_cancel,
      hreply, List.map_cons, List.map_nil, hline]
  · rw [List.map_cons, Message.parse_text hwritable]
    rfl
  · rfl
  · exact Response.payload_of_pieces.trans (by simp [last])
  · simp

end

end Peer

namespace Network

section
variable {n n' : Network} {ref r : LoadRef} {m p q : Nat}

/-! ## A request that is answered at once -/

section
variable {command : String} {args lines : List String} {ms : List Message}

theorem messages_of_parsed (h : lines.map Message.parse? = ms.map some) : messages lines = ms := by
  induction lines generalizing ms with
  | nil =>
    cases ms with
    | nil => rfl
    | cons => cases h
  | cons line lines ih =>
    cases ms with
    | nil => cases h
    | cons first ms =>
      rw [List.map_cons, List.map_cons, List.cons.injEq] at h
      simp only [messages, h.1, ih h.2]

theorem deliverLines_of_parsed (n : Network) (p : Nat)
    (h : lines.map Message.parse? = ms.map some) : (n.deliverLines p lines).1 = none := by
  induction lines generalizing n ms with
  | nil => rfl
  | cons line lines ih =>
    cases ms with
    | nil => cases h
    | cons first ms =>
      rw [List.map_cons, List.map_cons, List.cons.injEq] at h
      simp only [deliverLines, h.1]
      exact ih _ h.2

theorem send_of_answered (hsend : ((n.peer p).send command args).1 = .ok lines)
    (h : lines.map Message.parse? = ms.map some) : (n.send p command args).1 = .sent := by
  unfold send
  simp only [note_peer]
  rcases hs : (n.peer p).send command args with ⟨_ | lines',changed⟩ <;> rw [hs] at hsend <;>
    cases hsend
  have hd := deliverLines_of_parsed
    ((n.note (n.sendNotices p (Message.of command args))).onPeer p fun _ => changed) p h
  dsimp only
  split
  · rfl
  · next he =>
    rw [he] at hd
    cases hd

/-- The connection `p` answers a request for the manager `m` at once, with the response `text`. -/
def AnswersAtOnce (n : Network) (m p : Nat) (text : String) : Prop :=
  ∃ (lines : List String) (ms : List Message),
    ((n.peer p).send Reply.extjwt (Reply.anyTarget :: (n.manager m).config.service.toList)).1 =
      .ok lines ∧
    lines.map Message.parse? = ms.map some ∧
    Verdict.response (ms.map Reply.classify) = some (.ok text) ∧ text ≠ ""

variable {text : String}

/-- A request that is answered at once is sent, and the response waits for its exchange. -/
theorem brings_ask (ho : n.Owned) (hno : n.exchanges.get? (.load ref) = none)
    (hp : p < n.peers.length) (ha : n.AnswersAtOnce ref.manager p text) :
    (n.ask ref p).1 = .sent ∧ (n.ask ref p).2.Brings (n.opened ref p) (.ok text) := by
  obtain ⟨lines,ms,hsend,hlines,hr,_⟩ := ha
  have hi := n.inner_arrive ref p
  have hface := ((n.arrive ref p).2.quiet_openExchange (.load ref) p .extjwt
    (n.manager ref.manager).config.requestTimeout).face p
  rw [hi.peer] at hface
  have hsent : (n.ask ref p).1 = .sent :=
    send_of_answered ((Peer.send_congr hface _ _).1.trans hsend) hlines
  have hlistens : (n.opened ref p).listener ∈ (n.ask ref p).2.registered p := by
    have hbegan := began_openRequest (ho.inner hi) (by rwa [hi.exchanges]) p
      (n.manager ref.manager).config.service (n.manager ref.manager).config.requestTimeout
    have hnew := hbegan.registered p
    rw [if_pos ⟨rfl,by rwa [hi.peers],dropsNew_of_sent hsent⟩] at hnew
    rw [opened, ← hi.peer, ← hi.now]
    exact hnew ▸ List.mem_append_right _ (List.mem_singleton.mpr rfl)
  have hfollows := @ask_follows n ref p ho.tidy hp
  rw [answers, hsend] at hfollows
  rw [← messages_of_parsed hlines] at hr
  exact ⟨hsent,hfollows.brings hlistens hr⟩

/-- A turn in which a request is answered at once ends the load. -/
theorem ends_of_answered (h : n.Regular) (hasks : n.asks? ref = some p)
    (hp : p < n.peers.length) (ha : n.AnswersAtOnce ref.manager p text) :
    n.Ends (.turn ref) ref (.loaded ⟨text,n.now⟩) := by
  obtain ⟨t,ht,hb,rfl⟩ := (asks?_eq_some h.orderly).mp hasks
  let c := n.called ref
  have hgoes := (arrive_of_sound (n := c) (h.orderly _) ht).1
  obtain ⟨hsent,hbrings⟩ := brings_ask (n := c) (h.owned.inner (n.inner_called ref))
    (h.sane.no_request ht hb) hp ha
  have hpoll : ((c.ask ref t.key).2.pollRequest (.load ref)).1 = some (.ok ⟨text,n.now⟩) := by
    have hnow : (c.ask ref t.key).2.now = n.now :=
      (c.outer_ask ref t.key).now.trans (c.inner_arrive ref t.key).now
    obtain ⟨_,_,_,_,_,hne⟩ := ha
    rw [pollRequest_result (ask_exchange c ref t.key), hbrings.result rfl, hnow]
    simp [Except.bind, Token.ofPayload, hne]
  have hwork : (c.work ref t).1 = .ended (.ok ⟨text,n.now⟩) := by
    unfold work
    rw [hb, hgoes]
    rcases hs : c.ask ref t.key with ⟨_ | cause | line,n'⟩ <;> rw [hs] at hsent hpoll <;>
      cases hsent
    simp only [Bool.false_eq_true, if_false]
    unfold inquire
    rcases hq : n'.pollRequest (.load ref) with ⟨_ | result,n''⟩ <;> rw [hq] at hpoll <;>
      cases hpoll
    rfl
  have hd := n.deed?_turn ht
  rw [hwork] at hd
  exact ends_of_finish h.orderly hd

end

/-! ## Turns that ask nobody -/

def Event.isWork : Event → Bool
  | .turn _ | .observe _ | .pass _ | .sound => true
  | _ => false

theorem isWork_turns (refs : List LoadRef) : ∀ e ∈ refs.map Event.turn, e.isWork = true := by
  intro e he
  obtain ⟨ref,_,rfl⟩ := List.mem_map.mp he
  rfl

/-- Work starts no new loads, and who has had a turn has run. -/
theorem unbegun_work (h : n.Regular) {e : Event} (he : e.isWork = true)
    (hr : (n.step e).unbegun r = true) : n.unbegun r = true ∧ e ≠ .turn r := by
  by_cases hturn : e = .turn r
  · subst hturn
    exact absurd rfl (turn_unbegun h hr).1
  · have hdie : e ≠ .die r := by
      rintro rfl
      cases he
    obtain ⟨t,ht,hb⟩ := unbegun_iff.mp hr
    rcases task_before h.orderly ht hturn hdie with ht | ⟨rfl,_⟩
    · exact ⟨unbegun_iff.mpr ⟨t,ht,hb⟩,hturn⟩
    · cases he

/-- Nobody is asked but in the first turn of a task. -/
theorem face_work (hn : n.Orderly) {e : Event} (he : e.isWork = true)
    (hb : ∀ r, n.unbegun r = true → e ≠ .turn r) (q : Nat) :
    ((n.step e).peer q).face = (n.peer q).face := by
  cases e with
  | turn ref =>
    have hno : ¬ (n.called ref).asks? ref = some q := by
      intro hasks
      obtain ⟨t,ht,hbegun,_⟩ := (asks?_eq_some (n := n.called ref) hn).mp hasks
      exact hb ref (unbegun_iff.mpr ⟨t,ht,hbegun⟩) rfl
    exact (runLoad_face (n := n.called ref) hn ref q).trans (if_neg fun h => hno h.1)
  | observe ref => exact (n.inner_observe ref).face q
  | pass nanos => rfl
  | sound =>
    have hs : Inner n { n with sounded := Clock.tick n.now } := ⟨rfl,rfl,rfl,rfl⟩
    exact (hs.trans (inner_wakeAll ..)).face q
  | _ => cases he

/-- Work asks nobody as long as no task has its first turn. -/
theorem after_work (h : n.Regular) {es : List Event} (hes : ∀ e ∈ es, e.isWork = true)
    (hb : ∀ r, n.unbegun r = true → .turn r ∉ es) :
    (∀ q, ((n.after es).peer q).face = (n.peer q).face) ∧
    ∀ r, (n.after es).unbegun r = true → n.unbegun r = true := by
  induction es generalizing n with
  | nil => exact ⟨fun _ => rfl,fun _ hr => hr⟩
  | cons e es ih =>
    have he := hes e List.mem_cons_self
    have hkeep := fun r => @unbegun_work n r h e he
    obtain ⟨hfaces,hbegun⟩ := ih (h.step e) (fun e' he' => hes e' (List.mem_cons_of_mem e he'))
      fun r hr hmem => hb r (hkeep r hr).1 (List.mem_cons_of_mem e hmem)
    refine ⟨fun q => (hfaces q).trans (face_work h.orderly he ?_ q),
      fun r hr => (hkeep r (hbegun r hr)).1⟩
    rintro r hr rfl
    exact hb r hr List.mem_cons_self

theorem turns_now (n : Network) (refs : List LoadRef) : (n.after (refs.map .turn)).now = n.now := by
  induction refs generalizing n with
  | nil => rfl
  | cons ref refs ih => exact (ih _).trans (n.step_steady (.turn ref)).1

theorem ready_turns {refs : List LoadRef} (hr : r ∈ n.ready) (hno : r ∉ refs) :
    r ∈ (n.after (refs.map .turn)).ready := by
  induction refs generalizing n with
  | nil => exact hr
  | cons ref refs ih =>
    rw [List.mem_cons, not_or] at hno
    exact ih (step_ready (by simpa using Ne.symm hno.1) (by simp) hr) hno.2

theorem Timely.after (h : n.Timely) (es : List Event) : (n.after es).Timely := by
  induction es generalizing n with
  | nil => exact h
  | cons e es ih => exact ih (h.act (.event e)).2

theorem settle_eq_after (n : Network) :
    ∃ refs : List LoadRef, n.settle = n.after (refs.map .turn) :=
  n.run_eq_after n.turnBound

/-! ## Networks at rest -/

structure AtRest (n : Network) : Prop where
  regular : n.Regular
  timely : n.Timely
  idle : n.ready = []

theorem atRest_settle (h : n.Regular) (ht : n.Timely) : n.settle.AtRest := by
  have hidle := settle_ready h
  obtain ⟨refs,hs⟩ := n.settle_eq_after
  rw [hs] at hidle ⊢
  exact ⟨h.after _,ht.after _,hidle⟩

theorem AtRest.settle_eq (h : n.AtRest) : n.settle = n := by
  have hrun : ∀ k, n.run k = n := by
    intro k
    cases k with
    | zero => rfl
    | succ k => rw [run, h.idle, List.isEmpty_nil, if_pos rfl]
  exact hrun _

/-- A task that waits for its first turn stands in line. -/
theorem AtRest.begun (h : n.AtRest) (r : LoadRef) : n.unbegun r ≠ true := by
  intro hr
  obtain ⟨t,ht,_⟩ := unbegun_iff.mp hr
  rcases h.regular.attended.waiting r t ht with hready | ⟨x,hx,_⟩
  · rw [h.idle] at hready
    cases hready
  · have hbegun := h.regular.sane.begun (mem_requesting.mpr (Option.isSome_of_eq_some hx))
    rw [hr] at hbegun
    cases hbegun

/-- Only the load that a lookup starts has its first turn before it. -/
theorem AtRest.unbegun_lookup (h : n.AtRest) (hr : (n.lookup m p).2.unbegun r = true) :
    r.manager = m ∧ (n.lookup m p).2.about m p = .pending r.load := by
  have ho : (n.lookup m p).2.Orderly := h.regular.orderly.step (.lookup m p)
  obtain ⟨t,ht,hb⟩ := unbegun_iff.mp hr
  rcases task_before h.regular.orderly (e := .lookup m p) ht (by simp) (by simp) with ht' | ⟨he,_⟩
  · exact absurd (unbegun_iff.mpr ⟨t,ht',hb⟩) (h.begun r)
  · cases he
    exact ⟨rfl,(ho _).about_eq_pending.mpr ⟨t,ht,rfl,(ho _).live _ _ ht⟩⟩

/-! ## Getting a token -/

/-- What counts is left alone by work, and nobody is asked if all tasks have run. -/
theorem kept_by_turns (h : n.Regular) (hm : m < n.managers.length)
    (hb : ∀ r, n.unbegun r ≠ true) {t : Token} (ha : n.about m p = .valid t)
    (hc : (n.manager m).config.accepts n.now t = true) (refs : List LoadRef) :
    (n.after (refs.map .turn)).about m p = .valid t ∧
    ∀ q, ((n.after (refs.map .turn)).peer q).face = (n.peer q).face := by
  have hcounts : (PeerState.valid t).counts (n.manager m).config
      (n.after (refs.map .turn)).now = true := by
    rw [turns_now]
    exact hc
  exact ⟨(left_alone h.orderly hm rfl ha (by simp) hcounts).1,
    (after_work h (isWork_turns refs) fun r hr => absurd hr (hb r)).1⟩

/-- A token that is there and young enough is handed out, and nobody is asked. -/
theorem AtRest.get_kept (h : n.AtRest) (hm : m < n.managers.length) {t : Token}
    (ha : n.about m p = .valid t) (hc : (n.manager m).config.accepts n.now t = true) :
    (n.lookup m p).1 = .ready t ∧ (n.lookup m p).2.settle.about m p = .valid t ∧
    ∀ q, ((n.lookup m p).2.settle.peer q).face = (n.peer q).face := by
  have ho := h.regular.orderly
  have hi := n.inner_lookup m p
  have habout : (n.lookup m p).2.about m p = .valid t := by
    rw [lookup_about ho hm, ha, PeerState.lookedUp]
    exact if_pos hc
  have hbegun : ∀ r, (n.lookup m p).2.unbegun r ≠ true := by
    intro r hr
    have hp := (h.unbegun_lookup hr).2
    rw [habout] at hp
    cases hp
  obtain ⟨refs,hs⟩ := (n.lookup m p).2.settle_eq_after
  have hconfig : ((n.lookup m p).2.manager m).config = (n.manager m).config :=
    step_config ho (.lookup m p) m
  have hkept := kept_by_turns (h.regular.step (.lookup m p)) (by rwa [n.step_managers_length _])
    hbegun habout (by rwa [← hconfig, ← hi.now] at hc) refs
  rw [lookup_answer ho hm, habout, hs]
  exact ⟨rfl,hkept.1,fun q => (hkept.2 q).trans (hi.face q)⟩

theorem AnswersAtOnce.congr {text : String} (h : n.AnswersAtOnce m p text)
    (hface : (n'.peer p).face = (n.peer p).face)
    (hc : (n'.manager m).config = (n.manager m).config) : n'.AnswersAtOnce m p text := by
  obtain ⟨lines,ms,hsend,hrest⟩ := h
  refine ⟨lines,ms,?_,hrest⟩
  rw [hc, (Peer.send_congr hface _ _).1]
  exact hsend

theorem requested_congr {q q' : Peer} {g g' : Manager} (hface : q'.face = q.face)
    (hc : g'.config = g.config) : (requested q' g').face = (requested q g).face := by
  rw [requested, hc]
  exact (Peer.send_congr hface _ _).2

/-- A load that stands in line has its turn, and the turns before it ask nobody. -/
theorem AtRest.settle_lookup (h : n.AtRest) (hm : m < n.managers.length)
    (ha : (n.lookup m p).2.about m p = .pending (n.manager m).loader.nextLoad) :
    ∃ before later : List LoadRef, n.nextRef m ∉ before ∧
      (n.lookup m p).2.settle =
        (((n.lookup m p).2.after (before.map .turn)).step (.turn (n.nextRef m))).after
          (later.map .turn) ∧
      (∀ q, (((n.lookup m p).2.after (before.map .turn)).peer q).face = (n.peer q).face) ∧
      ∀ r, ((n.lookup m p).2.after (before.map .turn)).unbegun r = true → r = n.nextRef m := by
  have h₁ : (n.lookup m p).2.Regular := h.regular.step (.lookup m p)
  have hnext : ∀ r, (n.lookup m p).2.unbegun r = true → r = n.nextRef m := by
    intro r hr
    obtain ⟨rfl,hp⟩ := h.unbegun_lookup hr
    rw [ha] at hp
    exact congrArg (LoadRef.mk r.manager) (PeerState.pending.inj hp).symm
  obtain ⟨refs,hs⟩ := (n.lookup m p).2.settle_eq_after
  have hmem : n.nextRef m ∈ refs := by
    by_contra hno
    have hready := ready_turns (lookup_ready h.regular.orderly hm ha) hno
    rw [← hs, settle_ready h₁] at hready
    cases hready
  obtain ⟨before,later,rfl,hbefore⟩ := List.eq_append_cons_of_mem hmem
  obtain ⟨hfaces,hunbegun⟩ := after_work h₁ (isWork_turns before) (by
    intro r hr
    rw [hnext r hr]
    simpa using hbefore)
  refine ⟨before,later,hbefore,?_,?_,fun r hr => hnext r (hunbegun r hr)⟩
  · rw [hs, List.map_append, after_append]
    rfl
  · exact fun q => (hfaces q).trans ((n.inner_lookup m p).face q)

/-- The turn of a load whose request is answered at once, and turns that ask nobody after it. -/
theorem turn_answered (h : n.Regular) {later : List LoadRef} {text : String}
    (ht : (n.manager ref.manager).loader.tasks.get? ref.load = some { key := p })
    (hunbegun : ∀ r, n.unbegun r = true → r = ref) (hp : p < n.peers.length)
    (ha : n.AnswersAtOnce ref.manager p text) :
    let n' := (n.step (.turn ref)).after (later.map .turn)
    n'.ending? ref = some (.loaded ⟨text,n.now⟩) ∧
    n'.about ref.manager p = .valid ⟨text,n.now⟩ ∧
    (n'.peer p).face = (requested (n.peer p) (n.manager ref.manager)).face := by
  have hasks : n.asks? ref = some p := (asks?_eq_some h.orderly).mpr ⟨_,ht,rfl,rfl⟩
  have hends := ends_of_answered h hasks hp ha
  have h₁ : (n.step (.turn ref)).Regular := h.step _
  have hm : ref.manager < (n.step (.turn ref)).managers.length := by
    rw [n.step_managers_length]
    exact lt_of_task ht
  have habout : (n.step (.turn ref)).about ref.manager p = .valid ⟨text,n.now⟩ :=
    hends.token_kept h.orderly ⟨_,ht,rfl,(h.orderly _).live _ _ ht⟩ rfl
  have hbegun : ∀ r, (n.step (.turn ref)).unbegun r ≠ true := by
    intro r hr
    obtain ⟨hr',hne⟩ := unbegun_work h rfl hr
    exact hne (congrArg Event.turn (hunbegun r hr').symm)
  have hnow : (n.step (.turn ref)).now = n.now := (n.step_steady _).1
  obtain ⟨hkept,hface⟩ := kept_by_turns h₁ hm hbegun habout (accepts_new _ hnow.symm) later
  refine ⟨after_ending h₁.orderly _ hends.2,hkept,(hface p).trans ?_⟩
  exact (runLoad_face (n := n.called ref) h.orderly ref p).trans (if_pos ⟨hasks,hp⟩)

/-- If the peer has to be asked and answers at once, the load that a lookup starts comes back with a
new token. -/
theorem AtRest.get_asked (h : n.AtRest) (hm : m < n.managers.length) (hp : p < n.peers.length)
    (hl : (n.about m p).lookedUp (n.manager m).config n.now (n.manager m).loader.nextLoad =
      .pending (n.manager m).loader.nextLoad) {text : String} (ha : n.AnswersAtOnce m p text) :
    (n.lookup m p).2.settle.ending? (n.nextRef m) = some (.loaded ⟨text,n.now⟩) ∧
    (n.lookup m p).2.settle.about m p = .valid ⟨text,n.now⟩ ∧
    ((n.lookup m p).2.settle.peer p).face = (requested (n.peer p) (n.manager m)).face := by
  have ho := h.regular.orderly
  have hi := n.inner_lookup m p
  have h₁ : (n.lookup m p).2.Regular := h.regular.step (.lookup m p)
  have habout := (lookup_about ho hm p).trans hl
  obtain ⟨before,later,hbefore,hs,hfaces,hunbegun⟩ := h.settle_lookup hm habout
  -- when the load has its turn, it finds the connection as it was
  let n₂ := (n.lookup m p).2.after (before.map .turn)
  have hp₂ : p < n₂.peers.length := by rwa [after_peers_length, hi.peers]
  have hnow₂ : n₂.now = n.now := (turns_now _ before).trans hi.now
  have hconfig₂ : (n₂.manager m).config = (n.manager m).config :=
    (after_config h₁.orderly _ m).trans (step_config ho (.lookup m p) m)
  have ht₂ : (n₂.manager m).loader.tasks.get? (n.nextRef m).load = some { key := p } :=
    @waiting_after _ (n.nextRef m) _ h₁.orderly (by rwa [hi.length])
      (lookup_task ho hm habout) _ (by simpa using hbefore) (by simp)
  have hturn := @turn_answered n₂ (n.nextRef m) p (h₁.after _) later text ht₂ hunbegun hp₂
    (ha.congr (hfaces p) hconfig₂)
  rw [hs, ← hnow₂, ← requested_congr (hfaces p) hconfig₂]
  exact hturn

/-- A pause leaves the connections alone. What was there rests, unless it is too old by then. -/
theorem AtRest.pause (h : n.AtRest) (hm : m < n.managers.length) {t : Token}
    (ha : n.about m p = .valid t) (d : Span) :
    (n.advance d).settle.AtRest ∧ (n.advance d).settle.now = n.now + d.nanos ∧
    (n.advance d).settle.Rests m p (.valid t) ∧
    ∀ q, ((n.advance d).settle.peer q).face = (n.peer q).face := by
  obtain ⟨refs,hadvance⟩ := n.advance_eq_after d
  obtain ⟨refs',hs⟩ := (n.advance d).settle_eq_after
  have hrest : (n.advance d).settle.AtRest := by
    refine atRest_settle ?_ ?_ <;> rw [hadvance]
    · exact h.regular.after _
    · exact h.timely.after _
  refine ⟨hrest,?_,?_⟩
  · rw [hs, turns_now, hadvance, after_concat, after_cons]
    exact ((step_steady _ .sound).1).trans (turns_now ..)
  rw [hs, hadvance, ← after_append]
  have hwork : ∀ e ∈ Event.pass d.nanos :: refs.map .turn ++ [.sound] ++ refs'.map .turn,
      e.isWork = true := by
    simp only [List.mem_append, List.mem_cons, List.not_mem_nil, or_false]
    rintro e (((rfl | he) | rfl) | he)
    · rfl
    · exact isWork_turns refs e he
    · rfl
    · exact isWork_turns refs' e he
  constructor
  · refine (Rests.after h.regular.orderly hm rfl (.inl ha) ?_).2
    refine ((always_of_not_mem n ?_).and (always_of_not_mem n ?_)).mono (P := fun _ e =>
      e ≠ .forget m p ∧ e ≠ .lookup m p) fun _ e he =>
        ⟨fun hforget => absurd hforget he.1,fun hlookup => absurd hlookup he.2⟩
    · exact fun hmem => Bool.false_ne_true (hwork _ hmem)
    · exact fun hmem => Bool.false_ne_true (hwork _ hmem)
  · exact (after_work h.regular hwork fun r hr => absurd hr (h.begun r)).1

end

end Network

/-! ## In a scenario -/

namespace Scenario.Tokens

open Network

section
variable {s : Tokens} {handle p : Nat} {t : Token}

/-- A wait is not given up before it has begun. -/
theorem sounded_lt_lastTick {n : Network} (h : n.Timely) : n.sounded < lastTick n := by
  by_contra hle
  have hlate := Clock.tick_dueTick_le _ _ ((Nat.not_lt.mp hle).trans h)
  have hpatience : 0 < patience.nanos := by decide
  omega

/-- A wait for a token that is there is over at once. -/
theorem turn_of_known {o : Outcome} {limit : Nat} :
    let w : Waiting := { state := s, job := .one (.known o), limit }
    w.turn.answer = some (.outcome o) ∧ w.turn.state = { s with net := s.net.settle } := by
  simp [Waiting.turn, Waiting.look, look, refresh, observe, known, onNet]

/-- A wait for a load that ends in the turns that the tasks in line have now. -/
theorem turn_of_awaited {ref : LoadRef} {limit : Nat} (hopen : s.net.ending? ref = none)
    (hend : s.net.settle.ending? ref = some (.loaded t)) (hlimit : s.net.sounded < limit) :
    let w : Waiting := { state := s, job := .one (.awaited ref), limit }
    w.turn.answer = some (.outcome (.ok (some t))) ∧
      w.turn.state = { s with net := s.net.settle } := by
  have hnow : s.net.observe ref = (none, s.net) := by
    unfold Network.observe
    rw [show (s.net.manager ref.manager).loader.ending? ref.load = none from hopen]
  have hlater : s.net.settle.observe ref = (some (.ok (some t)), s.net.settle) := by
    unfold Network.observe
    rw [show (s.net.settle.manager ref.manager).loader.ending? ref.load = _ from hend]
    rfl
  simp [Waiting.turn, Waiting.look, look, refresh, observe, known, onNet, hnow, hlater,
    Nat.not_le.mpr hlimit]

theorem finish_of_turn {w : Waiting} {answer : Answer} (h : w.turn.answer = some answer)
    {k : Nat} (hk : 0 < k) : w.finish k = (answer, w.turn.state) := by
  obtain ⟨k,rfl⟩ := Nat.exists_eq_succ_of_ne_zero (Nat.pos_iff_ne_zero.mp hk)
  simp only [Waiting.finish, h]

/-- A get comes back with the token that is there or that the load brings in the turns that the tasks
in line have now. -/
theorem step_getting (h : s.net.AtRest)
    (hget : (s.net.lookup (s.manager handle) p).1 = .ready t ∨
      ∃ ref, (s.net.lookup (s.manager handle) p).1 = .pending ref ∧
        (s.net.lookup (s.manager handle) p).2.ending? ref = none ∧
        (s.net.lookup (s.manager handle) p).2.settle.ending? ref = some (.loaded t)) :
    s.step (getting handle p) = (.outcome (.ok (some t)),
      { s with net := (s.net.lookup (s.manager handle) p).2.settle }) := by
  have hrest : (s.net.lookup (s.manager handle) p).2.settle.AtRest :=
    atRest_settle (h.regular.step (.lookup _ p)) (h.timely.act (.event (.lookup _ p))).2
  have hearly : (s.net.lookup (s.manager handle) p).2.sounded < lastTick s.net := by
    rw [(s.net.calm_lookup _ p).sounded]
    exact sounded_lt_lastTick h.timely
  rcases hl : s.net.lookup (s.manager handle) p with ⟨answer,n⟩
  rw [hl] at hget hrest hearly
  let w : Waiting :=
    { state := { s with net := n }, job := .one (.ofLookup answer), limit := lastTick s.net }
  have hturn : w.turn.answer = some (.outcome (.ok (some t))) ∧
      w.turn.state = { s with net := n.settle } := by
    rcases hget with rfl | ⟨ref,rfl,hopen,hend⟩
    · exact turn_of_known
    · exact turn_of_awaited (s := { s with net := n }) hopen hend hearly
  have hwait : s.wait (.get handle p) none = w.finish w.jumpBound := by
    simp only [wait, begin, hl, w]
  have hfinish := finish_of_turn hturn.1 (k := w.jumpBound) (Nat.succ_pos _)
  simp only [step, getting, hwait, hfinish, hturn.2, if_true, onNet, hrest.settle_eq]

/-! ## Again and again -/

/-- From `s₀` to `s`, `k` requests were sent to `p` with the given arguments, and nothing else. -/
structure Since (s₀ : Tokens) (p : Nat) (args : List String) (k : Nat) (s : Tokens) : Prop where
  handles : s.handles = s₀.handles
  rest : s.net.AtRest
  reached : ∃ es, s.net = s₀.net.after es
  face : (s.net.peer p).face = ((s₀.net.peer p).behindRequests args k).face

variable {s₀ : Tokens} {m k : Nat} {text : Nat → String}

def argsOf (n : Network) (m : Nat) : List String :=
  Reply.anyTarget :: (n.manager m).config.service.toList

theorem Since.config (h : Since s₀ p (argsOf s₀.net m) k s) (ho : s₀.net.Orderly)
    (hm : m < s₀.net.managers.length) :
    (s.net.manager m).config = (s₀.net.manager m).config ∧ m < s.net.managers.length ∧
      s.net.peers.length = s₀.net.peers.length := by
  obtain ⟨es,hes⟩ := h.reached
  rw [hes, after_managers_length, after_peers_length]
  exact ⟨after_config ho es m,hm,rfl⟩

theorem Since.answers (h : Since s₀ p (argsOf s₀.net m) k s)
    (hc : (s.net.manager m).config = (s₀.net.manager m).config)
    (ha : (s₀.net.peer p).AnswersWith (argsOf s₀.net m) text) :
    s.net.AnswersAtOnce m p (text k) := by
  obtain ⟨lines,ms,r,hsend,hlines,hfilter,hpayload,hne⟩ := ha k
  refine ⟨lines,ms,?_,hlines,?_,hne⟩
  · rw [(Peer.send_congr h.face _ _).1, hc]
    exact hsend
  · rw [← Reply.response_related, hfilter, r.response_messages, hpayload]

structure Got (s₀ : Tokens) (m p k : Nat) (t : Token) (s s' : Tokens) : Prop where
  since : Since s₀ p (argsOf s₀.net m) k s'
  about : s'.net.about m p = .valid t
  now : s'.net.now = s.net.now

theorem Since.lookup {k' : Nat} (h : Since s₀ p (argsOf s₀.net m) k s)
    (hface : ((s.net.lookup m p).2.settle.peer p).face =
      ((s₀.net.peer p).behindRequests (argsOf s₀.net m) k').face) :
    Since s₀ p (argsOf s₀.net m) k' { s with net := (s.net.lookup m p).2.settle } ∧
      (s.net.lookup m p).2.settle.now = s.net.now := by
  obtain ⟨es,hes⟩ := h.reached
  obtain ⟨refs,hs⟩ := (s.net.lookup m p).2.settle_eq_after
  have hrest : (s.net.lookup m p).2.settle.AtRest :=
    atRest_settle (h.rest.regular.step (.lookup m p)) (h.rest.timely.act (.event (.lookup m p))).2
  refine ⟨⟨h.handles,hrest,⟨es ++ .lookup m p :: refs.map .turn,?_⟩,hface⟩,?_⟩
  · rw [after_append, ← hes]
    exact hs
  · rw [hs, turns_now]
    exact (s.net.inner_lookup m p).now

/-- A get while the token is young enough. -/
theorem Since.got_kept (h : Since s₀ p (argsOf s₀.net m) k s) (ho : s₀.net.Orderly)
    (hm : m < s₀.net.managers.length) (hh : s₀.manager handle = m)
    (ha : s.net.about m p = .valid t)
    (hc : (s₀.net.manager m).config.accepts s.net.now t = true) :
    (s.step (getting handle p)).1 = .outcome (.ok (some t)) ∧
      Got s₀ m p k t s (s.step (getting handle p)).2 := by
  obtain ⟨hconfig,hm',_⟩ := h.config ho hm
  obtain ⟨hready,habout,hface⟩ := h.rest.get_kept hm' ha (by rwa [hconfig])
  have hh' : s.manager handle = m := (congrArg (·.getD handle 0) h.handles).trans hh
  have hstep := @step_getting s handle p t h.rest (by
    rw [hh']
    exact .inl hready)
  obtain ⟨hsince,hnow⟩ := h.lookup ((hface p).trans h.face)
  rw [hstep, hh']
  exact ⟨rfl,hsince,habout,hnow⟩

/-- A get when the peer has to be asked. -/
theorem Since.got_asked (h : Since s₀ p (argsOf s₀.net m) k s) (ho : s₀.net.Orderly)
    (hm : m < s₀.net.managers.length) (hp : p < s₀.net.peers.length)
    (hh : s₀.manager handle = m)
    (hl : ∀ fresh, (s.net.about m p).lookedUp (s₀.net.manager m).config s.net.now fresh =
      .pending fresh)
    (ha : (s₀.net.peer p).AnswersWith (argsOf s₀.net m) text) :
    (s.step (getting handle p)).1 = .outcome (.ok (some ⟨text k,s.net.now⟩)) ∧
      Got s₀ m p (k + 1) ⟨text k,s.net.now⟩ s (s.step (getting handle p)).2 := by
  obtain ⟨hconfig,hm',hlen⟩ := h.config ho hm
  have hlookup : (s.net.lookup m p).2.about m p =
      .pending (s.net.manager m).loader.nextLoad :=
    (lookup_about h.rest.regular.orderly hm' p).trans (hconfig ▸ hl _)
  obtain ⟨hend,habout,hface⟩ := h.rest.get_asked hm' (by rwa [hlen]) (hconfig ▸ hl _)
    (h.answers hconfig ha)
  have hpending : (s.net.lookup m p).1 = .pending (s.net.nextRef m) := by
    rw [lookup_answer h.rest.regular.orderly hm', hlookup]
    rfl
  have hopen : (s.net.lookup m p).2.ending? (s.net.nextRef m) = none :=
    (h.rest.regular.orderly.step (.lookup m p) m).loader.no_ending
      (lookup_task h.rest.regular.orderly hm' hlookup)
  have hh' : s.manager handle = m := (congrArg (·.getD handle 0) h.handles).trans hh
  have hstep := @step_getting s handle p ⟨text k,s.net.now⟩ h.rest (by
    rw [hh']
    exact .inr ⟨_,hpending,hopen,hend⟩)
  have hface' : (requested (s.net.peer p) (s.net.manager m)).face =
      ((s₀.net.peer p).behindRequests (argsOf s₀.net m) (k + 1)).face := by
    rw [requested, hconfig]
    exact (Peer.send_congr h.face _ _).2
  obtain ⟨hsince,hnow⟩ := h.lookup (hface.trans hface')
  rw [hstep, hh']
  exact ⟨rfl,hsince,habout,hnow⟩

theorem step_pausing (s : Tokens) (d : Span) :
    (s.step (pausing d)).2 = { s with net := (s.net.advance d).settle } := rfl

/-- A pause behind a get. -/
theorem Got.pause {s' : Tokens} (h : Got s₀ m p k t s s') (ho : s₀.net.Orderly)
    (hm : m < s₀.net.managers.length) (d : Span) :
    Since s₀ p (argsOf s₀.net m) k (s'.step (pausing d)).2 ∧
    (s'.step (pausing d)).2.net.now = s.net.now + d.nanos ∧
    (s'.step (pausing d)).2.net.Rests m p (.valid t) := by
  obtain ⟨hrest,hnow,hrests,hface⟩ := h.since.rest.pause (h.since.config ho hm).2.1 h.about d
  obtain ⟨es,hes⟩ := h.since.reached
  obtain ⟨refs,hadvance⟩ := s'.net.advance_eq_after d
  obtain ⟨refs',hs⟩ := (s'.net.advance d).settle_eq_after
  rw [step_pausing]
  refine ⟨⟨h.since.handles,hrest,⟨es ++ (.pass d.nanos :: refs.map .turn ++ [.sound] ++
    refs'.map .turn),?_⟩,(hface p).trans h.since.face⟩,hnow.trans (by rw [h.now]),hrests⟩
  rw [after_append, after_append, ← hes, ← hadvance]
  exact hs

/-- A token is handed out to `limit / pause + 1` gets in a row. When the next get comes, it has just
become too old. -/
theorem next_get {limit pause : Nat} (hd : 0 < pause) (i : Nat) :
    let each := limit / pause + 1
    ((i + 1) / each = i / each ∧ (i + 1) * pause - i / each * each * pause ≤ limit) ∨
    ((i + 1) / each = i / each + 1 ∧ (i + 1) / each * each = i + 1 ∧
      limit < (i + 1) * pause - i / each * each * pause) := by
  intro each
  have hpos : 0 < each := Nat.succ_pos _
  have hi : each * (i / each) + i % each = i := Nat.div_add_mod i each
  have hlt : i % each < each := Nat.mod_lt i hpos
  have hnext : i + 1 = each * (i / each) + (i % each + 1) := by omega
  have hage : (i + 1) * pause - i / each * each * pause = (i % each + 1) * pause := by
    rw [← Nat.sub_mul, Nat.mul_comm (i / each), hnext, Nat.add_sub_cancel_left]
  have hdiv : (i + 1) / each = i / each + (i % each + 1) / each := by
    conv_lhs => rw [hnext]
    exact Nat.mul_add_div hpos ..
  rw [hage, hdiv]
  by_cases hfits : i % each + 1 ≤ limit / pause
  · refine .inl ⟨?_,(Nat.le_div_iff_mul_le hd).mp hfits⟩
    rw [Nat.div_eq_of_lt (Nat.lt_succ_of_le hfits), Nat.add_zero]
  · have hlast : i % each + 1 = each := by omega
    have hlate := (Nat.le_div_iff_mul_le hd).not.mp hfits
    rw [hlast] at hnext hlate ⊢
    rw [Nat.div_self hpos]
    exact .inr ⟨rfl,by rw [hnext, Nat.mul_comm, Nat.mul_succ],Nat.not_le.mp hlate⟩

theorem requests_zero {each : Nat} (h : 0 < each) : (0 + each - 1) / each = 0 :=
  Nat.div_eq_of_lt (by omega)

theorem requests_succ {each : Nat} (h : 0 < each) (i : Nat) :
    (i + 1 + each - 1) / each = i / each + 1 := by
  rw [Nat.add_right_comm, Nat.add_sub_cancel, Nat.add_div_right _ h]

def tokenAt (text : Nat → String) (start each pause i : Nat) : Token :=
  ⟨text (i / each), start + i / each * each * pause⟩

structure Before (s₀ : Tokens) (m p : Nat) (text : Nat → String) (each pause i : Nat)
    (s : Tokens) : Prop where
  since : Since s₀ p (argsOf s₀.net m) ((i + each - 1) / each) s
  now : s.net.now = s₀.net.now + i * pause
  about : match i with
    | 0 => s.net.about m p = .unknown
    | i + 1 => s.net.Rests m p (.valid (tokenAt text s₀.net.now each pause i))

variable {limit pause i : Nat}

/-- The get number `i` comes back with its token. -/
theorem Before.got (ho : s₀.net.Orderly) (hm : m < s₀.net.managers.length)
    (hp : p < s₀.net.peers.length) (hh : s₀.manager handle = m)
    (hlimit : (s₀.net.manager m).config.maxTokenAge.nanos = limit) (hd : 0 < pause)
    (ha : (s₀.net.peer p).AnswersWith (argsOf s₀.net m) text)
    (h : Before s₀ m p text (limit / pause + 1) pause i s) :
    (s.step (getting handle p)).1 =
      .outcome (.ok (some (tokenAt text s₀.net.now (limit / pause + 1) pause i))) ∧
    Got s₀ m p (i / (limit / pause + 1) + 1) (tokenAt text s₀.net.now (limit / pause + 1) pause i) s
      (s.step (getting handle p)).2 := by
  obtain ⟨hsince,hnow,habout⟩ := h
  have hnext := @next_get limit _ hd
  have hpos : 0 < limit / pause + 1 := Nat.succ_pos _
  generalize limit / pause + 1 = each at hsince habout hnext hpos ⊢
  cases i with
  | zero =>
    have htoken : tokenAt text s₀.net.now each pause 0 = ⟨text 0,s.net.now⟩ := by
      simp [tokenAt, hnow]
    rw [requests_zero hpos] at hsince
    rw [htoken, Nat.zero_div]
    refine hsince.got_asked ho hm hp hh (fun fresh => ?_) ha
    rw [show s.net.about m p = .unknown from habout]
    rfl
  | succ i =>
    have haccepts : (s₀.net.manager m).config.accepts s.net.now
        (tokenAt text s₀.net.now each pause i) =
        decide ((i + 1) * pause - i / each * each * pause ≤ limit) := by
      rw [TokenConfig.accepts, hlimit, ← Nat.add_sub_add_left s₀.net.now, ← hnow]
      rfl
    have hconfig := (hsince.config ho hm).1
    rw [requests_succ hpos] at hsince
    obtain ⟨hsame,hyoung⟩ | ⟨hnew,hlast,hold⟩ := hnext i
    · have htoken : tokenAt text s₀.net.now each pause (i + 1) =
          tokenAt text s₀.net.now each pause i := by
        rw [tokenAt, hsame, tokenAt]
      have hc := haccepts.trans (decide_eq_true hyoung)
      rw [htoken, hsame]
      exact hsince.got_kept ho hm hh (habout.about_eq (hconfig ▸ hc)) hc
    · have htoken : tokenAt text s₀.net.now each pause (i + 1) = ⟨text (i / each + 1),s.net.now⟩ := by
        rw [tokenAt, hlast, hnew, hnow]
      have hc := haccepts.trans (decide_eq_false (Nat.not_le.mpr hold))
      rw [htoken, hnew]
      refine hsince.got_asked ho hm hp hh (fun fresh => ?_) ha
      have hl := habout.lookedUp_eq (hconfig ▸ hc) fresh
      rwa [hconfig] at hl

/-- What holds before a get holds before the next one, after a pause. -/
theorem Before.next {d : Span} (ho : s₀.net.Orderly) (hm : m < s₀.net.managers.length)
    (hp : p < s₀.net.peers.length) (hh : s₀.manager handle = m)
    (hlimit : (s₀.net.manager m).config.maxTokenAge.nanos = limit) (hd : 0 < d.nanos)
    (ha : (s₀.net.peer p).AnswersWith (argsOf s₀.net m) text)
    (h : Before s₀ m p text (limit / d.nanos + 1) d.nanos i s) :
    Before s₀ m p text (limit / d.nanos + 1) d.nanos (i + 1)
      ((s.step (getting handle p)).2.step (pausing d)).2 := by
  obtain ⟨hsince,hnow,hrests⟩ := (h.got ho hm hp hh hlimit hd ha).2.pause ho hm d
  refine ⟨?_,?_,hrests⟩
  · rw [requests_succ (Nat.succ_pos _)]
    exact hsince
  · rw [hnow, h.now, Nat.succ_mul, Nat.add_assoc]

end

/-- Tokens of a peer are got at regular intervals `d`, by a manager that knows nothing about the peer
at the start, and the peer answers every request at once. A token is handed out until it is older than
tokens may be, which is to `each` gets in a row, and the next get asks again. So the get number `i`
comes back with the token of the request number `i / each`, both counted from zero, and before it there
was one request for every `each` gets, the last of which may be fewer. -/
theorem gets_share_requests (peers : List Peer) (hfresh : ∀ q ∈ peers, q.listeners = {})
    (configs : List TokenConfig) (past : List Event) (handles : List Nat)
    (kept : Table String Promise) (handle : Nat) (m : Fin configs.length) (p : Fin peers.length)
    (d : Span) (text : Nat → String) :
    let n := (Network.start peers configs).after past
    let s : Tokens := { net := n, handles, kept }
    let c := configs.get m
    let each := c.maxTokenAge.nanos / d.nanos + 1
    s.manager handle = m → n.ready = [] → n.about m p = .unknown → 0 < d.nanos →
    (n.peer p).AnswersWith (Reply.anyTarget :: c.service.toList) text →
    ∀ i, (s.beforeGet handle p d i).net.now = n.now + i * d.nanos ∧
      ((s.beforeGet handle p d i).step (getting handle p)).1 =
        .outcome (.ok (some ⟨text (i / each),n.now + i / each * each * d.nanos⟩)) ∧
      n.sentSince (s.beforeGet handle p d i).net p =
        List.replicate ((i + each - 1) / each) (request c) := by
  intro n s c each hh hidle hunknown hd ha
  have hn : n.Regular := (regular_start hfresh configs).after past
  have hm : (m : Nat) < n.managers.length := by
    rw [reached_managers_length]
    exact m.isLt
  have hp : (p : Nat) < n.peers.length := by
    rw [reached_peers_length]
    exact p.isLt
  have hc : (n.manager m).config = c := reached_config peers configs past m
  have hargs : argsOf s.net m = Reply.anyTarget :: c.service.toList := by
    rw [argsOf, show (s.net.manager m).config = c from hc]
  have hlimit : (s.net.manager m).config.maxTokenAge.nanos = c.maxTokenAge.nanos :=
    congrArg (·.maxTokenAge.nanos) hc
  rw [← hargs] at ha
  have hbefore : ∀ i, Before s m p text each d.nanos i (s.beforeGet handle p d i) := by
    intro i
    induction i with
    | zero =>
      refine ⟨⟨rfl,⟨hn,(timely_start peers configs).after past,hidle⟩,⟨[],rfl⟩,?_⟩,?_,hunknown⟩
      · rw [requests_zero (Nat.succ_pos _)]
        rfl
      · exact (Nat.zero_mul d.nanos ▸ Nat.add_zero n.now).symm
    | succ i ih => exact ih.next hn.orderly hm hp hh hlimit hd ha
  intro i
  refine ⟨(hbefore i).now,((hbefore i).got hn.orderly hm hp hh hlimit hd ha).1,?_⟩
  have hsent : ((s.beforeGet handle p d i).net.peer p).sent =
      (n.peer p).sent ++ List.replicate ((i + each - 1) / each) (request c) := by
    change ((s.beforeGet handle p d i).net.peer p).face.sent = _
    rw [(hbefore i).since.face, request, ← hargs]
    exact Peer.behindRequests_sent ha _
  rw [sentSince, hsent, List.drop_left]

/-- Tokens may have an age of 15 seconds, the default, and are got every 5 seconds. The first one is
handed out four times, and the get after that asks for the second one. -/
theorem third_request_for_ninth_get :
    let irc : Peer := { name := "irc", replies := some ⟨[["EXTJWT * files t\x7bn\x7d"]],0⟩ }
    let s : Tokens := { net := Network.start [irc] [{}], handles := [0] }
    let d := Span.ofSeconds 5
    ((s.beforeGet 0 0 d 3).step (getting 0 0)).1 = .outcome (.ok (some ⟨"t1",0⟩)) ∧
    ((s.beforeGet 0 0 d 4).step (getting 0 0)).1 = .outcome (.ok (some ⟨"t2",20000000000⟩)) ∧
    s.net.sentSince (s.beforeGet 0 0 d 9).net 0 = List.replicate 3 (request {}) := by
  intro irc s d
  have h := gets_share_requests [irc] (by simp [irc]) [{}] [] [0] {} 0 ⟨0,by decide⟩ ⟨0,by decide⟩ d
    _ rfl rfl rfl (by decide) (Peer.answersWith_numbers rfl rfl)
  have heach : ([({} : TokenConfig)].get ⟨0,by decide⟩).maxTokenAge.nanos / d.nanos + 1 = 4 := by
    decide
  have hnow : ∀ k, (Network.start [irc] [{}]).now + k * 4 * d.nanos = k * 20000000000 := by
    intro k
    rw [show d.nanos = 5000000000 from rfl, show (Network.start [irc] [{}]).now = 0 from rfl]
    omega
  have hfirst : "t" ++ String.ofList (Nat.toDigits 10 1) = "t1" := by decide
  have hsecond : "t" ++ String.ofList (Nat.toDigits 10 2) = "t2" := by decide
  simp only [heach, after_nil, hnow] at h
  have h₃ := (h 3).2.1
  have h₄ := (h 4).2.1
  have h₉ := (h 9).2.2
  rw [show 3 / 4 = 0 from rfl, hfirst] at h₃
  rw [show 4 / 4 = 1 from rfl, hsecond] at h₄
  exact ⟨h₃,h₄,h₉⟩

end Scenario.Tokens

end ChatToken
