import ChatToken.Proofs.Network.Rewording

/-! # Token texts stay secret

Two runs with the same steps that differ only in the texts of tokens are told apart neither by the
log events of the token library nor by its metrics, and every step answers the same in both but for
the texts. Batches of uploads are the last place that texts get to: there they become metadata.
-/
namespace ChatToken

/-! ## Uploads -/

namespace Upload

theorem veil_attach (token : String) (u : Upload) :
    (u.attach token).veil = u.veil.attach (Text.veil token) := by
  have hinsert : ∀ t : Table String String,
      (t.insert tokenKey token).adjust tokenKey Text.veil =
        (t.adjust tokenKey Text.veil).insert tokenKey (Text.veil token) := by
    intro t
    refine (t.mapValues_insert _ tokenKey token).trans ?_
    rw [if_pos rfl]
    rfl
  exact congrArg (fun metadata => ({ u with metadata } : Upload)) (hinsert u.metadata)

theorem veil_attachAll (token : String) (indices : List Nat) (us : List Upload) :
    (indices.foldl (fun us i => us.modify i (attach token)) us).map veil =
      indices.foldl (fun us i => us.modify i (attach (Text.veil token))) (us.map veil) := by
  have hmodify : ∀ (us : List Upload) (i : Nat), (us.modify i (attach token)).map veil =
      (us.map veil).modify i (attach (Text.veil token)) := by
    intro us i
    refine List.ext_getElem? fun j => ?_
    rw [List.getElem?_map, List.getElem?_modify, List.getElem?_modify, List.getElem?_map]
    by_cases hij : i = j
    · cases us[j]? <;> simp [hij, veil_attach]
    · simp [hij]
  induction indices generalizing us with
  | nil => rfl
  | cons i indices ih => rw [List.foldl_cons, List.foldl_cons, ih, hmodify]

end Upload

def WaitingUploads.veil (w : WaitingUploads) : WaitingUploads :=
  { w with outcome := w.outcome.map Outcome.veil }

theorem WaitingUploads.veil_answered {w w' : WaitingUploads} (hw : w'.veil = w.veil)
    {o o' : Option Outcome} (ho : o'.map Outcome.veil = o.map Outcome.veil) :
    ({ w' with outcome := o' } : WaitingUploads).veil =
      ({ w with outcome := o } : WaitingUploads).veil := by
  simp only [veil, mk.injEq] at hw ⊢
  exact ⟨hw.1,hw.2.1,hw.2.2.1,ho⟩

namespace UploadBatch

def veil (b : UploadBatch) : UploadBatch where
  uploads := b.uploads.map Upload.veil
  summary := b.summary
  waiting := b.waiting.map WaitingUploads.veil

section
variable {b b' : UploadBatch}

theorem upload_of_veil (h : b'.veil = b.veil) (index : Nat) :
    b'.uploads[index]?.map Upload.veil = b.uploads[index]?.map Upload.veil := by
  have huploads := congrArg (·.uploads[index]?) h
  simpa only [veil, List.getElem?_map] using huploads

theorem veil_skip (h : b'.veil = b.veil) :
    ({ b' with summary := skip b'.summary 1 } : UploadBatch).veil =
      ({ b with summary := skip b.summary 1 } : UploadBatch).veil :=
  congrArg (fun b => { b with summary := skip b.summary 1 }) h

theorem veil_wait (h : b'.veil = b.veil) (w : WaitingUploads) :
    ({ b' with waiting := b'.waiting ++ [w] } : UploadBatch).veil =
      ({ b with waiting := b.waiting ++ [w] } : UploadBatch).veil := by
  simp only [veil, mk.injEq, List.map_append] at h ⊢
  exact ⟨h.1,h.2.1,by rw [h.2.2]⟩

/-- One upload gets its token at once. -/
theorem veil_ready (h : b'.veil = b.veil) {t t' : Token} (ht : t'.veil = t.veil) (index : Nat) :
    ({ b' with
        uploads := b'.uploads.modify index (Upload.attach t'.value)
        summary := { b'.summary with attached := b'.summary.attached + 1 } } : UploadBatch).veil =
      ({ b with
        uploads := b.uploads.modify index (Upload.attach t.value)
        summary := { b.summary with attached := b.summary.attached + 1 } } : UploadBatch).veil := by
  have htext : Text.veil t'.value = Text.veil t.value := congrArg Token.value ht
  have hone := Upload.veil_attachAll t.value [index] b.uploads
  have hone' := Upload.veil_attachAll t'.value [index] b'.uploads
  simp only [veil, mk.injEq] at h ⊢
  rw [h.1, htext] at hone'
  exact ⟨hone'.trans hone.symm,by rw [h.2.1],h.2.2⟩

end

theorem isWaitedFor_veil (b : UploadBatch) (p : Nat) : b.veil.isWaitedFor p = b.isWaitedFor p := by
  simp only [isWaitedFor, veil, List.any_map]
  rfl

theorem isResolved_veil (b : UploadBatch) : b.veil.isResolved = b.isResolved := by
  simp only [isResolved, veil, List.all_map, Function.comp_def, WaitingUploads.veil,
    Option.isSome_map]

theorem veil_join (b : UploadBatch) (p index : Nat) :
    (b.join p index).veil = b.veil.join p index := by
  simp only [join, veil, List.map_map, mk.injEq, true_and]
  refine List.map_congr_left fun w _ => ?_
  simp only [Function.comp_apply]
  by_cases hw : w.peer = p
  · have hw' : w.veil.peer = p := hw
    rw [if_pos hw, if_pos hw']
    rfl
  · have hw' : ¬ w.veil.peer = p := hw
    rw [if_neg hw, if_neg hw']

/-- What a load ended with is given to uploads without a look at the text. -/
theorem veil_conclude (n : Network) (b : UploadBatch) (w : WaitingUploads) :
    conclude (n, b.veil) w.veil = ((conclude (n, b) w).1, (conclude (n, b) w).2.veil) := by
  obtain ⟨peer,ref,indices,outcome⟩ := w
  cases outcome with
  | none => rfl
  | some outcome =>
    cases outcome with
    | error e => rfl
    | ok t? =>
      cases t? with
      | none => rfl
      | some t =>
        have hall := Upload.veil_attachAll t.value indices b.uploads
        simp only [conclude, WaitingUploads.veil, Option.map_some, Outcome.veil, Except.map,
          Token.veil, veil, hall]

theorem veil_concludeAll (n : Network) (b : UploadBatch) :
    concludeAll n b.veil = ((concludeAll n b).1, (concludeAll n b).2.veil) := by
  have hfold : ∀ (ws : List WaitingUploads) (n : Network) (b : UploadBatch),
      (ws.map WaitingUploads.veil).foldl conclude (n, b.veil) =
        ((ws.foldl conclude (n, b)).1, (ws.foldl conclude (n, b)).2.veil) := by
    intro ws
    induction ws with
    | nil => exact fun _ _ => rfl
    | cons w ws ih =>
      intro n b
      rw [List.map_cons, List.foldl_cons, List.foldl_cons, veil_conclude, ih]
  unfold concludeAll
  have hwaiting : b.veil.waiting = b.waiting.map WaitingUploads.veil := rfl
  rw [hwaiting, hfold]
  rfl

end UploadBatch

namespace Network.Veils

variable {n n' : Network} {b b' : UploadBatch}

theorem advertises (h : n.Veils n') (p : Nat) :
    UploadBatch.advertisesTokens (n'.peer p) = UploadBatch.advertisesTokens (n.peer p) := by
  unfold UploadBatch.advertisesTokens Peer.capability?
  rw [(h.peer p).capabilities, (h.peer p).link]

/-- Takes the same upload of two batches that are the same but for the texts. -/
theorem enlist (h : n.Veils n') (hb : b'.veil = b.veil) (m index : Nat) :
    (UploadBatch.enlist m (n, b) index).1.Veils (UploadBatch.enlist m (n', b') index).1 ∧
    (UploadBatch.enlist m (n', b') index).2.veil = (UploadBatch.enlist m (n, b) index).2.veil := by
  unfold UploadBatch.enlist
  obtain ⟨hu,hu'⟩ | ⟨u,u',hu,hu',hv⟩ := option_cases (UploadBatch.upload_of_veil hb index)
  · dsimp only
    rw [hu, hu']
    exact ⟨h,hb⟩
  · have hpeer : u'.peer = u.peer := by
      have hp := congrArg Upload.peer hv
      exact hp
    have hwaited : b'.isWaitedFor u.peer = b.isWaitedFor u.peer := by
      rw [← UploadBatch.isWaitedFor_veil, hb, UploadBatch.isWaitedFor_veil]
    dsimp only
    rw [hu, hu']
    dsimp only
    rw [hpeer, h.advertises, hwaited]
    generalize UploadBatch.advertisesTokens (n.peer u.peer) = advertised
    generalize b.isWaitedFor u.peer = waited
    cases advertised with
    | false => exact ⟨h,UploadBatch.veil_skip hb⟩
    | true =>
      simp only [Bool.not_true, Bool.false_eq_true, if_false]
      cases waited with
      | true =>
        refine ⟨h,?_⟩
        have hjoin : b'.veil.join u.peer index = b.veil.join u.peer index := by rw [hb]
        rw [← UploadBatch.veil_join, ← UploadBatch.veil_join] at hjoin
        exact hjoin
      | false =>
        simp only [Bool.false_eq_true, if_false]
        obtain ⟨hanswer,hn⟩ := h.lookup m u.peer
        generalize Network.lookup n m u.peer = r at hanswer hn ⊢
        generalize Network.lookup n' m u.peer = r' at hanswer hn ⊢
        obtain ⟨answer,k⟩ := r
        obtain ⟨answer',k'⟩ := r'
        cases answer with
        | ready t =>
          cases answer' with
          | ready t' => exact ⟨hn,UploadBatch.veil_ready hb (TokenLookup.ready.inj hanswer) index⟩
          | _ => cases hanswer
        | unsupported =>
          cases answer' with
          | unsupported => exact ⟨hn,UploadBatch.veil_skip hb⟩
          | _ => cases hanswer
        | pending ref =>
          cases answer' with
          | pending ref' =>
            obtain rfl : ref' = ref := TokenLookup.pending.inj hanswer
            exact ⟨hn,UploadBatch.veil_wait hb _⟩
          | _ => cases hanswer

/-- Begins batches of the same uploads. -/
theorem enlistAll (h : n.Veils n') (m : Nat) (uploads : List Upload) :
    (UploadBatch.enlistAll n m uploads).1.Veils (UploadBatch.enlistAll n' m uploads).1 ∧
    (UploadBatch.enlistAll n' m uploads).2.veil = (UploadBatch.enlistAll n m uploads).2.veil := by
  have hfold : ∀ (indices : List Nat) {s s' : Network × UploadBatch}, s.1.Veils s'.1 →
      s'.2.veil = s.2.veil →
      (indices.foldl (UploadBatch.enlist m) s).1.Veils
        (indices.foldl (UploadBatch.enlist m) s').1 ∧
      (indices.foldl (UploadBatch.enlist m) s').2.veil =
        (indices.foldl (UploadBatch.enlist m) s).2.veil := by
    intro indices
    induction indices with
    | nil => exact fun hn hb => ⟨hn,hb⟩
    | cons i indices ih =>
      intro s s' hn hb
      obtain ⟨hn,hb⟩ := hn.enlist hb m i
      exact ih hn hb
  exact hfold _ h rfl

theorem observeAll (h : n.Veils n') {ws ws' : List WaitingUploads}
    (hw : ws'.map WaitingUploads.veil = ws.map WaitingUploads.veil) :
    (UploadBatch.observe n ws).1.Veils (UploadBatch.observe n' ws').1 ∧
    (UploadBatch.observe n' ws').2.map WaitingUploads.veil =
      (UploadBatch.observe n ws).2.map WaitingUploads.veil := by
  induction ws generalizing n n' ws' with
  | nil =>
    obtain rfl : ws' = [] := List.map_eq_nil_iff.mp hw
    exact ⟨h,rfl⟩
  | cons w ws ih =>
    obtain _ | ⟨w',ws'⟩ := ws'
    · cases hw
    obtain ⟨hone,hw⟩ := List.cons.inj hw
    have houtcome : w'.outcome.map Outcome.veil = w.outcome.map Outcome.veil :=
      congrArg WaitingUploads.outcome hone
    unfold UploadBatch.observe
    obtain ⟨ho,ho'⟩ | ⟨o,o',ho,ho',hv⟩ := option_cases houtcome
    · have href : n'.observe w'.ref = n'.observe w.ref := by
        have hr := congrArg WaitingUploads.ref hone
        exact congrArg n'.observe hr
      obtain ⟨hanswer,hn⟩ := h.observe w.ref
      rw [ho, ho', href]
      generalize n.observe w.ref = r at hanswer hn ⊢
      generalize n'.observe w.ref = r' at hanswer hn ⊢
      obtain ⟨hrest,hws⟩ := ih hn hw
      exact ⟨hrest,List.cons_eq_cons.mpr ⟨WaitingUploads.veil_answered hone hanswer,hws⟩⟩
    · obtain ⟨hrest,hws⟩ := ih h hw
      rw [ho, ho']
      exact ⟨hrest,List.cons_eq_cons.mpr
        ⟨WaitingUploads.veil_answered hone (congrArg some hv),hws⟩⟩

/-- The end of a batch. -/
theorem concludeAll (h : n.Veils n') (hb : b'.veil = b.veil) :
    (UploadBatch.concludeAll n b).1.Veils (UploadBatch.concludeAll n' b').1 ∧
    (UploadBatch.concludeAll n' b').2.veil = (UploadBatch.concludeAll n b).2.veil := by
  -- Without texts both batches are one, and it ends the same in both networks.
  have hone : ∀ (s : Network × UploadBatch) (s' : Network × UploadBatch) (w : WaitingUploads),
      s.1.Veils s'.1 → s'.2 = s.2 → (UploadBatch.conclude s w).1.Veils (UploadBatch.conclude s' w).1 ∧
        (UploadBatch.conclude s' w).2 = (UploadBatch.conclude s w).2 := by
    rintro ⟨k,c⟩ ⟨k',c'⟩ ⟨peer,ref,indices,outcome⟩ hk hc
    obtain rfl : c' = c := hc
    obtain _ | (e | _ | t) := outcome
    · exact ⟨hk,rfl⟩
    · exact ⟨hk.report _,rfl⟩
    · exact ⟨hk,rfl⟩
    · exact ⟨hk,rfl⟩
  have hfold : ∀ (ws : List WaitingUploads) (s s' : Network × UploadBatch), s.1.Veils s'.1 →
      s'.2 = s.2 →
      (ws.foldl UploadBatch.conclude s).1.Veils (ws.foldl UploadBatch.conclude s').1 ∧
        (ws.foldl UploadBatch.conclude s').2 = (ws.foldl UploadBatch.conclude s).2 := by
    intro ws
    induction ws with
    | nil => exact fun _ _ hk hc => ⟨hk,hc⟩
    | cons w ws ih =>
      intro s s' hk hc
      obtain ⟨hk,hc⟩ := hone s s' w hk hc
      exact ih _ _ hk hc
  have hend := UploadBatch.veil_concludeAll n b
  have hend' := UploadBatch.veil_concludeAll n' b'
  obtain ⟨hk,hc⟩ := hfold b.veil.waiting (n, b.veil) (n', b.veil) h rfl
  have hsame : (UploadBatch.concludeAll n b.veil).1.Veils (UploadBatch.concludeAll n' b.veil).1 ∧
      (UploadBatch.concludeAll n' b.veil).2 = (UploadBatch.concludeAll n b.veil).2 := by
    unfold UploadBatch.concludeAll
    dsimp only
    rw [hc]
    exact ⟨hk.report _,rfl⟩
  rw [hb] at hend'
  rw [hend, hend'] at hsame
  exact hsame

/-- A look at a batch. -/
theorem lookBatch (h : n.Veils n') (hb : b'.veil = b.veil) :
    (Uploading.lookBatch n' b').1.veil = (Uploading.lookBatch n b).1.veil ∧
    (Uploading.lookBatch n b).2.1.Veils (Uploading.lookBatch n' b').2.1 ∧
    (Uploading.lookBatch n' b').2.2.map UploadBatch.veil =
      (Uploading.lookBatch n b).2.2.map UploadBatch.veil := by
  obtain ⟨hn,hwaiting⟩ := h.observeAll (congrArg UploadBatch.waiting hb)
  unfold Uploading.lookBatch
  generalize UploadBatch.observe n b.waiting = r at hn hwaiting ⊢
  generalize UploadBatch.observe n' b'.waiting = r' at hn hwaiting ⊢
  obtain ⟨k,waiting⟩ := r
  obtain ⟨k',waiting'⟩ := r'
  have hlooked : ({ b' with waiting := waiting' } : UploadBatch).veil =
      ({ b with waiting } : UploadBatch).veil := by
    simp only [UploadBatch.veil, UploadBatch.mk.injEq] at hb hwaiting ⊢
    exact ⟨hb.1,hb.2.1,hwaiting⟩
  have hresolved : ({ b' with waiting := waiting' } : UploadBatch).isResolved =
      ({ b with waiting } : UploadBatch).isResolved := by
    rw [← UploadBatch.isResolved_veil, hlooked, UploadBatch.isResolved_veil]
  dsimp only
  rw [hresolved]
  split
  · obtain ⟨hend,hdone⟩ := hn.concludeAll hlooked
    refine ⟨?_,hend,rfl⟩
    have hsummary := congrArg UploadBatch.summary hdone
    have huploads := congrArg UploadBatch.uploads hdone
    exact congrArg₂ Uploading.Answer.attached hsummary huploads
  · exact ⟨rfl,hn,congrArg some hlooked⟩

/-! ## What the steps answer -/

theorem answerEvent (h : n.Veils n') {e e' : Event} (he : e.Reworded e') :
    (Uploading.answerEvent n' e').veil = (Uploading.answerEvent n e).veil := by
  cases he with
  | deliver p hm => rfl
  | receive p hl => rfl
  | prepare p hr => rfl
  | same =>
    cases e with
    | lookup m p => exact congrArg Uploading.Answer.lookedUp (h.lookup m p).1
    | isUnsupported m p => exact congrArg Uploading.Answer.checked (h.checkMark m p).1
    | observe ref => exact congrArg Uploading.Answer.observed (h.observe ref).1
    | look c => exact congrArg Uploading.Answer.exchanged (h.pollExchange (.caller c)).1
    | send p command args => exact congrArg Uploading.Answer.sent (h.send p command args).1
    | _ => rfl

theorem answerAct (h : n.Veils n') (a : Act) :
    (Uploading.answerAct n' a).veil = (Uploading.answerAct n a).veil := by
  cases a with
  | event e => exact h.answerEvent (.same e)
  | request c p service timeout =>
    unfold Uploading.answerAct
    dsimp only
    rw [h.contains]
    split
    · rfl
    · exact congrArg Uploading.Answer.requested (h.startRequest c p service timeout).1
  | lookRequest c => exact congrArg Uploading.Answer.requested (h.pollRequest (.caller c)).1

end Network.Veils

namespace Uploading

structure Veils (u u' : Uploading) : Prop where
  net : u.net.Veils u'.net
  batches : u'.batches.map (Option.map UploadBatch.veil) =
    u.batches.map (Option.map UploadBatch.veil)

namespace Veils

variable {u u' : Uploading}

theorem step (h : u.Veils u') {s s' : Step} (hs : s.Reworded s') :
    (u'.step s').1.veil = (u.step s).1.veil ∧ (u.step s).2.Veils (u'.step s').2 := by
  cases hs with
  | event he => exact ⟨h.net.answerEvent he,h.net.step he,h.batches⟩
  | same =>
    cases s with
    | act a => exact ⟨h.net.answerAct a,h.net.act a,h.batches⟩
    | attach m uploads =>
      obtain ⟨hn,hb⟩ := h.net.enlistAll m uploads
      refine ⟨rfl,hn,?_⟩
      simp only [Uploading.step, List.map_append, h.batches, List.map_cons, List.map_nil,
        Option.map_some, hb]
    | look i =>
      have hbatch := congrArg (·[i]?) h.batches
      simp only [List.getElem?_map] at hbatch
      unfold Uploading.step
      dsimp only
      obtain ⟨hb,hb'⟩ | ⟨b,b',hb,hb',hv⟩ := option_cases hbatch
      · rw [hb, hb']
        exact ⟨rfl,h⟩
      · rw [hb, hb']
        obtain ⟨rfl,rfl⟩ | ⟨b,b',rfl,rfl,hb⟩ := option_cases hv
        · exact ⟨rfl,h⟩
        · obtain ⟨hanswer,hn,hrest⟩ := h.net.lookBatch hb
          refine ⟨hanswer,hn,?_⟩
          dsimp only
          rw [List.map_set, List.map_set, h.batches, hrest]

theorem after (h : u.Veils u') {steps steps' : List Step}
    (hs : List.Forall₂ Step.Reworded steps steps') :
    (u.after steps).Veils (u'.after steps') := by
  induction hs generalizing u u' with
  | nil => exact h
  | cons hstep _ ih => exact ih (h.step hstep).2

theorem answers (h : u.Veils u') {steps steps' : List Step}
    (hs : List.Forall₂ Step.Reworded steps steps') :
    (u'.answers steps').map Answer.veil = (u.answers steps).map Answer.veil := by
  induction hs generalizing u u' with
  | nil => rfl
  | cons hstep _ ih =>
    obtain ⟨hanswer,hu⟩ := h.step hstep
    exact List.cons_eq_cons.mpr ⟨hanswer,ih hu⟩

/-! ### What is logged and measured -/

/-- A line that came in is quoted in the log by the part of the program that reads it, not by the
token library. -/
theorem log (h : u.Veils u') : u'.log = u.log := by
  have hforeign : ∀ level message fields,
      ofLibrary (LogEvent.ofNotice.stream level message fields) = false := by
    intro level message fields
    have htarget : "fileuploader_tokens::".toList.isPrefixOf LogEvent.streamTarget.toList =
        false := by decide +kernel
    exact htarget
  have hown : ∀ (shownPeer address : Nat → String) (notices : List Notice),
      (notices.filterMap (LogEvent.ofNotice shownPeer address)).filter ofLibrary =
        ((notices.filter Notice.isOwn).filterMap
          (LogEvent.ofNotice shownPeer address)).filter ofLibrary := by
    intro shownPeer address notices
    rw [List.filterMap_filter, List.filter_filterMap, List.filter_filterMap]
    refine List.filterMap_congr fun notice _ => ?_
    cases notice with
    | lineReceived p line => exact Option.filter_some_neg (hforeign _ _ _)
    | _ => rfl
  have hshown : (fun p => (u'.net.peer p).shown) = fun p => (u.net.peer p).shown :=
    funext fun p => (h.net.peer p).shown
  have hname : (fun p => (u'.net.peer p).name) = fun p => (u.net.peer p).name :=
    funext fun p => (h.net.peer p).name
  rw [Uploading.log, Uploading.log, hown, h.net.notices, ← hown, hshown, hname]

theorem metrics (h : u.Veils u') : u'.metrics = u.metrics := by
  have hown : ∀ notices : List Notice, notices.flatMap Metric.ofNotice =
      (notices.filter Notice.isOwn).flatMap Metric.ofNotice := by
    intro notices
    induction notices with
    | nil => rfl
    | cons notice notices ih =>
      rw [List.flatMap_cons, ih]
      cases notice <;> rfl
  rw [Uploading.metrics, Uploading.metrics, hown, h.net.notices, ← hown]

end Veils

/-- Other token texts of the same sizes change nothing in what the token library logs and measures,
and nothing in what it answers but the texts themselves. -/
theorem texts_stay_secret (peers : List Peer) (configs : List TokenConfig)
    {steps steps' : List Step} (h : List.Forall₂ Step.Reworded steps steps') :
    ((start peers configs).after steps').log = ((start peers configs).after steps).log ∧
    ((start peers configs).after steps').metrics = ((start peers configs).after steps).metrics ∧
    ((start peers configs).answers steps').map Answer.veil =
      ((start peers configs).answers steps).map Answer.veil := by
  have hstart : (start peers configs).Veils (start peers configs) := ⟨.refl _,rfl⟩
  have hafter := hstart.after h
  exact ⟨hafter.log,hafter.metrics,hstart.answers h⟩

/-- The first piece of a response is another one. The token that is got is then another one, too. -/
theorem other_piece_unnoticed :
    let steps (text : String) : List Step :=
      [.act (.event (.advertise 0 "EXTJWT" (some "1"))), .attach 0 [{ peer := 0 }],
        .act (.event (.turn ⟨0,0⟩)),
        .act (.event (.deliver 0 (.of "EXTJWT" ["*", "*", "*", text]))),
        .act (.event (.deliver 0 (.of "EXTJWT" ["*", "*", "c"]))),
        .act (.event (.turn ⟨0,0⟩)), .look 0]
    let u := start [{ name := "a" }] [{}]
    List.Forall₂ Step.Reworded (steps "ab") (steps "xy") ∧
    ((u.after (steps "ab")).net.manager 0).loader.cache.get? 0 = some ⟨"abc",0⟩ ∧
    ((u.after (steps "xy")).net.manager 0).loader.cache.get? 0 = some ⟨"xyc",0⟩ ∧
    (u.after (steps "ab")).log.map (·.message) =
      ["Loading item", "Received partial response", "Removing response listener",
        "Acquired token"] ∧
    (u.after (steps "xy")).log = (u.after (steps "ab")).log ∧
    (u.after (steps "xy")).metrics = (u.after (steps "ab")).metrics ∧
    (u.answers (steps "xy")).map Answer.veil = (u.answers (steps "ab")).map Answer.veil := by
  intro steps u
  have hpiece : Message.Reworded (.of "EXTJWT" ["*", "*", "*", "ab"])
      (.of "EXTJWT" ["*", "*", "*", "xy"]) := .inr ⟨by decide +kernel,"xy",by decide +kernel,rfl⟩
  have hsteps : List.Forall₂ Step.Reworded (steps "ab") (steps "xy") :=
    .cons (.same _) <| .cons (.same _) <| .cons (.same _) <|
      .cons (.event (.deliver 0 hpiece)) <| .cons (.same _) <| .cons (.same _) <|
        .cons (.same _) .nil
  exact ⟨hsteps,by decide +kernel,by decide +kernel,by decide +kernel,
    texts_stay_secret [{ name := "a" }] [{}] hsteps⟩

end Uploading

end ChatToken
