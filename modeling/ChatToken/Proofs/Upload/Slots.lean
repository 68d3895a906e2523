import ChatToken.Proofs.Upload.Taking
import ChatToken.Upload.Slots

/-! # Batches in three lists

The lists and the table of a batch that keeps no records stay aligned with the records, so nothing
that is read at a place is missing, and both come to the same.
-/
namespace ChatToken

theorem set_eq_modify {us : List Upload} {i : Nat} {u : Upload} (hu : us[i]? = some u)
    (f : Upload → Upload) : us.set i (f u) = us.modify i f := by
  rw [List.modify_eq_set_getElem?, hu]
  rfl

/-- The place of a connection is where its entry stands, which is the only one that is joined. -/
theorem set_joined {p : Nat} (index : Nat) {ws : List WaitingUploads}
    (hnodup : (ws.map (·.peer)).Nodup) {slot : Nat}
    (hslot : ws.findIdx? (·.peer == p) = some slot) :
    ∃ w, ws[slot]? = some w ∧ (ws.map (·.indices)).set slot (w.indices ++ [index]) =
      (ws.map (·.joined p index)).map (·.indices) := by
  induction ws generalizing slot with
  | nil => cases hslot
  | cons w ws ih =>
    rw [List.map_cons, List.nodup_cons] at hnodup
    obtain ⟨hw,hnodup⟩ := hnodup
    rw [List.findIdx?_cons] at hslot
    by_cases hpeer : w.peer = p
    · rw [if_pos (beq_iff_eq.mpr hpeer)] at hslot
      obtain rfl := Option.some.inj hslot
      have hrest := joined_of_not_mem index (p := p) (hpeer ▸ hw)
      refine ⟨w,rfl,?_⟩
      simp only [List.map_cons, List.set_cons_zero, joined_indices, if_pos hpeer, hrest]
    · rw [if_neg (mt beq_iff_eq.mp hpeer)] at hslot
      obtain ⟨k,hk,rfl⟩ := Option.map_eq_some_iff.mp hslot
      obtain ⟨w',hw',hset⟩ := ih hnodup hk
      refine ⟨w',hw',?_⟩
      simp only [List.map_cons, List.set_cons_succ, joined_indices, if_neg hpeer, hset]

def Founded (us : List Upload) (w : WaitingUploads) : Prop :=
  w.indices ≠ [] ∧ ∀ i ∈ w.indices, (us[i]?).map (·.peer) = some w.peer

theorem Founded.congr {us us' : List Upload} {w : WaitingUploads} (h : Founded us w)
    (hpeers : us'.map (·.peer) = us.map (·.peer)) : Founded us' w := by
  refine ⟨h.1,fun i hi => ?_⟩
  rw [← List.getElem?_map, hpeers, List.getElem?_map]
  exact h.2 i hi

namespace SlotBatch.Aligned

variable {s : SlotBatch} {b : UploadBatch}

/-- A connection has a place if and only if it is waited for. -/
theorem slot (hal : s.Aligned b) {p : Nat} :
    (b.isWaitedFor p = true → ∃ slot, s.slots.get? p = some slot) ∧
    (b.isWaitedFor p = false → s.slots.get? p = none) := by
  rw [hal.slots, UploadBatch.isWaitedFor]
  constructor
  · intro h
    exact Option.isSome_iff_exists.mp (List.findIdx?_isSome.trans h)
  · intro h
    rw [List.findIdx?_eq_none_iff]
    simpa using h

theorem join (hal : s.Aligned b) (hnodup : (b.waiting.map (·.peer)).Nodup) {p slot : Nat}
    (index : Nat) (hslot : s.slots.get? p = some slot) :
    ∃ s', s.join? slot index = some s' ∧ s'.Aligned (b.join p index) := by
  rw [hal.slots] at hslot
  obtain ⟨w,hw,hset⟩ := set_joined index hnodup hslot
  have hindices : s.waiting[slot]? = some w.indices := by
    rw [hal.waiting, List.getElem?_map, hw]
    rfl
  refine ⟨_,by rw [join?, hindices]; rfl,?_⟩
  exact {
    uploads := hal.uploads
    summary := hal.summary
    slots := by
      intro q
      rw [UploadBatch.join_waiting, List.findIdx?_map, hal.slots]
      simp [Function.comp_def]
    requests := by
      rw [UploadBatch.join_waiting, hal.requests]
      simp
    waiting := by
      rw [UploadBatch.join_waiting, hal.waiting]
      exact hset }

/-- Both take the next upload on in the same way. -/
theorem enlist (hal : s.Aligned b) (hnodup : (b.waiting.map (·.peer)).Nodup) {index : Nat}
    {u : Upload} (hu : b.uploads[index]? = some u) (m : Nat) (n : Network) :
    ∃ s', enlist? m (n,s) index = some ((UploadBatch.enlist m (n,b) index).1,s') ∧
      s'.Aligned (UploadBatch.enlist m (n,b) index).2 := by
  have hu' : s.uploads[index]? = some u := by rw [hal.uploads, hu]
  have he := UploadBatch.enlisted m n hu
  generalize UploadBatch.enlist m (n,b) index = r at he
  have hskipped : ({ s with summary := UploadBatch.skip s.summary 1 } : SlotBatch).Aligned
      { b with summary := UploadBatch.skip b.summary 1 } :=
    { hal with summary := congrArg (UploadBatch.skip · 1) hal.summary }
  cases he with
  | unadvertised hadv =>
    exact ⟨_,by simp [enlist?, hu', hadv],hskipped⟩
  | joined hadv hwaited =>
    obtain ⟨slot,hslot⟩ := hal.slot.1 hwaited
    obtain ⟨s',hs',hal'⟩ := hal.join hnodup index hslot
    exact ⟨s',by simp [enlist?, hu', hadv, hslot, hs'],hal'⟩
  | ready hadv hwaited hl =>
    have hslot := hal.slot.2 hwaited
    refine ⟨_,by simp [enlist?, hu', hadv, hslot, hl]; rfl,?_⟩
    refine { hal with uploads := ?_, summary := ?_ }
    · rw [set_eq_modify hu', hal.uploads]
    · rw [hal.summary]
  | unsupported hadv hwaited hl =>
    have hslot := hal.slot.2 hwaited
    exact ⟨_,by simp [enlist?, hu', hadv, hslot, hl],hskipped⟩
  | pending hadv hwaited hl =>
    have hslot := hal.slot.2 hwaited
    refine ⟨_,by simp [enlist?, hu', hadv, hslot, hl]; rfl,?_⟩
    refine { hal with slots := ?_, requests := ?_, waiting := ?_ }
    · intro p
      have hlength : s.requests.length = b.waiting.length := by rw [hal.requests, List.length_map]
      rw [Table.get?_insert, hlength, List.findIdx?_append, ← hal.slots]
      by_cases hp : u.peer = p
      · rw [if_pos hp, ← hp, hslot]
        simp
      · rw [if_neg hp]
        simp [hp]
    · simp [hal.requests]
    · simp [hal.waiting]

theorem observe_eq (n : Network) (ws : List WaitingUploads) :
    SlotBatch.observe n (ws.map fun w => (w.ref,w.outcome)) =
      ((UploadBatch.observe n ws).1,
        (UploadBatch.observe n ws).2.map fun w => (w.ref,w.outcome)) := by
  induction ws generalizing n with
  | nil => rfl
  | cons w ws ih =>
    cases ho : w.outcome <;>
      simp only [List.map_cons, SlotBatch.observe, UploadBatch.observe, ho, ih]

/-- What is seen of the loads is the same in both. -/
theorem seen (hal : s.Aligned b) (n : Network) :
    ({ s with requests := (SlotBatch.observe n s.requests).2 } : SlotBatch).Aligned
      { b with waiting := (UploadBatch.observe n b.waiting).2 } := by
  rw [hal.requests, observe_eq, UploadBatch.observe_eq]
  refine { hal with slots := fun p => ?_, requests := rfl, waiting := ?_ }
  · rw [hal.slots, List.findIdx?_map]
    rfl
  · rw [hal.waiting, List.map_map]
    rfl

/-- There are results to conclude with if and only if all loads have been seen to end. -/
theorem outcomes (hal : s.Aligned b) :
    match s.requests.mapM Prod.snd with
    | some outcomes => b.isResolved = true ∧ b.waiting.map (·.outcome) = outcomes.map some
    | none => b.isResolved = false := by
  rw [hal.requests, UploadBatch.isResolved]
  induction b.waiting with
  | nil => exact ⟨rfl,rfl⟩
  | cons w ws ih =>
    rw [List.map_cons, List.mapM_cons]
    cases ho : w.outcome with
    | none => simp [ho]
    | some o =>
      cases hrest : (ws.map fun w => (w.ref,w.outcome)).mapM Prod.snd with
      | none =>
        rw [hrest] at ih
        simp [ho, ih]
      | some outcomes =>
        rw [hrest] at ih
        simpa [ho] using ih

theorem attachAll (token : String) (indices : List Nat) (us : List Upload)
    (h : ∀ i ∈ indices, i < us.length) : indices.foldlM (attachAt? token) us =
      some (indices.foldl (fun us i => us.modify i (Upload.attach token)) us) := by
  induction indices generalizing us with
  | nil => rfl
  | cons i indices ih =>
    obtain ⟨hi,hindices⟩ := List.forall_mem_cons.mp h
    have hu : us[i]? = some us[i] := List.getElem?_eq_getElem hi
    have hattach : attachAt? token us i = some (us.modify i (Upload.attach token)) := by
      rw [← set_eq_modify hu]
      simp [attachAt?, hu]
    rw [List.foldlM_cons, hattach, List.foldl_cons]
    exact ih _ (by simpa using hindices)

/-- Both give the uploads that wait together the same. -/
theorem conclude (hal : s.Aligned b) {w : WaitingUploads} {o : Outcome} (ho : w.outcome = some o)
    (hw : Founded b.uploads w) (n : Network) :
    ∃ s', conclude? (n,s) (o,w.indices) = some ((UploadBatch.conclude (n,b) w).1,s') ∧
      s'.Aligned (UploadBatch.conclude (n,b) w).2 := by
  obtain ⟨hnonempty,hpeers⟩ := hw
  rw [← hal.uploads] at hpeers
  rcases o with e | _ | t
  · obtain ⟨first,hfirst⟩ : ∃ first, w.indices[0]? = some first :=
      ⟨_,List.getElem?_eq_getElem (List.length_pos_of_ne_nil hnonempty)⟩
    obtain ⟨u,hu,hpeer⟩ := Option.map_eq_some_iff.mp (hpeers first (List.mem_of_getElem? hfirst))
    refine ⟨_,by simp [conclude?, UploadBatch.conclude, ho, hfirst, hu, hpeer]; rfl,?_⟩
    simp only [UploadBatch.conclude, ho]
    exact { hal with summary := by rw [hal.summary] }
  · refine ⟨_,by simp [conclude?, UploadBatch.conclude, ho]; rfl,?_⟩
    simp only [UploadBatch.conclude, ho]
    exact { hal with summary := by rw [hal.summary] }
  · have hattached := attachAll t.value w.indices s.uploads fun i hi => by
      obtain ⟨u,hu,_⟩ := Option.map_eq_some_iff.mp (hpeers i hi)
      exact (List.getElem?_eq_some_iff.mp hu).1
    refine ⟨_,by simp [conclude?, UploadBatch.conclude, ho, hattached]; rfl,?_⟩
    simp only [UploadBatch.conclude, ho]
    exact { hal with uploads := by rw [hal.uploads], summary := by rw [hal.summary] }

theorem concludeAll (hal : s.Aligned b) {outcomes : List Outcome}
    (houtcomes : b.waiting.map (·.outcome) = outcomes.map some)
    (hw : ∀ w ∈ b.waiting, Founded b.uploads w) (n : Network) :
    ∃ s', concludeAll? n s outcomes = some ((UploadBatch.concludeAll n b).1,s') ∧
      s'.Aligned (UploadBatch.concludeAll n b).2 := by
  have hfold : ∀ (ws : List WaitingUploads) (outcomes : List Outcome) (n : Network)
      (s : SlotBatch) (b : UploadBatch), s.Aligned b → ws.map (·.outcome) = outcomes.map some →
      (∀ w ∈ ws, Founded b.uploads w) →
      ∃ s', (outcomes.zip (ws.map (·.indices))).foldlM conclude? (n,s) =
        some ((ws.foldl UploadBatch.conclude (n,b)).1,s') ∧
        s'.Aligned (ws.foldl UploadBatch.conclude (n,b)).2 := by
    intro ws
    induction ws with
    | nil =>
      intro outcomes n s b hal houtcomes _
      cases outcomes with
      | nil => exact ⟨s,rfl,hal⟩
      | cons => cases houtcomes
    | cons w ws ih =>
      intro outcomes n s b hal houtcomes hw
      cases outcomes with
      | nil => cases houtcomes
      | cons o outcomes =>
        obtain ⟨ho,houtcomes⟩ := List.cons.inj houtcomes
        obtain ⟨hw,hws⟩ := List.forall_mem_cons.mp hw
        obtain ⟨s',hs',hal'⟩ := hal.conclude ho hw n
        have hpeers : (UploadBatch.conclude (n,b) w).2.uploads.map (·.peer) =
            b.uploads.map (·.peer) := by
          rw [(UploadBatch.conclude_spec (n,b) w).2]
          exact UploadFate.settle_peers ..
        obtain ⟨s'',hs'',hal''⟩ := ih outcomes _ s' _ hal' houtcomes
          fun w hw => (hws w hw).congr hpeers
        refine ⟨s'',?_,hal''⟩
        rw [List.map_cons, List.zip_cons_cons, List.foldlM_cons, hs']
        exact hs''
  obtain ⟨s',hs',hal'⟩ := hfold b.waiting outcomes n s b hal houtcomes hw
  refine ⟨s',?_,hal'⟩
  rw [concludeAll?, hal.waiting, hs', UploadBatch.concludeAll]
  simp only [Option.bind_eq_bind, Option.bind_some, hal'.summary]

end SlotBatch.Aligned

namespace SlotAttaching.Aligned

open Attaching (Taking WaitsFor)

variable {n : Network} {m : Nat} {uploads : List Upload} {course : List Network.Event}
  {s : SlotAttaching} {a : Attaching} {done : List (Nat × UploadFate)}

theorem founded (h : Taking n m uploads course a done) :
    ∀ w ∈ a.batch.waiting, Founded a.batch.uploads w := by
  intro w hw
  obtain ⟨hnonempty,hpeers,_⟩ := h.waits w hw
  refine Founded.congr ⟨hnonempty,hpeers⟩ ?_
  rw [h.settled, UploadFate.settle_peers]

theorem enlist (hal : s.Aligned a) (h : Taking n m uploads course a done) :
    ∃ s', s.enlist? m = some s' ∧ s'.Aligned (a.enlist m) := by
  rw [enlist?, Attaching.enlist, hal.taken, hal.batch.uploads, hal.net]
  by_cases hlt : a.taken < a.batch.uploads.length
  · obtain ⟨b,hb,hal'⟩ := hal.batch.enlist h.peers (List.getElem?_eq_getElem hlt) m a.net
    rw [if_pos hlt, if_pos hlt, hb]
    exact ⟨_,rfl,⟨rfl,rfl,hal.isOver,hal'⟩⟩
  · rw [if_neg hlt, if_neg hlt]
    exact ⟨s,rfl,hal⟩

theorem look (hn : n.Orderly) (hal : s.Aligned a) (h : Taking n m uploads course a done) :
    ∃ s', s.look? = some s' ∧ s'.Aligned a.look := by
  rw [look?, Attaching.look, hal.taken, hal.batch.uploads, hal.net]
  by_cases hlt : a.taken < a.batch.uploads.length
  · rw [if_pos hlt, if_pos hlt]
    exact ⟨s,rfl,hal⟩
  · have hseen := h.observed hn
    have hal' := hal.batch.seen a.net
    have hnet : (SlotBatch.observe a.net s.batch.requests).1 =
        (UploadBatch.observe a.net a.batch.waiting).1 := by
      rw [hal.batch.requests, SlotBatch.Aligned.observe_eq]
    have hout := hal'.outcomes
    rw [if_neg hlt, if_neg hlt]
    dsimp only at hout ⊢
    rw [hnet]
    cases hmap : (SlotBatch.observe a.net s.batch.requests).2.mapM Prod.snd with
    | none =>
      rw [hmap] at hout
      rw [if_neg (Bool.not_eq_true _ ▸ hout)]
      exact ⟨_,rfl,⟨rfl,rfl,hal.isOver,hal'⟩⟩
    | some outcomes =>
      rw [hmap] at hout
      obtain ⟨b,hb,hal''⟩ := hal'.concludeAll hout.2 (founded hseen)
        (UploadBatch.observe a.net a.batch.waiting).1
      rw [if_pos hout.1]
      dsimp only
      rw [hb]
      exact ⟨_,rfl,⟨rfl,rfl,rfl,hal''⟩⟩

/-- One step of both. -/
theorem step (hn : n.Orderly) (hal : s.Aligned a) (h : Attaching.Sound n m uploads course a)
    (st : Attaching.Step) : ∃ s', s.step? m st = some s' ∧ s'.Aligned (a.step m st) := by
  obtain ⟨done,h | h⟩ := h
  · obtain ⟨hevent,henlist,hlook⟩ := Attaching.step_of_open (m := m) h.isOver
    have hopen : ¬ s.isOver = true := by
      rw [hal.isOver, h.isOver]
      exact Bool.false_ne_true
    cases st with
    | event e =>
      rw [(hevent e).1]
      exact ⟨_,if_neg hopen,{ hal with net := congrArg (·.step e) hal.net }⟩
    | enlist =>
      obtain ⟨s',hs',hal'⟩ := hal.enlist h
      rw [henlist]
      exact ⟨s',(if_neg hopen).trans hs',hal'⟩
    | look =>
      obtain ⟨s',hs',hal'⟩ := hal.look hn h
      rw [hlook]
      exact ⟨s',(if_neg hopen).trans hs',hal'⟩
  · rw [Attaching.step_of_over h.isOver]
    exact ⟨s,if_pos (hal.isOver.trans h.isOver),hal⟩

/-- A whole run of both: nothing that is read at a place is missing. -/
theorem after (hn : n.Orderly) (hal : s.Aligned a) (h : Attaching.Sound n m uploads course a)
    (steps : List Attaching.Step) :
    ∃ s', s.after? m steps = some s' ∧ s'.Aligned (a.after m steps) := by
  induction steps generalizing course s a with
  | nil => exact ⟨s,rfl,hal⟩
  | cons st steps ih =>
    obtain ⟨s₁,hs₁,hal₁⟩ := hal.step hn h st
    obtain ⟨s₂,hs₂,hal₂⟩ := ih hal₁ (h.step hn st)
    refine ⟨s₂,?_,hal₂⟩
    rw [after?, List.foldlM_cons, hs₁]
    exact hs₂

end SlotAttaching.Aligned

end ChatToken
