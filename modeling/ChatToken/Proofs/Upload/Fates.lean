import ChatToken.Proofs.Network.Agrees
import ChatToken.Proofs.Network.Outcomes
import ChatToken.Proofs.Table
import ChatToken.Upload.Run

/-! # Fates of uploads

What a batch has done to its uploads is told by a list of places with fates: the uploads at these
places have changed as their fates say, and the summary counts the fates. The parts of a batch that
look at loads and conclude add to such a list.
-/
namespace ChatToken

def AttachSummary.add (s s' : AttachSummary) : AttachSummary where
  attached := s.attached + s'.attached
  skipped := s.skipped + s'.skipped
  failed := s.failed + s'.failed

theorem AttachSummary.add_assoc (s s' s'' : AttachSummary) :
    (s.add s').add s'' = s.add (s'.add s'') := by
  simp [add, Nat.add_assoc]

namespace UploadFate

def apply : UploadFate → Upload → Upload
  | .attached token, u => u.attach token
  | _, u => u

def settle (uploads : List Upload) (done : List (Nat × UploadFate)) : List Upload :=
  done.foldl (fun us d => us.modify d.1 d.2.apply) uploads

variable {uploads : List Upload} {done : List (Nat × UploadFate)} {i : Nat} {f : UploadFate}

@[simp] theorem apply_peer (f : UploadFate) (u : Upload) : (f.apply u).peer = u.peer := by
  cases f <;> rfl

theorem leaves_apply (f : UploadFate) (u : Upload) : f.Leaves u (f.apply u) := by
  cases f with
  | attached token =>
    refine ⟨rfl,?_,fun key hkey => ?_⟩
    · exact (Table.get?_insert ..).trans (if_pos rfl)
    · exact (Table.get?_insert ..).trans (if_neg (Ne.symm hkey))
  | skipped | failed => rfl

@[simp] theorem apply_attached (token : String) : apply (.attached token) = Upload.attach token :=
  rfl

theorem settle_append (uploads : List Upload) (done more : List (Nat × UploadFate)) :
    settle uploads (done ++ more) = settle (settle uploads done) more := List.foldl_append

theorem settle_cons (uploads : List Upload) (d : Nat × UploadFate)
    (done : List (Nat × UploadFate)) :
    settle uploads (d :: done) = settle (uploads.modify d.1 d.2.apply) done := rfl

theorem settle_peers (uploads : List Upload) (done : List (Nat × UploadFate)) :
    (settle uploads done).map (·.peer) = uploads.map (·.peer) := by
  induction done generalizing uploads with
  | nil => rfl
  | cons d done ih => rw [settle_cons, ih, Network.map_modify_of_eq _ _ _ _ (apply_peer d.2)]

theorem settle_length (uploads : List Upload) (done : List (Nat × UploadFate)) :
    (settle uploads done).length = uploads.length := by
  have h := congrArg List.length (settle_peers uploads done)
  rwa [List.length_map, List.length_map] at h

theorem settle_of_not_mem (hi : i ∉ done.map Prod.fst) :
    (settle uploads done)[i]? = uploads[i]? := by
  induction done generalizing uploads with
  | nil => rfl
  | cons d done ih =>
    obtain ⟨hd,hdone⟩ := not_or.mp (mt List.mem_cons.mpr hi)
    rw [settle_cons, ih hdone, List.getElem?_modify_ne _ _ (Ne.symm hd)]

theorem settle_of_mem (hnodup : (done.map Prod.fst).Nodup) (hf : (i,f) ∈ done) :
    (settle uploads done)[i]? = uploads[i]?.map f.apply := by
  induction done generalizing uploads with
  | nil => cases hf
  | cons d done ih =>
    obtain ⟨hd,hnodup⟩ := List.nodup_cons.mp hnodup
    rw [settle_cons]
    rcases List.mem_cons.mp hf with rfl | hf
    · exact (settle_of_not_mem hd).trans (List.getElem?_modify_eq ..)
    · have hne : d.1 ≠ i := fun h => hd (h ▸ List.mem_map_of_mem hf)
      rw [ih hnodup hf, List.getElem?_modify_ne _ _ hne]

/-- Fates that are nothing but skipped or failed change no upload. -/
theorem settle_id (hf : f.apply = id) (indices : List Nat) :
    settle uploads (indices.map (·,f)) = uploads := by
  induction indices generalizing uploads with
  | nil => rfl
  | cons i indices ih => rw [List.map_cons, settle_cons, hf, List.modify_id, ih]

theorem tally_append (fs fs' : List UploadFate) : tally (fs ++ fs') = (tally fs).add (tally fs') := by
  simp [tally, AttachSummary.add, List.countP_append]

theorem tally_replicate (count : Nat) (f : UploadFate) : tally (List.replicate count f) =
    { attached := if f.isAttached then count else 0
      skipped := if f = .skipped then count else 0
      failed := if f = .failed then count else 0 } := by
  simp [tally, List.countP_replicate, List.count_replicate]

/-- Every fate is counted in one class. -/
theorem tally_total (fs : List UploadFate) :
    (tally fs).attached + (tally fs).skipped + (tally fs).failed = fs.length := by
  induction fs with
  | nil => rfl
  | cons f fs ih =>
    simp only [tally, List.countP_cons, List.count_cons, List.length_cons] at ih ⊢
    cases f <;> simp [isAttached] <;> omega

theorem tally_of_perm {fs fs' : List UploadFate} (h : fs.Perm fs') : tally fs = tally fs' := by
  rw [tally, tally, h.countP_eq, h.count_eq, h.count_eq]

/-- If each place has got one fate, they make up a list. -/
theorem exists_listed {count : Nat} (h : (done.map Prod.fst).Perm (List.range count)) :
    ∃ fates : List UploadFate, fates.length = count ∧ fates.Perm (done.map Prod.snd) ∧
      ∀ i f, fates[i]? = some f ↔ (i,f) ∈ done := by
  let t : Table Nat UploadFate := ⟨done,h.nodup_iff.mpr List.nodup_range⟩
  let fate : Nat → UploadFate := fun i => (t.get? i).getD .skipped
  have hfate : ∀ {i f}, (i,f) ∈ done → fate i = f := by
    intro i f hf
    have hget : t.get? i = some f := (t.mem_entries_iff i f).mp hf
    simp [fate, hget]
  have hsnd : done.map Prod.snd = (done.map Prod.fst).map fate := by
    rw [List.map_map]
    exact List.map_congr_left fun d hd => (hfate hd).symm
  refine ⟨(List.range count).map fate,by simp,hsnd ▸ (h.map fate).symm,fun i f => ?_⟩
  rw [List.getElem?_map, Option.map_eq_some_iff]
  constructor
  · rintro ⟨j,hj,rfl⟩
    obtain ⟨hlt,rfl⟩ := List.getElem?_eq_some_iff.mp hj
    rw [List.getElem_range]
    rw [List.length_range] at hlt
    have hi : i ∈ done.map Prod.fst := h.mem_iff.mpr (List.mem_range.mpr hlt)
    obtain ⟨⟨i,f⟩,hf,rfl⟩ := List.mem_map.mp hi
    rwa [hfate hf]
  · intro hf
    have hi : i < count := List.mem_range.mp (h.mem_iff.mp (List.mem_map_of_mem hf))
    exact ⟨i,by simp [hi],hfate hf⟩

end UploadFate

def WaitingUploads.fates (w : WaitingUploads) : List (Nat × UploadFate) :=
  w.indices.map (·,(w.outcome.map UploadFate.ofOutcome).getD .skipped)

theorem fates_places (ws : List WaitingUploads) :
    (ws.flatMap (·.fates)).map Prod.fst = ws.flatMap (·.indices) := by
  rw [List.map_flatMap]
  congr
  funext w
  simp [WaitingUploads.fates, Function.comp_def]

def WaitingUploads.seen (n : Network) (w : WaitingUploads) : WaitingUploads :=
  { w with outcome := w.outcome.or ((n.ending? w.ref).map Ending.outcome) }

def WaitingUploads.joined (p index : Nat) (w : WaitingUploads) : WaitingUploads :=
  if w.peer = p then { w with indices := w.indices ++ [index] } else w

section
variable (p index : Nat) (w : WaitingUploads)

@[simp] theorem joined_peer : (w.joined p index).peer = w.peer := by
  unfold WaitingUploads.joined
  split <;> rfl

@[simp] theorem joined_ref : (w.joined p index).ref = w.ref := by
  unfold WaitingUploads.joined
  split <;> rfl

@[simp] theorem joined_outcome : (w.joined p index).outcome = w.outcome := by
  unfold WaitingUploads.joined
  split <;> rfl

theorem joined_indices : (w.joined p index).indices =
    if w.peer = p then w.indices ++ [index] else w.indices := by
  unfold WaitingUploads.joined
  split <;> rfl

end

theorem joined_peers (p index : Nat) (ws : List WaitingUploads) :
    (ws.map (·.joined p index)).map (·.peer) = ws.map (·.peer) := by
  simp [Function.comp_def]

/-- Without an entry of the connection there is none to join. -/
theorem joined_of_not_mem {p : Nat} (index : Nat) {ws : List WaitingUploads}
    (hp : p ∉ ws.map (·.peer)) : ws.map (·.joined p index) = ws := by
  have h : ws.map (·.joined p index) = ws.map id :=
    List.map_congr_left fun w hw => if_neg fun hpeer => hp (List.mem_map.mpr ⟨w,hw,hpeer⟩)
  rw [h, List.map_id]

/-- An upload that joins stands at one place, because each connection has one entry. -/
theorem joined_perm {p : Nat} (index : Nat) {ws : List WaitingUploads}
    (hnodup : (ws.map (·.peer)).Nodup) (hp : p ∈ ws.map (·.peer)) :
    ((ws.map (·.joined p index)).flatMap (·.indices)).Perm
      (ws.flatMap (·.indices) ++ [index]) := by
  induction ws with
  | nil => cases hp
  | cons w ws ih =>
    obtain ⟨hw,hnodup⟩ := List.nodup_cons.mp hnodup
    rw [List.map_cons, List.flatMap_cons, List.flatMap_cons, joined_indices]
    by_cases hpeer : w.peer = p
    · rw [if_pos hpeer, joined_of_not_mem index (hpeer ▸ hw), List.append_assoc,
        List.append_assoc]
      exact List.perm_append_comm.append_left _
    · have hin : p ∈ ws.map (·.peer) :=
        (List.mem_cons.mp hp).resolve_left (Ne.symm hpeer)
      rw [if_neg hpeer, List.append_assoc]
      exact (ih hnodup hin).append_left _

namespace UploadBatch

open UploadFate (settle tally)

variable {n : Network}

theorem isWaitedFor_iff {b : UploadBatch} {p : Nat} :
    b.isWaitedFor p = true ↔ p ∈ b.waiting.map (·.peer) := by
  simp [isWaitedFor]

theorem join_waiting (b : UploadBatch) (p index : Nat) :
    (b.join p index).waiting = b.waiting.map (·.joined p index) := rfl

/-- A batch that looks at its loads does it by looks that are events, and tells what they have ended
with. -/
theorem observe_eq (n : Network) (ws : List WaitingUploads) :
    observe n ws = (n.after ((ws.filter (·.outcome.isNone)).map fun w => .observe w.ref),
      ws.map (·.seen n)) := by
  induction ws generalizing n with
  | nil => rfl
  | cons w ws ih =>
    cases ho : w.outcome with
    | some o =>
      have hseen : w.seen n = { w with outcome := some o } := by simp [WaitingUploads.seen, ho]
      simp [observe, ho, ih, hseen]
    | none =>
      -- a look leaves the endings of all loads as they are
      have hlooked : WaitingUploads.seen (n.observe w.ref).2 = WaitingUploads.seen n := by
        funext w'
        rw [WaitingUploads.seen, (Network.Agrees.observe n w.ref).ending?, WaitingUploads.seen]
      have hseen : w.seen n = { w with outcome := (n.observe w.ref).1 } := by
        rw [WaitingUploads.seen, ho, Option.none_or, Network.observe_outcome]
      simp only [observe, ho, ih, hlooked, hseen, List.filter_cons, Option.isNone_none, if_true,
        List.map_cons, Network.after_cons]
      rfl

/-- The looks of a batch change nothing but what was reported. -/
theorem observe_agrees (n : Network) (ws : List WaitingUploads) : n.Agrees (observe n ws).1 := by
  induction ws generalizing n with
  | nil => exact .refl n
  | cons w ws ih =>
    cases ho : w.outcome with
    | some o => simpa only [observe, ho] using ih n
    | none => simpa only [observe, ho] using (Network.Agrees.observe n w.ref).trans (ih _)

inductive Enlisted (m : Nat) (n : Network) (b : UploadBatch) (index : Nat) (u : Upload) :
    Network × UploadBatch → Prop where
  | unadvertised : advertisesTokens (n.peer u.peer) = false →
      Enlisted m n b index u (n,{ b with summary := skip b.summary 1 })
  | joined : advertisesTokens (n.peer u.peer) = true → b.isWaitedFor u.peer = true →
      Enlisted m n b index u (n,b.join u.peer index)
  | ready {t : Token} {n' : Network} : advertisesTokens (n.peer u.peer) = true →
      b.isWaitedFor u.peer = false → n.lookup m u.peer = (.ready t,n') →
      Enlisted m n b index u (n',{ b with
        uploads := b.uploads.modify index (Upload.attach t.value)
        summary := { b.summary with attached := b.summary.attached + 1 } })
  | unsupported {n' : Network} : advertisesTokens (n.peer u.peer) = true →
      b.isWaitedFor u.peer = false → n.lookup m u.peer = (.unsupported,n') →
      Enlisted m n b index u (n',{ b with summary := skip b.summary 1 })
  | pending {ref : LoadRef} {n' : Network} : advertisesTokens (n.peer u.peer) = true →
      b.isWaitedFor u.peer = false → n.lookup m u.peer = (.pending ref,n') →
      Enlisted m n b index u
        (n',{ b with waiting := b.waiting ++ [{ peer := u.peer, ref, indices := [index] }] })

theorem enlisted (m : Nat) (n : Network) {b : UploadBatch} {index : Nat} {u : Upload}
    (hu : b.uploads[index]? = some u) : Enlisted m n b index u (enlist m (n,b) index) := by
  unfold enlist
  simp only [hu]
  cases hadv : advertisesTokens (n.peer u.peer) with
  | false => exact .unadvertised hadv
  | true =>
    cases hwaited : b.isWaitedFor u.peer with
    | true => exact .joined hadv hwaited
    | false =>
      rcases hl : n.lookup m u.peer with ⟨t | _ | ref,n'⟩
      · exact .ready hadv hwaited hl
      · exact .unsupported hadv hwaited hl
      · exact .pending hadv hwaited hl

theorem agrees_note (n : Network) (notices : List Notice) : n.Agrees (n.note notices) :=
  ⟨rfl,rfl,rfl,rfl,rfl,rfl,rfl⟩

/-- A batch that concludes gives the uploads that wait together their fates, and changes the network
by a report only. -/
theorem conclude_spec (s : Network × UploadBatch) (w : WaitingUploads) :
    s.1.Agrees (conclude s w).1 ∧
    (conclude s w).2 = { s.2 with
      uploads := settle s.2.uploads w.fates
      summary := s.2.summary.add (tally (w.fates.map Prod.snd)) } := by
  obtain ⟨n,b⟩ := s
  have hfates : ∀ {f : UploadFate}, (w.outcome.map UploadFate.ofOutcome).getD .skipped = f →
      w.fates = w.indices.map (·,f) ∧
      w.fates.map Prod.snd = List.replicate w.indices.length f := by
    rintro f rfl
    simp [WaitingUploads.fates, Function.comp_def]
  rcases ho : w.outcome with _ | (e | _ | t)
  · obtain ⟨hf,hcount⟩ := hfates (f := .skipped) (by rw [ho]; rfl)
    rw [hcount, hf, UploadFate.tally_replicate, UploadFate.settle_id rfl]
    simp [conclude, ho, skip, UploadFate.isAttached, AttachSummary.add, Network.Agrees.refl]
  · obtain ⟨hf,hcount⟩ := hfates (f := .failed) (by rw [ho]; rfl)
    rw [hcount, hf, UploadFate.tally_replicate, UploadFate.settle_id rfl]
    simp [conclude, ho, UploadFate.isAttached, AttachSummary.add, agrees_note]
  · obtain ⟨hf,hcount⟩ := hfates (f := .skipped) (by rw [ho]; rfl)
    rw [hcount, hf, UploadFate.tally_replicate, UploadFate.settle_id rfl]
    simp [conclude, ho, skip, UploadFate.isAttached, AttachSummary.add, Network.Agrees.refl]
  · obtain ⟨hf,hcount⟩ := hfates (f := .attached t.value) (by rw [ho]; rfl)
    rw [hcount, hf, UploadFate.tally_replicate, settle, List.foldl_map]
    simp [conclude, ho, UploadFate.isAttached, AttachSummary.add, Network.Agrees.refl]

/-- A batch that ends gives all uploads that wait their fates. -/
theorem concludeAll_spec (n : Network) (b : UploadBatch) :
    n.Agrees (concludeAll n b).1 ∧
    (concludeAll n b).2 = { b with
      uploads := settle b.uploads (b.waiting.flatMap (·.fates))
      summary := b.summary.add (tally ((b.waiting.flatMap (·.fates)).map Prod.snd)) } := by
  have hfold : ∀ (ws : List WaitingUploads) (s : Network × UploadBatch),
      s.1.Agrees (ws.foldl conclude s).1 ∧
      (ws.foldl conclude s).2 = { s.2 with
        uploads := settle s.2.uploads (ws.flatMap (·.fates))
        summary := s.2.summary.add (tally ((ws.flatMap (·.fates)).map Prod.snd)) } := by
    intro ws
    induction ws with
    | nil => exact fun s => ⟨.refl _,rfl⟩
    | cons w ws ih =>
      intro s
      obtain ⟨hnet,hbatch⟩ := conclude_spec s w
      obtain ⟨hnet',hbatch'⟩ := ih (conclude s w)
      refine ⟨hnet.trans hnet',?_⟩
      rw [List.foldl_cons, hbatch', hbatch]
      simp [UploadFate.settle_append, UploadFate.tally_append, AttachSummary.add_assoc]
  obtain ⟨hnet,hbatch⟩ := hfold b.waiting (n,b)
  exact ⟨hnet.trans (agrees_note _ _),hbatch⟩

end UploadBatch

end ChatToken
