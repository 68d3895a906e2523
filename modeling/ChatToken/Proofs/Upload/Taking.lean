import ChatToken.Proofs.Upload.Fates

/-! # Batches in the middle of their work

Every upload that a batch has taken on either has got its fate or waits, at one place only, for a
load of its connection that a lookup has come to. A batch that is over has given their fates to those
that waited as well.
-/
namespace ChatToken.Attaching

open Network (Event)
open UploadBatch (advertisesTokens Enlisted)
open UploadFate (settle tally Told)

/-! ## What a step does -/

section
variable (m : Nat) (a : Attaching)

def observed : Attaching :=
  { a with
    net := (UploadBatch.observe a.net a.batch.waiting).1
    batch := { a.batch with waiting := (UploadBatch.observe a.net a.batch.waiting).2 } }

def concluded : Attaching :=
  { a with
    net := (UploadBatch.concludeAll a.net a.batch).1
    batch := (UploadBatch.concludeAll a.net a.batch).2
    isOver := true }

inductive Took : Attaching → Prop where
  | none : a.batch.uploads.length ≤ a.taken → Took a
  | next {u : Upload} {r : Network × UploadBatch} : a.next? = some u →
      Enlisted m a.net a.batch a.taken u r →
      Took { a with net := r.1, batch := r.2, taken := a.taken + 1 }

inductive Looked : Attaching → Prop where
  | early : a.taken < a.batch.uploads.length → Looked a
  | waits : a.batch.uploads.length ≤ a.taken → a.observed.batch.isResolved = false →
      Looked a.observed
  | ends : a.batch.uploads.length ≤ a.taken → a.observed.batch.isResolved = true →
      Looked a.observed.concluded

theorem took : Took m a (a.enlist m) := by
  rw [enlist]
  split
  · next hlt => exact .next (List.getElem?_eq_getElem hlt) (UploadBatch.enlisted m a.net
      (List.getElem?_eq_getElem hlt))
  · next hall => exact .none (Nat.not_lt.mp hall)

theorem looked : Looked a a.look := by
  rw [look]
  split
  · next hlt => exact .early hlt
  · next hall =>
    dsimp only
    split
    · next hresolved => exact .ends (Nat.not_lt.mp hall) hresolved
    · next hwaits => exact .waits (Nat.not_lt.mp hall) (Bool.eq_false_iff.mpr hwaits)

variable {m a}

theorem after_append (xs ys : List Step) : a.after m (xs ++ ys) = (a.after m xs).after m ys :=
  List.foldl_append

theorem step_of_over (h : a.isOver = true) (s : Step) : a.step m s = a := if_pos h

theorem events_of_over (h : a.isOver = true) (s : Step) : a.events m s = [] := if_pos h

/-- What a step does that is not behind the end. -/
theorem step_of_open (h : a.isOver = false) :
    (∀ e, a.step m (.event e) = { a with net := a.net.step e } ∧ a.events m (.event e) = [e]) ∧
    a.step m .enlist = a.enlist m ∧ a.step m .look = a.look := by
  simp [step, events, h]

end

/-! ## What is known of a batch -/

/-- The uploads of `w` wait for the load of their connection that a lookup during `course` has come
to. What the batch has seen of it is what it has ended with. -/
structure WaitsFor (n : Network) (m : Nat) (uploads : List Upload) (course : List Event)
    (w : WaitingUploads) : Prop where
  nonempty : w.indices ≠ []
  peers : ∀ i ∈ w.indices, (uploads[i]?).map (·.peer) = some w.peer
  asked : ∃ es, es ++ [.lookup m w.peer] <+: course ∧
    advertisesTokens ((n.after es).peer w.peer) = true ∧
    ((n.after es).lookup m w.peer).1 = .pending w.ref
  outcome : ∀ o, w.outcome = some o →
    ∃ ending, (n.after course).ending? w.ref = some ending ∧ ending.outcome = o

/-- A batch that has taken some of its uploads on. Those at the places in `done` have got their
fates, and the others wait. -/
structure Taking (n : Network) (m : Nat) (uploads : List Upload) (course : List Event)
    (a : Attaching) (done : List (Nat × UploadFate)) : Prop where
  isOver : a.isOver = false
  net : a.net = n.after course
  taken : a.taken ≤ uploads.length
  places : (done.map Prod.fst ++ a.batch.waiting.flatMap (·.indices)).Perm (List.range a.taken)
  summary : a.batch.summary = tally (done.map Prod.snd)
  settled : a.batch.uploads = settle uploads done
  told : ∀ i f, (i,f) ∈ done → ∀ u, uploads[i]? = some u → Told n m u.peer course f
  peers : (a.batch.waiting.map (·.peer)).Nodup
  waits : ∀ w ∈ a.batch.waiting, WaitsFor n m uploads course w

structure Concluded (n : Network) (m : Nat) (uploads : List Upload) (course : List Event)
    (a : Attaching) (done : List (Nat × UploadFate)) : Prop where
  isOver : a.isOver = true
  net : (n.after course).Agrees a.net
  places : (done.map Prod.fst).Perm (List.range uploads.length)
  summary : a.batch.summary = tally (done.map Prod.snd)
  settled : a.batch.uploads = settle uploads done
  told : ∀ i f, (i,f) ∈ done → (∀ u, uploads[i]? = some u → Told n m u.peer course f) ∨
    ∃ w ∈ a.batch.waiting, i ∈ w.indices
  peers : (a.batch.waiting.map (·.peer)).Nodup
  waits : ∀ w ∈ a.batch.waiting, WaitsFor n m uploads course w
  ended : ∀ w ∈ a.batch.waiting, ∃ ending, (n.after course).ending? w.ref = some ending ∧
    ∀ i ∈ w.indices, (i,.ofOutcome ending.outcome) ∈ done

variable {n : Network} {m p : Nat} {uploads : List Upload} {course : List Event} {a : Attaching}
  {done : List (Nat × UploadFate)}

theorem told_append {f : UploadFate} (h : Told n m p course f) (more : List Event) :
    Told n m p (course ++ more) f := by
  have hwithin : ∀ {es}, es <+: course → es <+: course ++ more :=
    fun h => h.trans (List.prefix_append _ _)
  cases h with
  | unadvertised he hadv => exact .unadvertised (hwithin he) hadv
  | unsupported he hadv hl => exact .unsupported (hwithin he) hadv hl
  | ready he hadv hl => exact .ready (hwithin he) hadv hl

theorem WaitsFor.append (hn : n.Orderly) {w : WaitingUploads}
    (h : WaitsFor n m uploads course w) (more : List Event) :
    WaitsFor n m uploads (course ++ more) w where
  nonempty := h.nonempty
  peers := h.peers
  asked := by
    obtain ⟨es,he,hadv,hl⟩ := h.asked
    exact ⟨es,he.trans (List.prefix_append _ _),hadv,hl⟩
  outcome o ho := by
    obtain ⟨ending,he,heo⟩ := h.outcome o ho
    rw [Network.after_append]
    exact ⟨ending,Network.after_ending (hn.after course) more he,heo⟩

theorem taking_of (n : Network) (m : Nat) (uploads : List Upload) :
    Taking n m uploads [] (of n uploads) [] where
  isOver := rfl
  net := rfl
  taken := Nat.zero_le _
  places := .nil
  summary := rfl
  settled := rfl
  told _ _ h := by cases h
  peers := List.nodup_nil
  waits _ h := by cases h

theorem Taking.event (hn : n.Orderly) (h : Taking n m uploads course a done) (e : Event) :
    Taking n m uploads (course ++ [e]) { a with net := a.net.step e } done where
  isOver := h.isOver
  net := by rw [h.net, Network.after_concat]
  taken := h.taken
  places := h.places
  summary := h.summary
  settled := h.settled
  told i f hf u hu := told_append (h.told i f hf u hu) [e]
  peers := h.peers
  waits w hw := (h.waits w hw).append hn [e]

theorem Taking.length_eq (h : Taking n m uploads course a done) :
    a.batch.uploads.length = uploads.length := by rw [h.settled, UploadFate.settle_length]

/-- The upload that is taken on next has not changed. -/
theorem Taking.next (h : Taking n m uploads course a done) : a.next? = uploads[a.taken]? := by
  rw [next?, h.settled]
  refine UploadFate.settle_of_not_mem fun hmem => ?_
  have hlt := h.places.mem_iff.mp (List.mem_append_left _ hmem)
  exact Nat.lt_irrefl _ (List.mem_range.mp hlt)

/-- The next upload gets its fate at once. -/
theorem Taking.tell (hn : n.Orderly) (h : Taking n m uploads course a done) {u : Upload}
    (hu : uploads[a.taken]? = some u) (more : List Event) {f : UploadFate}
    (hf : Told n m u.peer (course ++ more) f) {net : Network}
    (hnet : net = n.after (course ++ more)) {batch : UploadBatch}
    (huploads : batch.uploads = settle a.batch.uploads [(a.taken,f)])
    (hsummary : batch.summary = a.batch.summary.add (tally [f]))
    (hwaiting : batch.waiting = a.batch.waiting) :
    Taking n m uploads (course ++ more)
      { a with net, batch, taken := a.taken + 1 } (done ++ [(a.taken,f)]) where
  isOver := h.isOver
  net := hnet
  taken := (List.getElem?_eq_some_iff.mp hu).1
  places := by
    dsimp only
    rw [hwaiting, List.map_append, List.append_assoc, List.range_succ]
    refine (List.perm_append_comm.append_left _).trans ?_
    rw [← List.append_assoc]
    exact h.places.append_right _
  summary := by
    rw [List.map_append, UploadFate.tally_append, ← h.summary]
    exact hsummary
  settled := by rw [huploads, h.settled, UploadFate.settle_append]
  told i f' hf' u' hu' := by
    rcases List.mem_append.mp hf' with hf' | hf'
    · exact told_append (h.told i f' hf' u' hu') more
    · cases List.mem_singleton.mp hf'
      obtain rfl := Option.some.inj (hu.symm.trans hu')
      exact hf
  peers := by rw [hwaiting]; exact h.peers
  waits w hw := (h.waits w (hwaiting ▸ hw)).append hn more

/-- The next upload waits with others of its connection. -/
theorem Taking.join (h : Taking n m uploads course a done) {u : Upload}
    (hu : uploads[a.taken]? = some u) (hwaited : a.batch.isWaitedFor u.peer = true) :
    Taking n m uploads course
      { a with batch := a.batch.join u.peer a.taken, taken := a.taken + 1 } done where
  isOver := h.isOver
  net := h.net
  taken := (List.getElem?_eq_some_iff.mp hu).1
  places := by
    have hjoined := joined_perm a.taken h.peers (UploadBatch.isWaitedFor_iff.mp hwaited)
    refine (hjoined.append_left _).trans ?_
    rw [← List.append_assoc, List.range_succ]
    exact h.places.append_right _
  summary := h.summary
  settled := h.settled
  told := h.told
  peers := by
    rw [UploadBatch.join_waiting, joined_peers]
    exact h.peers
  waits w hw := by
    rw [UploadBatch.join_waiting] at hw
    obtain ⟨w₀,hw₀,rfl⟩ := List.mem_map.mp hw
    obtain ⟨hnonempty,hpeers,hasked,houtcome⟩ := h.waits w₀ hw₀
    refine ⟨?_,?_,by simpa using hasked,by simpa using houtcome⟩
    · rw [joined_indices]
      split
      · exact List.append_ne_nil_of_left_ne_nil hnonempty _
      · exact hnonempty
    · intro i hi
      rw [joined_peer]
      rw [joined_indices] at hi
      split at hi
      · next hpeer =>
        rcases List.mem_append.mp hi with hi | hi
        · exact hpeers i hi
        · rw [List.mem_singleton.mp hi, hu, hpeer]
          rfl
      · exact hpeers i hi

/-- The next upload is the first to wait for a load of its connection. -/
theorem Taking.wait (hn : n.Orderly) (h : Taking n m uploads course a done) {u : Upload}
    (hu : uploads[a.taken]? = some u) (hadv : advertisesTokens (a.net.peer u.peer) = true)
    (hwaited : a.batch.isWaitedFor u.peer = false) {ref : LoadRef} {net : Network}
    (hl : a.net.lookup m u.peer = (.pending ref,net)) :
    Taking n m uploads (course ++ [.lookup m u.peer])
      { a with
        net
        batch := { a.batch with
          waiting := a.batch.waiting ++ [{ peer := u.peer, ref, indices := [a.taken] }] }
        taken := a.taken + 1 } done where
  isOver := h.isOver
  net := by
    rw [Network.after_concat, ← h.net, Network.step, hl]
  taken := (List.getElem?_eq_some_iff.mp hu).1
  places := by
    rw [List.flatMap_append, ← List.append_assoc, List.range_succ]
    exact h.places.append_right _
  summary := h.summary
  settled := h.settled
  told i f hf u hu := told_append (h.told i f hf u hu) _
  peers := by
    have hnot := mt UploadBatch.isWaitedFor_iff.mpr (Bool.not_eq_true _ ▸ hwaited)
    rw [List.map_append, List.nodup_append]
    refine ⟨h.peers,List.nodup_singleton _,?_⟩
    rintro p hp _ hp' rfl
    have hpeer : p = u.peer := List.mem_singleton.mp hp'
    exact hnot (hpeer ▸ hp)
  waits w hw := by
    rcases List.mem_append.mp hw with hw | hw
    · exact (h.waits w hw).append hn _
    · obtain rfl := List.mem_singleton.mp hw
      refine ⟨by simp,by simp [hu],⟨course,List.prefix_rfl,?_,?_⟩,by simp⟩
      · rw [← h.net]
        exact hadv
      · rw [← h.net, hl]

/-- A batch takes its next upload on, if there is one. -/
theorem Taking.enlist (hn : n.Orderly) (h : Taking n m uploads course a done) :
    ∃ done', Taking n m uploads (course ++ a.events m .enlist) (a.enlist m) done' := by
  have hevents : a.events m .enlist =
      (a.next?.filter a.looksUp).toList.map fun u => .lookup m u.peer := by
    rw [events, h.isOver]
    rfl
  have hlooked : ∀ {p : Nat} {x : TokenLookup} {net : Network}, a.net.lookup m p = (x,net) →
      net = n.after (course ++ [.lookup m p]) := by
    intro p x net hl
    rw [Network.after_concat, ← h.net, Network.step, hl]
  have ht := took m a
  rw [hevents]
  generalize a.enlist m = a' at ht
  cases ht with
  | none hall =>
    rw [next?, List.getElem?_eq_none hall]
    exact ⟨done,(List.append_nil course).symm ▸ h⟩
  | next hnext he =>
    have hu := h.next.symm.trans hnext
    rw [hnext, Option.filter_some, looksUp]
    cases he with
    | unadvertised hadv =>
      rw [hadv]
      refine ⟨_,h.tell hn hu [] (f := .skipped) ?_ ?_ ?_ rfl rfl⟩
      · rw [h.net] at hadv
        exact .unadvertised (List.prefix_append _ _) hadv
      · rw [List.append_nil, h.net]
      · exact (UploadFate.settle_id rfl [a.taken]).symm
    | joined hadv hwaited =>
      rw [hadv, hwaited]
      exact ⟨_,(List.append_nil course).symm ▸ h.join hu hwaited⟩
    | @ready t net hadv hwaited hl =>
      rw [hadv, hwaited]
      refine ⟨_,h.tell hn hu _ (f := .attached t.value) ?_ (hlooked hl) rfl rfl rfl⟩
      rw [h.net] at hadv hl
      exact .ready (List.prefix_append _ _) hadv (congrArg Prod.fst hl)
    | unsupported hadv hwaited hl =>
      rw [hadv, hwaited]
      refine ⟨_,h.tell hn hu _ (f := .skipped) ?_ (hlooked hl) ?_ rfl rfl⟩
      · rw [h.net] at hadv hl
        exact .unsupported (List.prefix_append _ _) hadv (congrArg Prod.fst hl)
      · exact (UploadFate.settle_id rfl [a.taken]).symm
    | pending hadv hwaited hl =>
      rw [hadv, hwaited]
      exact ⟨_,h.wait hn hu hadv hwaited hl⟩

/-- The batch looks at the loads that it waits for. -/
theorem Taking.observed (hn : n.Orderly) (h : Taking n m uploads course a done) :
    Taking n m uploads
      (course ++ (a.batch.waiting.filter (·.outcome.isNone)).map fun w => .observe w.ref)
      a.observed done := by
  rw [Attaching.observed, UploadBatch.observe_eq]
  exact {
    isOver := h.isOver
    net := by rw [Network.after_append, h.net]
    taken := h.taken
    places := by
      rw [List.flatMap_map]
      exact h.places
    summary := h.summary
    settled := h.settled
    told := fun i f hf u hu => told_append (h.told i f hf u hu) _
    peers := by
      rw [List.map_map]
      exact h.peers
    waits := by
      intro w hw
      obtain ⟨w₀,hw₀,rfl⟩ := List.mem_map.mp hw
      obtain ⟨hnonempty,hpeers,hasked,houtcome⟩ := (h.waits w₀ hw₀).append hn _
      refine ⟨hnonempty,hpeers,hasked,fun o ho => ?_⟩
      rcases Option.or_eq_some_iff.mp ho with ho | ⟨_,ho⟩
      · exact houtcome o ho
      · obtain ⟨ending,he,rfl⟩ := Option.map_eq_some_iff.mp ho
        rw [h.net] at he
        refine ⟨ending,?_,rfl⟩
        rw [Network.after_append]
        exact Network.after_ending (hn.after course) _ he }

/-- The batch ends. -/
theorem Taking.concluded (h : Taking n m uploads course a done) (hall : a.taken = uploads.length)
    (hresolved : a.batch.isResolved = true) :
    Concluded n m uploads course a.concluded (done ++ a.batch.waiting.flatMap (·.fates)) := by
  obtain ⟨hnet,hbatch⟩ := UploadBatch.concludeAll_spec a.net a.batch
  rw [Attaching.concluded, hbatch]
  exact {
    isOver := rfl
    net := h.net ▸ hnet
    places := by
      rw [List.map_append, fates_places, ← hall]
      exact h.places
    summary := by rw [List.map_append, UploadFate.tally_append, ← h.summary]
    settled := by rw [UploadFate.settle_append, ← h.settled]
    told := by
      intro i f hf
      rcases List.mem_append.mp hf with hf | hf
      · exact .inl (h.told i f hf)
      · obtain ⟨w,hw,hf⟩ := List.mem_flatMap.mp hf
        obtain ⟨j,hj,hij⟩ := List.mem_map.mp hf
        cases hij
        exact .inr ⟨w,hw,hj⟩
    peers := h.peers
    waits := h.waits
    ended := by
      intro w hw
      obtain ⟨o,ho⟩ := Option.isSome_iff_exists.mp (List.all_eq_true.mp hresolved w hw)
      obtain ⟨ending,he,rfl⟩ := (h.waits w hw).outcome o ho
      refine ⟨ending,he,fun i hi => List.mem_append_right _ (List.mem_flatMap.mpr ⟨w,hw,?_⟩)⟩
      rw [WaitingUploads.fates, ho]
      exact List.mem_map_of_mem hi }

def Sound (n : Network) (m : Nat) (uploads : List Upload) (course : List Event)
    (a : Attaching) : Prop :=
  ∃ done, Taking n m uploads course a done ∨ Concluded n m uploads course a done

theorem Taking.look (hn : n.Orderly) (h : Taking n m uploads course a done) :
    Sound n m uploads (course ++ a.events m .look) a.look := by
  have hseen := h.observed hn
  have hl := a.looked
  rw [events, h.isOver, if_neg Bool.false_ne_true]
  generalize a.look = a' at hl
  cases hl with
  | early hlt =>
    rw [if_pos hlt, List.append_nil]
    exact ⟨done,.inl h⟩
  | waits hall _ =>
    rw [if_neg (Nat.not_lt.mpr hall)]
    exact ⟨done,.inl hseen⟩
  | ends hall hresolved =>
    rw [if_neg (Nat.not_lt.mpr hall)]
    exact ⟨_,.inr (hseen.concluded (Nat.le_antisymm h.taken (h.length_eq ▸ hall)) hresolved)⟩

/-- One step of a batch or of the network. -/
theorem Sound.step (hn : n.Orderly) (h : Sound n m uploads course a) (s : Step) :
    Sound n m uploads (course ++ a.events m s) (a.step m s) := by
  obtain ⟨done,h | h⟩ := h
  · obtain ⟨hevent,henlist,hlook⟩ := step_of_open (m := m) h.isOver
    cases s with
    | event e =>
      rw [(hevent e).1, (hevent e).2]
      exact ⟨done,.inl (h.event hn e)⟩
    | enlist =>
      obtain ⟨done',h'⟩ := h.enlist hn
      rw [henlist]
      exact ⟨done',.inl h'⟩
    | look =>
      rw [hlook]
      exact h.look hn
  · rw [step_of_over h.isOver, events_of_over h.isOver, List.append_nil]
    exact ⟨done,.inr h⟩

theorem Sound.after (hn : n.Orderly) (h : Sound n m uploads course a) (steps : List Step) :
    Sound n m uploads (course ++ a.course m steps) (a.after m steps) := by
  induction steps generalizing course a with
  | nil => rwa [Attaching.course, List.append_nil]
  | cons s steps ih =>
    have h' := ih (h.step hn s)
    rwa [List.append_assoc] at h'

/-- What is known of a batch that has started in `n`. -/
theorem sound_after (hn : n.Orderly) (m : Nat) (uploads : List Upload) (steps : List Step) :
    Sound n m uploads ((of n uploads).course m steps) ((of n uploads).after m steps) :=
  Sound.after hn ⟨[],.inl (taking_of n m uploads)⟩ steps

/-! ## Users that attach tokens -/

/-- Taking all uploads on without a pause is the beginning of a run. -/
theorem enlistAll_eq_after (n : Network) (m : Nat) (uploads : List Upload) :
    (of n uploads).after m (List.replicate uploads.length .enlist) =
      { net := (UploadBatch.enlistAll n m uploads).1
        batch := (UploadBatch.enlistAll n m uploads).2
        taken := uploads.length } := by
  have hlength : ∀ (s : Network × UploadBatch) (index : Nat),
      (UploadBatch.enlist m s index).2.uploads.length = s.2.uploads.length := by
    rintro ⟨n,b⟩ index
    cases hu : b.uploads[index]? with
    | none => simp [UploadBatch.enlist, hu]
    | some u =>
      have he := UploadBatch.enlisted m n hu
      generalize UploadBatch.enlist m (n,b) index = r at he
      cases he with
      | ready => exact List.length_modify ..
      | _ => rfl
  have hfold : ∀ k ≤ uploads.length,
      ((List.range k).foldl (UploadBatch.enlist m) (n,{ uploads })).2.uploads.length =
        uploads.length ∧
      (of n uploads).after m (List.replicate k .enlist) =
        { net := ((List.range k).foldl (UploadBatch.enlist m) (n,{ uploads })).1
          batch := ((List.range k).foldl (UploadBatch.enlist m) (n,{ uploads })).2
          taken := k } := by
    intro k hk
    induction k with
    | zero => exact ⟨rfl,rfl⟩
    | succ k ih =>
      obtain ⟨hl,hafter⟩ := ih (Nat.le_of_succ_le hk)
      rw [List.range_succ, List.foldl_append, List.replicate_succ', after_append, hafter]
      refine ⟨(hlength _ _).trans hl,?_⟩
      exact if_pos (hl.symm ▸ hk)
  exact (hfold _ (Nat.le_refl _)).2

/-- A user who attaches tokens begins with it. -/
theorem begin_attach (s : Scenario.Tokens) (m : Nat) (uploads : List Upload) :
    let a := (of s.net uploads).after (s.manager m) (List.replicate uploads.length .enlist)
    s.begin (.attach m uploads) = (.batch a.batch,{ s with net := a.net }) := by
  intro a
  have ha : a = _ := enlistAll_eq_after s.net (s.manager m) uploads
  rw [ha]
  rfl

/-- Whenever the user looks, the batch does. -/
theorem look_batch (hopen : a.isOver = false) (hall : a.batch.uploads.length ≤ a.taken) :
    Scenario.Tokens.look a.net (.batch a.batch) =
      (if a.look.isOver then some (.attached a.look.batch.summary a.look.batch.uploads) else none,
        .batch a.look.batch,a.look.net) := by
  rw [look, if_neg (Nat.not_lt.mpr hall), Scenario.Tokens.look]
  dsimp only
  split
  · rfl
  · simp [hopen]

end ChatToken.Attaching
