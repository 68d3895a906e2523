import ChatToken.Proofs.Network.Places
import ChatToken.Proofs.Upload.Taking

/-! # Each connection is asked once

A batch starts a load only in the lookup of a connection that it does not wait for yet, and from then
on it waits for this load. So it starts one load for a connection at most, whatever the load comes to
and however much time passes.
-/
namespace ChatToken.Attaching

open Network (Event start)
open UploadBatch (advertisesTokens Enlisted)

section
variable {n later : Network} {m p : Nat}

theorem flatMap_eq_of_mem {α β : Type} {l : List α} (hnodup : l.Nodup) {f : α → List β} {a : α}
    (ha : a ∈ l) (hf : ∀ b ∈ l, b ≠ a → f b = []) : l.flatMap f = f a := by
  induction l with
  | nil => cases ha
  | cons b l ih =>
    obtain ⟨hb,hnodup⟩ := List.nodup_cons.mp hnodup
    obtain ⟨hfb,hfl⟩ := List.forall_mem_cons.mp hf
    rw [List.flatMap_cons]
    rcases List.mem_cons.mp ha with rfl | ha
    · rw [List.flatMap_eq_nil_iff.mpr fun c hc => hfl c hc fun h => hb (h ▸ hc), List.append_nil]
    · rw [hfb fun h => hb (h ▸ ha), ih hnodup ha hfl, List.nil_append]

/-- The loads of one manager that have been started. -/
theorem started_of_eq {k : Nat} (h : (later.nextRef k).load = (n.nextRef k).load) :
    (List.range' (n.nextRef k).load ((later.nextRef k).load - (n.nextRef k).load)).map
      (LoadRef.mk k) = [] := by
  rw [h, Nat.sub_self]
  rfl

theorem startedSince_of_managers (h : later.managers = n.managers) : startedSince n later = [] := by
  refine List.flatMap_eq_nil_iff.mpr fun k _ => started_of_eq ?_
  rw [Network.nextRef, Network.manager, h]
  rfl

/-- A lookup starts a load if nothing is known that counts, and no more. -/
theorem startedSince_lookup (hn : n.Orderly) (hm : m < n.managers.length) (p : Nat) :
    startedSince n (n.lookup m p).2 =
      if (n.about m p).counts (n.manager m).config n.now then [] else [n.nextRef m] := by
  have hlength : (n.lookup m p).2.managers.length = n.managers.length :=
    (n.inner_lookup m p).length
  have hnext := Network.lookup_nextLoad hn hm p
  rw [startedSince, hlength, flatMap_eq_of_mem List.nodup_range (List.mem_range.mpr hm)]
  · simp only [Network.nextRef, hnext, Nat.add_sub_cancel_left]
    split <;> rfl
  · intro k _ hk
    have hidle : (n.step (.lookup m p)).manager k = n.manager k :=
      Network.manager_of_idle hn (if_neg (Ne.symm hk))
    exact started_of_eq (congrArg (·.loader.nextLoad) hidle)

/-- A lookup that starts a load answers with it. -/
theorem started_of_lookup (hn : n.Orderly) (hm : m < n.managers.length) (hp : p < n.peers.length)
    {answer : TokenLookup} (hl : n.lookup m p = (answer,later)) :
    startedSince n later = [] ∨
      startedSince n later = [n.nextRef m] ∧ answer = .pending (n.nextRef m) ∧
        n.StartsRequest m p := by
  have hstarted := startedSince_lookup hn hm p
  rw [hl] at hstarted
  by_cases hc : (n.about m p).counts (n.manager m).config n.now = true
  · exact .inl (hstarted.trans (if_pos hc))
  · have hrequest : n.StartsRequest m p :=
      Network.startsRequest hn hm hp (by rw [PeerState.lookedUp, if_neg hc])
    have hanswer := hrequest.answer
    rw [hl] at hanswer
    exact .inr ⟨hstarted.trans (if_neg hc),hanswer,hrequest⟩

end

section
variable {n : Network} {m : Nat} {uploads : List Upload} {course : List Event} {a : Attaching}
  {done : List (Nat × UploadFate)}

theorem asked_peers (a : Attaching) : a.asked.map Prod.fst = a.batch.waiting.map (·.peer) := by
  simp [asked, Function.comp_def]

theorem asked_observed (a : Attaching) : a.observed.asked = a.asked := by
  rw [observed, asked, UploadBatch.observe_eq, List.map_map]
  rfl

theorem asked_concluded (a : Attaching) : a.concluded.asked = a.asked := by
  rw [asked, concluded, (UploadBatch.concludeAll_spec a.net a.batch).2]
  rfl

theorem asked_look (a : Attaching) : a.look.asked = a.asked := by
  have hl := a.looked
  generalize a.look = a' at hl
  cases hl with
  | early => rfl
  | waits => exact asked_observed a
  | ends => exact (asked_concluded _).trans (asked_observed a)

theorem asked_enlist (m : Nat) (a : Attaching) : a.asked <+: (a.enlist m).asked := by
  have ht := took m a
  generalize a.enlist m = a' at ht
  cases ht with
  | none => exact List.prefix_rfl
  | next _ he =>
    cases he with
    | unadvertised | ready | unsupported => exact List.prefix_rfl
    | joined =>
      have hjoined : ∀ p index, (a.batch.join p index).waiting.map (fun w => (w.peer,w.ref)) =
          a.asked := by
        intro p index
        simp [UploadBatch.join_waiting, asked]
      rw [asked, asked, hjoined]
      exact List.prefix_rfl
    | pending =>
      rw [asked, asked, List.map_append]
      exact List.prefix_append _ _

/-- A look changes nothing in the network but what was reported. -/
theorem agrees_look (a : Attaching) : a.net.Agrees a.look.net := by
  have hseen := UploadBatch.observe_agrees a.net a.batch.waiting
  have hl := a.looked
  generalize a.look = a' at hl
  cases hl with
  | early => exact .refl _
  | waits => exact hseen
  | ends => exact hseen.trans (UploadBatch.concludeAll_spec _ _).1

/-- A batch does not cease to wait for a load. -/
theorem Sound.asked_step (h : Sound n m uploads course a) (s : Step) :
    a.asked <+: (a.step m s).asked := by
  obtain ⟨done,h | h⟩ := h
  · obtain ⟨hevent,henlist,hlook⟩ := step_of_open (m := m) h.isOver
    cases s with
    | event e =>
      rw [(hevent e).1]
      exact List.prefix_rfl
    | enlist =>
      rw [henlist]
      exact asked_enlist m a
    | look =>
      rw [hlook, asked_look]
  · rw [step_of_over h.isOver]

theorem Sound.asked_after (hn : n.Orderly) (h : Sound n m uploads course a) (steps : List Step) :
    a.asked <+: (a.after m steps).asked := by
  induction steps generalizing course a with
  | nil => exact List.prefix_rfl
  | cons s steps ih => exact (h.asked_step s).trans (ih (h.step hn s))

/-- The batch starts the load `ref` of the connection `p` when it takes the next upload on, and waits
for it. -/
structure Starts (m : Nat) (a : Attaching) (ref : LoadRef) (p : Nat) : Prop where
  target : a.target? = some p
  advertised : (a.net.peer p).capability? Reply.extjwt = some "1"
  idle : ∀ id, ¬ (a.net.manager m).loader.Running id p
  unasked : p ∉ a.asked.map Prod.fst
  next : ref = a.net.nextRef m
  request : a.net.StartsRequest m p
  asked : (p,ref) ∈ (a.enlist m).asked

/-- Taking an upload on starts a load at most. -/
theorem started_enlist (hn : a.net.Orderly) (hm : m < a.net.managers.length)
    (hpeers : ∀ u ∈ a.batch.uploads, u.peer < a.net.peers.length) :
    startedSince a.net (a.enlist m).net = [] ∨
      ∃ p ref, startedSince a.net (a.enlist m).net = [ref] ∧ Starts m a ref p := by
  have ht := took m a
  generalize ha : a.enlist m = a' at ht
  cases ht with
  | none => exact .inl (startedSince_of_managers rfl)
  | @next u _ hu he =>
    have hp := hpeers u (List.mem_of_getElem? hu)
    cases he with
    | unadvertised | joined => exact .inl (startedSince_of_managers rfl)
    | ready hadv hwaited hl | unsupported hadv hwaited hl =>
      rcases started_of_lookup hn hm hp hl with hnone | ⟨_,hanswer,_⟩
      · exact .inl hnone
      · cases hanswer
    | pending hadv hwaited hl =>
      rcases started_of_lookup hn hm hp hl with hnone | ⟨hone,hanswer,hrequest⟩
      · exact .inl hnone
      · obtain rfl := TokenLookup.pending.inj hanswer
        exact .inr ⟨u.peer,_,hone,{
          target := by
            rw [target?, hu]
            rfl
          advertised := beq_iff_eq.mp hadv
          idle := by
            intro id hr
            have hregistered := ((hn m).loader.registered u.peer id).mpr hr
            rw [hrequest.idle] at hregistered
            cases hregistered
          unasked := by
            rw [asked_peers]
            exact mt UploadBatch.isWaitedFor_iff.mpr (Bool.eq_false_iff.mp hwaited)
          next := rfl
          request := hrequest
          asked := by
            rw [ha]
            simp [Attaching.asked] }⟩

/-- A step of the batch starts a load at most, in the lookup of a connection that the batch does not
wait for. From then on it waits for this load. -/
theorem Sound.starts_step (hn : n.Orderly) (hm : m < n.managers.length)
    (hpeers : ∀ u ∈ uploads, u.peer < n.peers.length) (h : Sound n m uploads course a) (s : Step) :
    a.startsIn m s = [] ∨
      ∃ p ref, a.startsIn m s = [(a,ref)] ∧ Starts m a ref p ∧ (p,ref) ∈ (a.step m s).asked := by
  obtain ⟨done,h | h⟩ := h
  · obtain ⟨_,henlist,hlook⟩ := step_of_open (m := m) h.isOver
    cases s with
    | event e => exact .inl rfl
    | enlist =>
      have hm' : m < a.net.managers.length := by rwa [h.net, Network.after_managers_length]
      have hpeers' : ∀ u ∈ a.batch.uploads, u.peer < a.net.peers.length := by
        intro u hu
        have hmem : u.peer ∈ uploads.map (·.peer) := by
          rw [← UploadFate.settle_peers uploads done, ← h.settled]
          exact List.mem_map_of_mem hu
        obtain ⟨u₀,hu₀,hpeer⟩ := List.mem_map.mp hmem
        rw [h.net, Network.after_peers_length, ← hpeer]
        exact hpeers u₀ hu₀
      rw [startsIn, henlist]
      rcases started_enlist (h.net ▸ hn.after course) hm' hpeers' with hnone | ⟨p,ref,hone,hstarts⟩
      · exact .inl (by rw [hnone, List.map_nil])
      · exact .inr ⟨p,ref,by rw [hone, List.map_singleton],hstarts,hstarts.asked⟩
    | look =>
      rw [startsIn, hlook, startedSince_of_managers a.agrees_look.managers]
      exact .inl rfl
  · cases s with
    | event e => exact .inl rfl
    | enlist | look =>
      rw [startsIn, step_of_over h.isOver, startedSince_of_managers rfl]
      exact .inl rfl

/-- During a run the batch starts a load for each connection at most, and it waits for it at the
end. -/
theorem Sound.starts_after (hn : n.Orderly) (hm : m < n.managers.length)
    (hpeers : ∀ u ∈ uploads, u.peer < n.peers.length) (h : Sound n m uploads course a)
    (steps : List Step) :
    ((a.starts m steps).map (·.1.target?)).Nodup ∧
    ∀ s ∈ a.starts m steps, ∃ p, Starts m s.1 s.2 p ∧ p ∉ a.asked.map Prod.fst ∧
      (p,s.2) ∈ (a.after m steps).asked := by
  induction steps generalizing course a with
  | nil => exact ⟨List.nodup_nil,fun s hs => by cases hs⟩
  | cons s steps ih =>
    have h' := h.step hn s
    obtain ⟨hnodup,hall⟩ := ih h'
    have hrest : ∀ s' ∈ (a.step m s).starts m steps, ∃ p, Starts m s'.1 s'.2 p ∧
        p ∉ (a.step m s).asked.map Prod.fst ∧ p ∉ a.asked.map Prod.fst ∧
        (p,s'.2) ∈ (a.after m (s :: steps)).asked := by
      intro s' hs'
      obtain ⟨p,hstarts,hunasked,hasked⟩ := hall s' hs'
      exact ⟨p,hstarts,hunasked,
        fun hp => hunasked (((h.asked_step s).map Prod.fst).subset hp),hasked⟩
    rw [starts]
    rcases h.starts_step hn hm hpeers s with hnone | ⟨p,ref,hone,hstarts,hasked⟩
    · rw [hnone, List.nil_append]
      refine ⟨hnodup,fun s' hs' => ?_⟩
      obtain ⟨p,hstarts,_,hunasked,hasked⟩ := hrest s' hs'
      exact ⟨p,hstarts,hunasked,hasked⟩
    · rw [hone, List.singleton_append]
      constructor
      · rw [List.map_cons, List.nodup_cons]
        refine ⟨fun hmem => ?_,hnodup⟩
        -- the batch waits for this load already when the others start
        obtain ⟨s',hs',htarget⟩ := List.mem_map.mp hmem
        obtain ⟨p',hstarts',hunasked',_⟩ := hrest s' hs'
        have hp : p' = p :=
          Option.some.inj (hstarts'.target.symm.trans (htarget.trans hstarts.target))
        exact hunasked' (hp ▸ List.mem_map_of_mem hasked)
      · intro s' hs'
        rcases List.mem_cons.mp hs' with rfl | hs'
        · exact ⟨p,hstarts,hstarts.unasked,((h'.asked_after hn steps).subset hasked)⟩
        · obtain ⟨p,hstarts,_,hunasked,hasked⟩ := hrest s' hs'
          exact ⟨p,hstarts,hunasked,hasked⟩

end

/-- A batch starts at most one load for a connection, whatever else happens and however much time
passes between its uploads. It does so for a connection that advertises tokens with the very text `1`,
has no running load, and is not waited for yet; the load sends one request, and the batch waits for it.
Once the batch waits for a load of a connection, it starts none for that connection, whatever the load
comes to. -/
theorem each_connection_asked_once (peers : List Peer) (configs : List TokenConfig)
    (before : List Event) (m : Fin configs.length) (uploads : List Upload)
    (hpeers : ∀ u ∈ uploads, u.peer < peers.length) (steps : List Step) :
    let n := (start peers configs).after before
    let a := (of n uploads).after m steps
    let starts := (of n uploads).starts m steps
    (starts.map (·.1.target?)).Nodup ∧
    (∀ s ∈ starts, ∃ p, s.1.target? = some p ∧
      (s.1.net.peer p).capability? Reply.extjwt = some "1" ∧
      (∀ id, ¬ (s.1.net.manager m).loader.Running id p) ∧
      s.2 = s.1.net.nextRef m ∧ s.1.net.StartsRequest m p ∧ (p,s.2) ∈ a.asked) ∧
    ∀ xs ys, steps = xs ++ ys →
      let b := (of n uploads).after m xs
      ∀ s ∈ b.starts m ys, ∀ p ref, (p,ref) ∈ b.asked → s.1.target? ≠ some p := by
  intro n a starts
  have hn : n.Orderly := Network.reached_orderly peers configs before
  have hm : m < n.managers.length := by
    rw [Network.reached_managers_length]
    exact m.isLt
  have hpeers' : ∀ u ∈ uploads, u.peer < n.peers.length := by
    rw [Network.reached_peers_length]
    exact hpeers
  have hsound : ∀ steps, Sound n m uploads ((of n uploads).course m steps)
      ((of n uploads).after m steps) := sound_after hn m uploads
  obtain ⟨hnodup,hall⟩ := (hsound []).starts_after hn hm hpeers' steps
  refine ⟨hnodup,?_,?_⟩
  · intro s hs
    obtain ⟨p,hstarts,_,hasked⟩ := hall s hs
    exact ⟨p,hstarts.target,hstarts.advertised,hstarts.idle,hstarts.next,hstarts.request,hasked⟩
  · intro xs ys _ b s hs p ref hp htarget
    obtain ⟨p',hstarts,hunasked,_⟩ := ((hsound xs).starts_after hn hm hpeers' ys).2 s hs
    obtain rfl : p' = p := Option.some.inj (hstarts.target.symm.trans htarget)
    exact hunasked (List.mem_map_of_mem hp)

/-- A token gets too old between two uploads of its connection, so the second of them asks again. That
request fails, and the third upload, which comes later, shares its fate. -/
theorem failed_request_not_repeated :
    let peers : List Peer := [{ name := "irc" }]
    let uploads : List Upload := [{ peer := 0 }, { peer := 0 }, { peer := 0 }]
    let n := (start peers [{}]).after [.lookup 0 0, .turn ⟨0,0⟩,
      .deliver 0 (.of "EXTJWT" ["*", "*", "abc"]), .turn ⟨0,0⟩]
    let steps : List Step := [.enlist, .event (.pass 15000000001), .enlist, .event (.turn ⟨0,1⟩),
      .event (.deliver 0 (.of "FAIL" ["EXTJWT", "NO_SUCH_SERVICE", "none"])),
      .event (.turn ⟨0,1⟩), .enlist, .look]
    let a := (of n uploads).after 0 steps
    (∀ u ∈ uploads, u.peer < peers.length) ∧
    a.batch.summary = { attached := 1, failed := 2 } ∧
    let starts := (of n uploads).starts 0 steps
    starts.map (fun s => (s.1.target?,s.2)) = [(some 0,⟨0,1⟩)] ∧
    ∀ s ∈ starts, s.1.net.StartsRequest 0 0 := by
  intro peers uploads n steps a
  have hpeers : ∀ u ∈ uploads, u.peer < peers.length := by decide
  refine ⟨hpeers,by decide +kernel,?_⟩
  intro starts
  have hstarts : starts.map (fun s => (s.1.target?,s.2)) = [(some 0,⟨0,1⟩)] := by decide +kernel
  refine ⟨hstarts,fun s hs => ?_⟩
  obtain ⟨_,hall,_⟩ := each_connection_asked_once peers [{}] [.lookup 0 0, .turn ⟨0,0⟩,
    .deliver 0 (.of "EXTJWT" ["*", "*", "abc"]), .turn ⟨0,0⟩] ⟨0,by decide⟩ uploads hpeers steps
  obtain ⟨p,htarget,_,_,_,hrequest,_⟩ := hall s hs
  have hs' : (s.1.target?,s.2) ∈ [(some 0,(⟨0,1⟩ : LoadRef))] :=
    hstarts ▸ List.mem_map_of_mem hs
  have hp : s.1.target? = some 0 := congrArg Prod.fst (List.mem_singleton.mp hs')
  obtain rfl : p = 0 := Option.some.inj (htarget.symm.trans hp)
  exact hrequest

end ChatToken.Attaching
