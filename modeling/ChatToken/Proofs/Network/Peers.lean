import ChatToken.Proofs.Network.Turn

/-! # What the managers have for the peers

Every event changes what a manager has for a peer as the automaton of that peer says, so much that
is true of one manager and one peer along a run is a fact about that automaton alone.
-/
namespace ChatToken

def PeerState.answer (m : Nat) : PeerState → TokenLookup
  | pending id => .pending ⟨m, id⟩
  | valid t => .ready t
  | unsupported _ | unknown => .unsupported

theorem PeerState.answer_eq_ready {m : Nat} {s : PeerState} {t : Token} :
    s.answer m = .ready t ↔ s = valid t := by
  cases s <;> simp [answer]

namespace Network

open Manager (Deed)

def about (n : Network) (m p : Nat) : PeerState := (n.manager m).about p

/-! ## What stays -/

section
variable (n : Network)

theorem inner_seek (m p : Nat) : Inner n (n.seek m p).2 := by
  have h := fun f notices => (n.inner_onManager m f).trans (inner_note _ notices)
  unfold seek
  dsimp only
  split
  · exact h _ _
  · split
    · exact (h _ _).trans (inner_wake ..)
    · exact h _ _
  · exact h _ _

theorem inner_lookup (m p : Nat) : Inner n (n.lookup m p).2 := by
  rw [lookup_eq]
  split
  · exact (n.inner_checkMark m p).trans (inner_note ..)
  · exact (n.inner_checkMark m p).trans (inner_seek ..)

theorem inner_forget (m p : Nat) : Inner n (n.forget m p) :=
  (inner_onManager ..).trans (inner_note ..)

theorem inner_observe (ref : LoadRef) : Inner n (n.observe ref).2 := by
  unfold observe
  split
  · exact .refl n
  · dsimp only
    split
    · exact .refl n
    · exact ⟨rfl,rfl,rfl,rfl⟩
  · exact .refl n

theorem steady_dropLoad (ref : LoadRef) : Steady n (n.dropLoad ref) := by
  have h := (n.quiet_closeExchange (.load ref)).outer.steady.trans (inner_onManager _ ref.manager
    fun g => { g with loader := g.loader.abandon ref.load }).steady
  exact ⟨h.now,h.managers,h.peers⟩

theorem steady_record (ref : LoadRef) (p : Nat) (w : Turn) : Steady n (n.record ref p w) := by
  cases w with
  | withheld =>
    rw [record]
    exact ((n.inner_note [.requestWithheld p]).trans (inner_finishLoad _ ref _)).steady
  | waits => exact .refl n
  | ended result => exact (n.inner_concludeLoad ref p result).steady
  | died => exact n.steady_dropLoad ref

theorem steady_runLoad (ref : LoadRef) : Steady n (n.runLoad ref) := by
  cases ht : (n.manager ref.manager).loader.tasks.get? ref.load with
  | none => rw [runLoad_of_gone n ht]; exact .refl n
  | some t =>
    rw [runLoad_eq n ht]
    exact (n.work_worked ref t).steady.trans (steady_record ..)

/-- How an event moves the clock. Neither managers nor connections come or go. -/
theorem step_steady (e : Event) :
    (n.step e).now = n.now + e.nanos ∧ (n.step e).managers.length = n.managers.length ∧
    (n.step e).peers.length = n.peers.length := by
  have keep : ∀ {n' : Network}, Steady n n' → n'.now = n.now + 0 ∧
      n'.managers.length = n.managers.length ∧ n'.peers.length = n.peers.length :=
    fun h => ⟨h.now,h.managers,h.peers⟩
  have other : e.manager? = none → (n.step e).now = n.now + e.nanos ∧
      (n.step e).managers.length = n.managers.length ∧
      (n.step e).peers.length = n.peers.length := by
    intro he
    obtain ⟨hm,hn,hp⟩ := n.step_elsewhere he
    exact ⟨hn,congrArg _ hm,hp⟩
  cases e with
  | lookup m p => exact keep (n.inner_lookup m p).steady
  | isUnsupported m p => exact keep (n.inner_checkMark m p).steady
  | forget m p => exact keep (n.inner_forget m p).steady
  | observe ref => exact keep (n.inner_observe ref).steady
  | turn ref =>
    have h := steady_runLoad (n.called ref) ref
    exact keep ⟨h.now,h.managers,h.peers⟩
  | die ref => exact keep (n.steady_dropLoad ref)
  | _ => exact other rfl

theorem step_managers_length (e : Event) : (n.step e).managers.length = n.managers.length :=
  (n.step_steady e).2.1

theorem step_peers_length (e : Event) : (n.step e).peers.length = n.peers.length :=
  (n.step_steady e).2.2

@[simp] theorem after_nil : n.after [] = n := rfl

@[simp] theorem after_cons (e : Event) (es : List Event) : n.after (e :: es) = (n.step e).after es :=
  rfl

theorem after_append (es es' : List Event) : n.after (es ++ es') = (n.after es).after es' :=
  List.foldl_append

theorem after_concat (es : List Event) (e : Event) : n.after (es ++ [e]) = (n.after es).step e :=
  after_append ..

/-- What every event keeps on a condition holds as long as the condition does. -/
theorem Always.keeps {P : Network → Prop} {Q : Network → Event → Prop}
    (h : ∀ n e, P n → Q n e → P (n.step e)) {n : Network} (hn : P n) {es : List Event}
    (hq : Always Q n es) : Always (fun n' _ => P n') n es ∧ P (n.after es) := by
  induction es generalizing n with
  | nil => exact ⟨trivial,hn⟩
  | cons e es ih =>
    obtain ⟨ha,hp⟩ := ih (h n e hn hq.1) hq.2
    exact ⟨⟨hn,ha⟩,hp⟩

theorem Always.mono {P Q : Network → Event → Prop} (h : ∀ n e, P n e → Q n e) {n : Network}
    {es : List Event} (hp : Always P n es) : Always Q n es := by
  induction es generalizing n with
  | nil => trivial
  | cons e es ih => exact ⟨h n e hp.1,ih hp.2⟩

theorem Always.and {P Q : Network → Event → Prop} {n : Network} {es : List Event}
    (hp : Always P n es) (hq : Always Q n es) : Always (fun n' e => P n' e ∧ Q n' e) n es := by
  induction es generalizing n with
  | nil => trivial
  | cons e es ih => exact ⟨⟨hp.1,hq.1⟩,ih hp.2 hq.2⟩

theorem always_of_not_mem {e : Event} {es : List Event} (h : e ∉ es) :
    Always (fun _ e' => e' ≠ e) n es := by
  induction es generalizing n with
  | nil => trivial
  | cons e' es ih =>
    rw [List.mem_cons, not_or] at h
    exact ⟨Ne.symm h.1,ih _ h.2⟩

theorem now_le_step (e : Event) : n.now ≤ (n.step e).now := by
  rw [(n.step_steady e).1]
  exact Nat.le_add_right ..

theorem now_le_after (es : List Event) : n.now ≤ (n.after es).now := by
  induction es generalizing n with
  | nil => exact Nat.le_refl _
  | cons e es ih => exact (n.now_le_step e).trans (ih _)

/-- Until some instant, every event happens before it. -/
theorem always_now_le {es : List Event} {now : Nat} (h : (n.after es).now ≤ now) :
    Always (fun n' _ => n'.now ≤ now) n es := by
  induction es generalizing n with
  | nil => trivial
  | cons e es ih => exact ⟨((n.now_le_step e).trans (now_le_after _ es)).trans h,ih _ h⟩

theorem after_managers_length (es : List Event) :
    (n.after es).managers.length = n.managers.length := by
  induction es generalizing n with
  | nil => rfl
  | cons e es ih => exact (ih _).trans (n.step_managers_length e)

theorem after_peers_length (es : List Event) : (n.after es).peers.length = n.peers.length := by
  induction es generalizing n with
  | nil => rfl
  | cons e es ih => exact (ih _).trans (n.step_peers_length e)

end

/-! ## What goes on between calls is a run -/

section
variable (n : Network)

theorem runNext_eq_step {ref : LoadRef} {rest : List LoadRef} (h : n.ready = ref :: rest) :
    n.runNext = n.step (.turn ref) := by
  have hrest : n.ready.erase ref = rest := by rw [h, List.erase_cons_head]
  rw [runNext, h]
  dsimp only
  rw [← hrest]
  rfl

theorem run_eq_after (turns : Nat) :
    ∃ refs : List LoadRef, n.run turns = n.after (refs.map .turn) := by
  induction turns generalizing n with
  | zero => exact ⟨[],rfl⟩
  | succ turns ih =>
    rw [run]
    cases hr : n.ready with
    | nil => exact ⟨[],rfl⟩
    | cons ref rest =>
      obtain ⟨refs,h⟩ := ih (n.step (.turn ref))
      refine ⟨ref :: refs,?_⟩
      rw [n.runNext_eq_step hr, h]
      rfl

/-- Moving the clock is a run: the tasks in line have their turns before timers go off. -/
theorem advance_eq_after (d : Span) : ∃ refs : List LoadRef,
    n.advance d = n.after (.pass d.nanos :: refs.map .turn ++ [.sound]) := by
  obtain ⟨refs,h⟩ := (n.step (.pass d.nanos)).run_eq_after (n.step (.pass d.nanos)).turnBound
  refine ⟨refs,?_⟩
  rw [List.cons_append, after_cons, after_concat, ← h]
  rfl

theorem shutDown_eq_after : ∃ refs : List LoadRef, n.shutDown = n.after (refs.map .die) :=
  ⟨_,by rw [after, List.foldl_map]; rfl⟩

end

/-! ## Every reachable network is orderly -/

section
variable {n : Network} {m p : Nat}

/-- A load ends only while it runs. -/
theorem deed?_fits (hn : n.Orderly) {e : Event} {d : Deed} (h : n.deed? m e = some d) :
    (n.manager m).Fits d := by
  cases d with
  | finish id p result =>
    cases e with
    | turn ref =>
      simp only [deed?] at h
      split at h
      · next hm =>
        subst hm
        cases ht : (n.manager ref.manager).loader.tasks.get? ref.load with
        | none =>
          rw [turnDeed?_of_gone (n.called ref) ht] at h
          cases h
        | some t =>
          rw [turnDeed?_eq (n.called ref) ht] at h
          generalize ((n.called ref).work ref t).1 = w at h
          cases w with
          | ended result' =>
            cases h
            exact ⟨t,ht,rfl,(hn _).live _ _ ht⟩
          | _ => cases hb : t.begun <;> simp [Turn.deed?, hb] at h
      · cases h
    | lookup | isUnsupported | forget | die =>
      simp only [deed?] at h
      split at h <;> cases h
    | _ => cases h
  | _ => trivial

/-- A manager that is not there knows nothing. -/
theorem manager_of_not_lt (hm : ¬ m < n.managers.length) : n.manager m = Manager.new {} := by
  rw [manager, List.getD_eq_getElem?_getD, List.getElem?_eq_none (Nat.le_of_not_lt hm)]
  rfl

theorem Orderly.step (hn : n.Orderly) (e : Event) : (n.step e).Orderly := by
  intro m
  by_cases hm : m < n.managers.length
  · rw [step_manager n hn e hm]
    cases hd : n.deed? m e with
    | none => exact hn m
    | some d => exact Manager.act_sound (hn m) (deed?_fits hn hd)
  · have hm' : ¬ m < (n.step e).managers.length := by rwa [n.step_managers_length e]
    rw [manager_of_not_lt hm']
    exact Manager.new_sound {}

theorem Orderly.after (hn : n.Orderly) (es : List Event) : (n.after es).Orderly := by
  induction es generalizing n with
  | nil => exact hn
  | cons e es ih => exact ih (hn.step e)

theorem start_manager (peers : List Peer) (configs : List TokenConfig) (m : Nat) :
    (start peers configs).manager m = Manager.new (configs.getD m {}) := by
  simp only [manager, start, List.getD_eq_getElem?_getD, List.getElem?_map]
  cases configs[m]? <;> rfl

theorem orderly_start (peers : List Peer) (configs : List TokenConfig) :
    (start peers configs).Orderly := by
  intro m
  rw [start_manager]
  exact Manager.new_sound _

/-- The configuration of a manager stays. -/
theorem step_config (hn : n.Orderly) (e : Event) (m : Nat) :
    ((n.step e).manager m).config = (n.manager m).config := by
  by_cases hm : m < n.managers.length
  · rw [step_manager n hn e hm]
    cases n.deed? m e with
    | none => rfl
    | some d => exact Manager.act_config ..
  · rw [manager_of_not_lt hm, manager_of_not_lt (by rwa [n.step_managers_length e])]

theorem after_config (hn : n.Orderly) (es : List Event) (m : Nat) :
    ((n.after es).manager m).config = (n.manager m).config := by
  induction es generalizing n with
  | nil => rfl
  | cons e es ih => rw [after_cons, ih (hn.step e), step_config hn e m]

section
variable (peers : List Peer) (configs : List TokenConfig) (es : List Event)

theorem reached_orderly : ((start peers configs).after es).Orderly :=
  (orderly_start peers configs).after es

theorem reached_managers_length :
    ((start peers configs).after es).managers.length = configs.length := by
  rw [after_managers_length, start, List.length_map]

theorem reached_peers_length : ((start peers configs).after es).peers.length = peers.length :=
  after_peers_length ..

theorem reached_config (m : Fin configs.length) :
    (((start peers configs).after es).manager m).config = configs.get m := by
  rw [after_config (orderly_start peers configs) es m, start_manager]
  simp [Manager.new]

end

/-! ## What there is for one peer -/

theorem step_about (hn : n.Orderly) (hm : m < n.managers.length) (p : Nat) (e : Event) :
    (n.step e).about m p = (n.deed? m e).elim (n.about m p)
      ((n.about m p).next (n.manager m).config n.now (n.manager m).loader.nextLoad p) := by
  rw [about, step_manager n hn e hm]
  cases hd : n.deed? m e with
  | none => rfl
  | some d => exact Manager.act_about (hn m) (deed?_fits hn hd) p

theorem event_of_deed? {e : Event} {d : Deed} (h : n.deed? m e = some d) :
    (∀ p, d = .lookup p → e = .lookup m p) ∧ (∀ p, d = .forget p → e = .forget m p) := by
  cases e with
  | turn ref =>
    simp only [deed?] at h
    split at h
    · rw [turnDeed?] at h
      split at h
      · cases h
      · next t _ =>
        generalize ((n.called ref).work ref t).1 = w at h
        cases w <;> cases hb : t.begun <;> simp [Turn.deed?, hb] at h <;> subst h <;> simp
    · cases h
  | lookup | isUnsupported | forget | die =>
    simp only [deed?] at h
    split at h
    · next hk =>
      subst hk
      cases h
      simp
    · cases h
  | _ => cases h

/-- Only the turns of its task and its death are about a load. -/
theorem event_of_load {e : Event} {d : Deed} (h : n.deed? m e = some d) {id : Nat}
    (hd : d.load? = some id) : e = .turn ⟨m,id⟩ ∨ e = .die ⟨m,id⟩ := by
  cases e with
  | turn ref =>
    simp only [deed?] at h
    split at h
    · next hm =>
      subst hm
      rw [turnDeed?] at h
      split at h
      · cases h
      · next t _ =>
        generalize ((n.called ref).work ref t).1 = w at h
        cases w <;> cases hb : t.begun <;> simp [Turn.deed?, hb] at h <;> subst h <;> cases hd <;>
          exact .inl rfl
    · cases h
  | lookup | isUnsupported | forget | die =>
    simp only [deed?] at h
    split at h
    · next hk =>
      subst hk
      cases h
      cases hd <;> exact .inr rfl
    · cases h
  | _ => cases h

/-- What an event can do to a peer without a running load: it is looked up, it is forgotten, or a
mark that has expired is dropped. -/
theorem step_settled (hn : n.Orderly) (hm : m < n.managers.length)
    (hl : (n.about m p).load? = none) (e : Event) :
    (e = .lookup m p ∧ (n.step e).about m p =
      (n.about m p).lookedUp (n.manager m).config n.now (n.manager m).loader.nextLoad) ∨
    (e = .forget m p ∧ (n.step e).about m p = .unknown) ∨
    (n.step e).about m p = n.about m p ∨
    (n.step e).about m p = (n.about m p).expire (n.manager m).config n.now := by
  have hstep := step_about hn hm p e
  cases hd : n.deed? m e with
  | none =>
    rw [hd] at hstep
    exact .inr (.inr (.inl hstep))
  | some d =>
    obtain ⟨hlookup,hforget⟩ := event_of_deed? hd
    rw [hd] at hstep
    have hp : ∀ id, n.about m p ≠ .pending id := by
      intro id hid
      rw [hid] at hl
      cases hl
    cases d with
    | lookup q =>
      by_cases hq : q = p
      · subst hq
        exact .inl ⟨hlookup q rfl,by simpa [PeerState.next] using hstep⟩
      · exact .inr (.inr (.inl (by simpa [PeerState.next, hq] using hstep)))
    | check q =>
      by_cases hq : q = p
      · exact .inr (.inr (.inr (by simpa [PeerState.next, hq] using hstep)))
      · exact .inr (.inr (.inl (by simpa [PeerState.next, hq] using hstep)))
    | forget q =>
      by_cases hq : q = p
      · subst hq
        refine .inr (.inl ⟨hforget q rfl,?_⟩)
        rw [hstep]
        simp only [Option.elim_some, PeerState.next, if_true]
        cases hs : n.about m q with
        | pending id => exact absurd hs (hp id)
        | _ => rfl
      · exact .inr (.inr (.inl (by simpa [PeerState.next, hq] using hstep)))
    | begin id => exact .inr (.inr (.inl hstep))
    | finish id q result =>
      cases hr : isRefusal result with
      | true => exact .inr (.inr (.inr (by simpa [PeerState.next, hp, hr] using hstep)))
      | false => exact .inr (.inr (.inl (by simpa [PeerState.next, hp, hr] using hstep)))
    | abandon id => exact .inr (.inr (.inl (by simpa [PeerState.next, hp] using hstep)))

/-! ## Answers -/

theorem about_eq_unsupported (hn : n.Orderly) :
    (n.manager m).marks.standing n.now p = .marked ↔
      ∃ t, n.about m p = .unsupported t ∧ (n.manager m).config.remembers n.now t = true :=
  ((hn m).holds p).marked (hn m).ttl

theorem isUnsupported_answer (hn : n.Orderly) :
    (n.isUnsupported m p).1 = true ↔
      ∃ t, n.about m p = .unsupported t ∧ (n.manager m).config.remembers n.now t = true := by
  rw [← about_eq_unsupported hn]
  unfold isUnsupported checkMark
  cases (n.manager m).marks.standing n.now p <;> simp

theorem seek_answer (n : Network) (hm : m < n.managers.length) (p : Nat) :
    (n.seek m p).1 = ((n.seek m p).2.about m p).answer m := by
  have hk := Loader.lookup_looked (n.manager m).loader
    (Manager.staleness (n.manager m).config n.now) true p
  have hg := congrArg Manager.loader (n.seek_manager hm m p)
  rw [if_pos rfl] at hg
  have ha := Manager.about_of_looked hk hg
  rw [about]
  generalize ((n.seek m p).2.manager m).about p = s at ha
  unfold seek
  rcases hr : (n.manager m).loader.lookup (Manager.staleness (n.manager m).config n.now) true p
    with ⟨a,l,notices⟩
  rw [hr] at ha
  dsimp only
  rw [hr]
  obtain ⟨id,rfl,rfl⟩ | ⟨t,rfl,rfl⟩ := ha <;> rfl

/-- A lookup answers with what there is for the peer once it is over. -/
theorem lookup_answer (hn : n.Orderly) (hm : m < n.managers.length) (p : Nat) :
    (n.lookup m p).1 = ((n.lookup m p).2.about m p).answer m := by
  by_cases hs : (n.manager m).marks.standing n.now p = .marked
  · have hstep := step_about hn hm p (.lookup m p)
    obtain ⟨t,ht,hr⟩ := (about_eq_unsupported hn).mp hs
    simp only [deed?, if_true, Option.elim_some, PeerState.next, step, ht] at hstep
    rw [hstep, lookup_eq, if_pos hs]
    simp [PeerState.lookedUp, PeerState.counts, hr, PeerState.answer]
  · rw [lookup_eq, if_neg hs]
    exact seek_answer _ ((n.inner_checkMark m p).length ▸ hm) p

theorem lookup_about (hn : n.Orderly) (hm : m < n.managers.length) (p : Nat) :
    (n.lookup m p).2.about m p =
      (n.about m p).lookedUp (n.manager m).config n.now (n.manager m).loader.nextLoad := by
  have hstep := step_about hn hm p (.lookup m p)
  simp only [deed?, if_true, Option.elim_some, PeerState.next] at hstep
  exact hstep

/-! ## Loads and their tasks -/

theorem step_moved (hn : n.Orderly) (hm : m < n.managers.length) (e : Event) :
    ((n.step e).manager m).loader = (n.manager m).loader ∨
    ∃ d, n.deed? m e = some d ∧
      Manager.Moved (n.manager m) n.now d ((n.step e).manager m).loader := by
  rw [step_manager n hn e hm]
  cases hd : n.deed? m e with
  | none => exact .inl rfl
  | some d => exact .inr ⟨d,rfl,Manager.act_moved (hn m) (deed?_fits hn hd)⟩

theorem step_nextLoad_le (hn : n.Orderly) (hm : m < n.managers.length) (e : Event) :
    (n.manager m).loader.nextLoad ≤ ((n.step e).manager m).loader.nextLoad := by
  rcases step_moved hn hm e with h | ⟨d,_,h⟩
  · rw [h]
  · exact h.nextLoad_le

/-- Only the turns of its task and its death are of interest to a load that was started. -/
theorem step_other_load (hn : n.Orderly) (hm : m < n.managers.length) {id : Nat}
    (hid : id < (n.manager m).loader.nextLoad) {e : Event} (ht : e ≠ .turn ⟨m,id⟩)
    (hd : e ≠ .die ⟨m,id⟩) :
    ((n.step e).manager m).loader.tasks.get? id = (n.manager m).loader.tasks.get? id ∧
    (n.step e).ending? ⟨m,id⟩ = n.ending? ⟨m,id⟩ := by
  rcases step_moved hn hm e with h | ⟨d,hdeed,h⟩
  · exact ⟨by rw [h],congrArg (·.endings.get? id) h⟩
  · refine h.other_load hid ?_
    intro hl
    rcases event_of_load hdeed hl with he | he
    · exact ht he
    · exact hd he

theorem lt_of_ending {ref : LoadRef} {ending : Ending Token TokenError}
    (h : n.ending? ref = some ending) : ref.manager < n.managers.length := by
  by_contra hm
  rw [ending?, manager_of_not_lt hm] at h
  cases h

/-- What a load has ended with stays. -/
theorem step_ending (hn : n.Orderly) (e : Event) {ref : LoadRef}
    {ending : Ending Token TokenError} (h : n.ending? ref = some ending) :
    (n.step e).ending? ref = some ending := by
  have hm := lt_of_ending h
  rcases step_moved hn hm e with hl | ⟨d,_,hl⟩
  · exact (congrArg (·.endings.get? ref.load) hl).trans h
  · exact hl.ending (hn _).loader h

theorem after_ending (hn : n.Orderly) (es : List Event) {ref : LoadRef}
    {ending : Ending Token TokenError} (h : n.ending? ref = some ending) :
    (n.after es).ending? ref = some ending := by
  induction es generalizing n with
  | nil => exact h
  | cons e es ih => exact ih (hn.step e) (step_ending hn e h)

/-- A load runs until it has ended. -/
theorem running_step (hn : n.Orderly) (hm : m < n.managers.length) {id : Nat}
    (hr : (n.manager m).loader.Running id p) (e : Event)
    (h : (n.step e).ending? ⟨m,id⟩ = none) : ((n.step e).manager m).loader.Running id p := by
  rcases step_moved hn hm e with hl | ⟨d,_,hl⟩
  · rwa [hl]
  · exact hl.running (hn m).loader hr h

theorem running_after (hn : n.Orderly) (hm : m < n.managers.length) {id : Nat}
    (hr : (n.manager m).loader.Running id p) (es : List Event)
    (h : (n.after es).ending? ⟨m,id⟩ = none) : ((n.after es).manager m).loader.Running id p := by
  induction es generalizing n with
  | nil => exact hr
  | cons e es ih =>
    have hopen : (n.step e).ending? ⟨m,id⟩ = none := by
      cases he : (n.step e).ending? ⟨m,id⟩ with
      | none => rfl
      | some ending =>
        have hend := after_ending (hn.step e) es he
        rw [after_cons, hend] at h
        cases h
    exact ih (hn.step e) (by rwa [n.step_managers_length e]) (running_step hn hm hr e hopen) h

/-! ## How loads end -/

theorem lt_of_ends {e : Event} {ref : LoadRef} {ending : Ending Token TokenError}
    (h : n.Ends e ref ending) : ref.manager < n.managers.length := by
  have hm := lt_of_ending h.2
  rwa [n.step_managers_length e] at hm

/-- A load ends while it runs: its request comes back, or its task dies. -/
theorem Ends.deed (hn : n.Orderly) {e : Event} {ref : LoadRef}
    {ending : Ending Token TokenError} (h : n.Ends e ref ending) :
    ∃ p, (n.manager ref.manager).loader.Running ref.load p ∧
    ((∃ result, n.deed? ref.manager e = some (.finish ref.load p result) ∧
      ending = Loader.endingOf result) ∨
    (n.deed? ref.manager e = some (.abandon ref.load) ∧ ending = .lost)) := by
  obtain ⟨hnone,hsome⟩ := h
  rw [ending?, step_manager n hn e (lt_of_ends ⟨hnone,hsome⟩)] at hsome
  cases hd : n.deed? ref.manager e with
  | none =>
    rw [hd, Option.elim_none] at hsome
    rw [ending?, hsome] at hnone
    cases hnone
  | some d =>
    rw [hd] at hsome
    obtain ⟨p,hr,h⟩ := (Manager.act_moved (hn _) (deed?_fits hn hd)).ends hnone hsome
    refine ⟨p,hr,?_⟩
    obtain ⟨result,rfl,rfl⟩ | ⟨rfl,rfl⟩ := h
    · exact .inl ⟨result,rfl,rfl⟩
    · exact .inr ⟨rfl,rfl⟩

/-- What there is for a peer whose load ends. -/
theorem Ends.about_eq (hn : n.Orderly) {e : Event} {ref : LoadRef}
    {ending : Ending Token TokenError} (h : n.Ends e ref ending)
    (hr : (n.manager ref.manager).loader.Running ref.load p) :
    (n.step e).about ref.manager p =
      PeerState.left (n.manager ref.manager).config n.now ending := by
  have hp : n.about ref.manager p = .pending ref.load := (hn _).about_eq_pending.mpr hr
  have hstep := step_about hn (lt_of_ends h) p e
  rw [hp] at hstep
  obtain ⟨q,_,⟨result,hd,rfl⟩ | ⟨hd,rfl⟩⟩ := h.deed hn
  · simpa [hd, PeerState.next] using hstep
  · simpa [hd, PeerState.next] using hstep

/-- A load ends when it is finished. -/
theorem ends_of_finish (hn : n.Orderly) {e : Event} {id q : Nat} {result : Except TokenError Token}
    (hd : n.deed? m e = some (.finish id q result)) :
    n.Ends e ⟨m,id⟩ (Loader.endingOf result) := by
  obtain ⟨t,ht,hk,hu⟩ := deed?_fits hn hd
  have hno := (hn m).loader.no_ending ht
  refine ⟨hno,?_⟩
  have hm : m < n.managers.length := by
    by_contra hm
    rw [manager_of_not_lt hm] at ht
    cases ht
  have hc := (hn m).loader.finish_concluded ht hu (Manager.staleness (n.manager m).config n.now)
    result
  rw [ending?, step_manager n hn e hm, hd]
  exact (hc.endings id).trans (if_pos rfl)

theorem ends_of_abandon (hn : n.Orderly) {e : Event} {id : Nat}
    {t : LoadTask Nat Token TokenError} (ht : (n.manager m).loader.tasks.get? id = some t)
    (hd : n.deed? m e = some (.abandon id)) : n.Ends e ⟨m,id⟩ .lost := by
  have hm : m < n.managers.length := @lt_of_task n ⟨m,id⟩ t ht
  refine ⟨(hn m).loader.no_ending ht,?_⟩
  have hc := (hn m).loader.abandon_concluded ht ((hn m).live id t ht)
  rw [ending?, step_manager n hn e hm, hd]
  exact (hc.endings id).trans (if_pos rfl)

/-- A load that has not ended in a turn of its task waits. -/
theorem waits_of_open (hn : n.Orderly) {ref : LoadRef} {t : LoadTask Nat Token TokenError}
    (ht : (n.manager ref.manager).loader.tasks.get? ref.load = some t)
    (hopen : (n.step (.turn ref)).ending? ref = none) :
    ((n.called ref).work ref t).1 = .waits ∧
    n.step (.turn ref) = ((n.called ref).work ref t).2 := by
  have hgoes := (((n.called ref).work_worked ref t).managers (hn _) ht).1
  have hd := n.deed?_turn ht
  rw [step_turn n ht]
  generalize (n.called ref).work ref t = r at hgoes hd ⊢
  obtain ⟨w,n'⟩ := r
  cases w with
  | waits => exact ⟨rfl,rfl⟩
  | withheld => exact absurd rfl hgoes
  | ended result =>
    rw [(ends_of_finish hn hd).2] at hopen
    cases hopen
  | died =>
    rw [(ends_of_abandon hn ht hd).2] at hopen
    cases hopen

/-- The task of a load that has ended is gone. -/
theorem task_of_ending (hn : n.Orderly) {ref : LoadRef} {ending : Ending Token TokenError}
    (h : n.ending? ref = some ending) :
    (n.manager ref.manager).loader.tasks.get? ref.load = none :=
  ((hn _).loader.open_ _ _ h).2

theorem task_of_die (hn : n.Orderly) (ref : LoadRef) :
    ((n.step (.die ref)).manager ref.manager).loader.tasks.get? ref.load = none := by
  have hd : n.deed? ref.manager (.die ref) = some (.abandon ref.load) := if_pos rfl
  cases ht : (n.manager ref.manager).loader.tasks.get? ref.load with
  | some t => exact task_of_ending (hn.step _) (ends_of_abandon hn ht hd).2
  | none =>
    by_cases hm : ref.manager < n.managers.length
    · rw [step_manager n hn _ hm, hd, Option.elim_some, Manager.act, Loader.abandon_of_gone ht]
      exact ht
    · have hm' : ¬ ref.manager < (n.step (.die ref)).managers.length := by
        rwa [n.step_managers_length _]
      rw [manager_of_not_lt hm']
      rfl

/-- A load ends once. -/
theorem Ends.once (hn : n.Orderly) {e : Event} {ref : LoadRef} {ending : Ending Token TokenError}
    (h : n.Ends e ref ending) (es : List Event) (e' : Event) (ending' : Ending Token TokenError) :
    ¬ ((n.step e).after es).Ends e' ref ending' := by
  intro h'
  have hend := after_ending (hn.step e) es h.2
  rw [h'.1] at hend
  cases hend

/-- What a load has ended with, it has ended with in some event. -/
theorem ending_iff_ends (hn : n.Orderly) {ref : LoadRef} (hno : n.ending? ref = none)
    {es : List Event} {ending : Ending Token TokenError} :
    (n.after es).ending? ref = some ending ↔
      ∃ a e b, es = a ++ e :: b ∧ (n.after a).Ends e ref ending := by
  constructor
  · intro h
    induction es generalizing n with
    | nil =>
      rw [after_nil, hno] at h
      cases h
    | cons e es ih =>
      cases he : (n.step e).ending? ref with
      | some ending' =>
        have hend := after_ending (hn.step e) es he
        rw [after_cons, hend] at h
        cases h
        exact ⟨[],e,es,rfl,hno,he⟩
      | none =>
        obtain ⟨a,e',b,rfl,hends⟩ := ih (hn.step e) he h
        exact ⟨e :: a,e',b,rfl,hends⟩
  · rintro ⟨a,e,b,rfl,hends⟩
    rw [after_append, after_cons]
    exact after_ending ((hn.after a).step e) b hends.2

/-! ## Marks along a run -/

theorem mark_eq_some (hn : n.Orderly) {t : Nat} :
    (n.manager m).marks.since.get? p = some t ↔ n.about m p = .unsupported t := by
  rw [((hn m).holds p).mark, about]
  cases (n.manager m).about p <;> simp [PeerState.mark?]

/-- What refuses a request is marked, and nothing else is. -/
theorem mark_step (hn : n.Orderly) (hm : m < n.managers.length) {e : Event} {t : Nat}
    (h : ((n.step e).manager m).marks.since.get? p = some t) :
    (n.manager m).marks.since.get? p = some t ∨
    (t = n.now ∧ ∃ id command, (n.manager m).loader.Running id p ∧
      n.Ends e ⟨m,id⟩ (.failed (.unsupported command))) := by
  rw [mark_eq_some (hn.step e), step_about hn hm] at h
  cases hd : n.deed? m e with
  | none =>
    rw [hd] at h
    exact .inl ((mark_eq_some hn).mpr h)
  | some d =>
    rw [hd] at h
    rcases PeerState.next_eq_unsupported h with h | ⟨id,q,command,rfl,hp,ht⟩
    · exact .inl ((mark_eq_some hn).mpr h)
    · exact .inr ⟨ht,id,command,(hn m).about_eq_pending.mp hp,ends_of_finish hn hd⟩

/-! ## Exclusive states -/

/-- In every reachable state, whatever has happened to the managers, the connections and the clock,
a manager never has two of these for a peer: a token, a running load and a mark, expired or not. -/
theorem states_exclusive (peers : List Peer) (configs : List TokenConfig) (es : List Event)
    (m p : Nat) :
    let g := ((start peers configs).after es).manager m
    let cached := ∃ t, g.loader.cache.get? p = some t
    let running := ∃ id, g.loader.Running id p
    let marked := ∃ t, g.marks.since.get? p = some t
    ¬ (cached ∧ running) ∧ ¬ (cached ∧ marked) ∧ ¬ (running ∧ marked) := by
  intro g cached running marked
  have hs : g.Sound := reached_orderly peers configs es m
  obtain ⟨s,ht,hl,hm⟩ := hs.exclusive p
  have hr : running → ∃ id, s.load? = some id := by
    rintro ⟨id,hid⟩
    exact ⟨id,by rw [← hl, hs.loader.registered]; exact hid⟩
  refine ⟨?_,?_,?_⟩
  · rintro ⟨⟨t,hc⟩,hrun⟩
    obtain ⟨id,hid⟩ := hr hrun
    rw [ht] at hc
    cases s <;> simp [PeerState.token?, PeerState.load?] at hc hid
  · rintro ⟨⟨t,hc⟩,⟨t',hmark⟩⟩
    rw [ht] at hc
    rw [hm] at hmark
    cases s <;> simp [PeerState.token?, PeerState.mark?] at hc hmark
  · rintro ⟨hrun,⟨t',hmark⟩⟩
    obtain ⟨id,hid⟩ := hr hrun
    rw [hm] at hmark
    cases s <;> simp [PeerState.load?, PeerState.mark?] at hid hmark

end

end Network
end ChatToken
