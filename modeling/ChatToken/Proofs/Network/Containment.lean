import ChatToken.Proofs.Network.Attention
import ChatToken.Proofs.Network.Outcomes

/-! # Tasks that die

A task can die at any point: before it has run, while it waits, between two pieces of a response, or
while it sends its request over a connection that breaks. Its load ends without a result then, and
nothing else is lost.
-/
namespace ChatToken

namespace Loader

variable {κ ι ε : Type} [DecidableEq κ]

theorem die_cache (l : Loader κ ι ε) (id : Nat) : (l.die id).cache = l.cache := by
  have hsettle : ∀ key, (l.settle key id none).cache = l.cache := by
    intro key
    unfold settle
    split <;> rfl
  unfold die
  split
  · rfl
  · rfl
  · exact hsettle _

/-- A load whose task dies leaves no item. -/
theorem abandon_cache (l : Loader κ ι ε) (id : Nat) : (l.abandon id).cache = l.cache := by
  rw [abandon, ← l.die_cache id]
  unfold handOver
  split <;> rfl

end Loader

namespace Network

structure Contained (n : Network) (ref : LoadRef) (p : Nat) (n' : Network) : Prop where
  /-- No token comes or goes, of no manager, and no mark. -/
  stores : ∀ m, (n'.manager m).loader.cache = (n.manager m).loader.cache ∧
    (n'.manager m).marks = (n.manager m).marks
  /-- All other loads run as before, and those who wait for them wait for the same. -/
  loads : ∀ ref', ref ≠ ref' →
    (n'.manager ref'.manager).loader.tasks.get? ref'.load =
      (n.manager ref'.manager).loader.tasks.get? ref'.load ∧ n'.ending? ref' = n.ending? ref'
  registry : ∀ m q, (n'.manager m).loader.loading.get? q =
    if ref.manager = m ∧ p = q then none else (n.manager m).loader.loading.get? q
  /-- There is no token for `p`. -/
  empty : (n'.manager ref.manager).loader.cache.get? p = none
  exchanges : ∀ h, n'.exchanges.get? h = if h = .load ref then none else n.exchanges.get? h
  /-- The listener of the load is gone, if it had one, and no other. -/
  listeners : ∀ q id, id ∈ n'.registered q ↔ id ∈ n.registered q ∧
    ∀ x, n.exchanges.get? (.load ref) = some x → x.peer = q → x.listener ≠ id
  /-- Whoever waits for the load gets an internal error, whenever that is. -/
  told : ∀ es, ((n'.after es).observe ref).1 = some (.error .internal)
  /-- The next lookup starts a new request. -/
  again : ∀ es, .lookup ref.manager p ∉ es → (n'.after es).StartsRequest ref.manager p

section
variable {n : Network} {ref : LoadRef} {p : Nat}

/-! ## Managers -/

/-- Only a turn of the task or its death ends a load without a result, and all it does to the
managers is to abandon the load. -/
theorem Ends.lost (hn : n.Orderly) {e : Event} (h : n.Ends e ref .lost) (m : Nat) :
    (e = .turn ref ∨ e = .die ref) ∧ (n.step e).manager m =
      if ref.manager = m then (n.manager m).act n.now (.abandon ref.load) else n.manager m := by
  obtain ⟨q,_,⟨result,_,hr⟩ | ⟨hd,_⟩⟩ := h.deed hn
  · cases result <;> cases hr
  · have he := event_of_load hd rfl
    refine ⟨he,?_⟩
    by_cases hm : ref.manager = m
    · subst hm
      rw [if_pos rfl, step_manager n hn e (lt_of_ends h), hd, Option.elim_some]
    · rw [if_neg hm, manager_of_idle hn]
      rcases he with rfl | rfl <;> exact if_neg hm

theorem Ends.lost_loads (hn : n.Orderly) {e : Event} (h : n.Ends e ref .lost) {ref' : LoadRef}
    (hne : ref ≠ ref') :
    ((n.step e).manager ref'.manager).loader.tasks.get? ref'.load =
      (n.manager ref'.manager).loader.tasks.get? ref'.load ∧
    (n.step e).ending? ref' = n.ending? ref' := by
  obtain ⟨_,hmanager⟩ := h.lost hn ref'.manager
  rw [ending?, hmanager, ending?]
  split
  · next hm =>
    obtain ⟨q,⟨t,ht,hq,hu⟩,_⟩ := h.deed hn
    have hload : ref.load ≠ ref'.load := by
      intro hload
      obtain ⟨k,id⟩ := ref
      exact hne (by cases ref'; cases hm; cases hload; rfl)
    have hc := (hn ref.manager).loader.abandon_concluded ht hu
    rw [← hm]
    exact ⟨(hc.tasks _).trans (if_neg hload),(hc.endings _).trans (if_neg hload)⟩
  · exact ⟨rfl,rfl⟩

theorem Ends.lost_registry (hn : n.Orderly) {e : Event} (h : n.Ends e ref .lost)
    (hr : (n.manager ref.manager).loader.Running ref.load p) (m q : Nat) :
    ((n.step e).manager m).loader.loading.get? q =
      if ref.manager = m ∧ p = q then none else (n.manager m).loader.loading.get? q := by
  obtain ⟨t,ht,rfl,hu⟩ := hr
  rw [(h.lost hn m).2]
  by_cases hm : ref.manager = m
  · subst hm
    rw [if_pos rfl]
    simp only [true_and]
    exact ((hn ref.manager).loader.abandon_concluded ht hu).loading q
  · rw [if_neg hm, if_neg fun hc => hm hc.1]

/-! ## Listeners -/

/-- A request that has been sent does not end without a result by a turn of its task. -/
theorem no_request_of_lost (hn : n.Orderly) (hs : n.Sane) (h : n.Ends (.turn ref) ref .lost) :
    n.exchanges.get? (.load ref) = none := by
  cases hx : n.exchanges.get? (.load ref) with
  | none => rfl
  | some x =>
    obtain ⟨t,ht,hb,_⟩ := hs.requests ref x hx
    have hd := n.deed?_turn ht
    obtain ⟨q,_,⟨result,_,hr⟩ | ⟨hd',_⟩⟩ := h.deed hn
    · cases result <;> cases hr
    · have hi := inquire_inquired (n.called ref) ref
      rw [hd', work, hb, if_pos rfl] at hd
      generalize (n.called ref).inquire ref = r at hd hi
      obtain ⟨w,n'⟩ := r
      dsimp only at hd hi
      cases hi with
      | resolved => cases hd
      | gone => cases hd
      | open_ => cases hd

/-- The exchange of a load that ends without a result is over, or it comes to none. -/
theorem lost_exchange (hn : n.Orderly) (hs : n.Sane) (ho : n.Owned) {e : Event}
    (h : n.Ends e ref .lost) :
    (∀ x, n.exchanges.get? (.load ref) = some x → Ended (.load ref) x n (n.step e)) ∧
    (n.exchanges.get? (.load ref) = none → Tried (.load ref) n (n.step e)) := by
  have hgone : (n.step e).exchanges.get? (.load ref) = none := by
    cases hx : (n.step e).exchanges.get? (.load ref) with
    | none => rfl
    | some x =>
      obtain ⟨t,ht,_⟩ := (hs.step hn e).requests ref x hx
      rw [task_of_ending (hn.step e) h.2] at ht
      cases ht
  have hown : n.Own (.load ref) (.event e) := by
    rcases (h.lost hn 0).1 with rfl | rfl <;> exact own_act hn hs ho rfl
  constructor
  · intro x hx
    rcases (h.lost hn 0).1 with rfl | rfl
    · rw [no_request_of_lost hn hs h] at hx
      cases hx
    · exact hown.ended x hx rfl
  · intro hno
    rcases hown.new hno with ht | ⟨x,hb⟩
    · exact ht
    · have hx := hb.exchange.symm.trans hgone
      cases hx

/-- However the task of a load dies, nothing but its load is lost. -/
theorem contained (hn : n.Orderly) (hs : n.Sane) (ho : n.Owned) (hp : p < n.peers.length)
    {e : Event} (hr : (n.manager ref.manager).loader.Running ref.load p)
    (h : n.Ends e ref .lost) : n.Contained ref p (n.step e) := by
  have hm := lt_of_ends h
  obtain ⟨hended,htried⟩ := lost_exchange hn hs ho h
  have hunknown : (n.step e).about ref.manager p = .unknown := h.about_eq hn hr
  refine ⟨?_,fun _ => h.lost_loads hn,h.lost_registry hn hr,?_,?_,?_,?_,?_⟩
  · intro m
    rw [(h.lost hn m).2]
    split
    · exact ⟨Loader.abandon_cache ..,rfl⟩
    · exact ⟨rfl,rfl⟩
  · rw [((hn.step e ref.manager).holds p).token]
    exact congrArg PeerState.token? hunknown
  · intro h'
    by_cases hh : h' = .load ref
    · rw [if_pos hh, hh]
      cases hx : n.exchanges.get? (.load ref) with
      | none => exact (htried hx).exchange
      | some x => exact (hended x hx).exchange
    · rw [if_neg hh]
      cases hx : n.exchanges.get? (.load ref) with
      | none => exact (htried hx).others h' (Ne.symm hh)
      | some x => exact (hended x hx).others h' (Ne.symm hh)
  · intro q id
    cases hx : n.exchanges.get? (.load ref) with
    | none =>
      rw [(htried hx).registered]
      simp
    | some x =>
      rw [(hended x hx).registered]
      by_cases hq : x.peer = q
      · rw [if_pos hq, List.mem_filter, bne_iff_ne]
        refine and_congr_right fun _ => ⟨?_,fun hne => (hne x rfl hq).symm⟩
        rintro hne x' ⟨⟩ _
        exact Ne.symm hne
      · simp [hq]
  · intro es
    rw [observe_outcome, after_ending (hn.step e) es h.2]
    rfl
  · intro es hl
    exact asked_of_unknown (hn.step e) (by rwa [n.step_managers_length e])
      (by rwa [n.step_peers_length e]) hunknown hl

/-! ## All tasks at once -/

/-- Whether there is a task or not, its death leaves tokens and marks alone. -/
theorem die_stores (hn : n.Orderly) (ref : LoadRef) (m : Nat) :
    ((n.step (.die ref)).manager m).loader.cache = (n.manager m).loader.cache ∧
    ((n.step (.die ref)).manager m).marks = (n.manager m).marks := by
  by_cases hm : m < n.managers.length
  · rw [step_manager n hn _ hm, deed?]
    split
    · exact ⟨Loader.abandon_cache ..,rfl⟩
    · exact ⟨rfl,rfl⟩
  · have hm' : ¬ m < (n.step (.die ref)).managers.length := by rwa [n.step_managers_length _]
    rw [manager_of_not_lt hm, manager_of_not_lt hm']
    exact ⟨rfl,rfl⟩

theorem dying_stores (hn : n.Orderly) (refs : List LoadRef) (m : Nat) :
    ((n.after (refs.map .die)).manager m).loader.cache = (n.manager m).loader.cache ∧
    ((n.after (refs.map .die)).manager m).marks = (n.manager m).marks := by
  induction refs generalizing n with
  | nil => exact ⟨rfl,rfl⟩
  | cons ref refs ih =>
    obtain ⟨hc,hmarks⟩ := ih (hn.step (.die ref))
    obtain ⟨hc',hmarks'⟩ := die_stores hn ref m
    exact ⟨hc.trans hc',hmarks.trans hmarks'⟩

/-- No task is new after a death. -/
theorem task_before_die (hn : n.Orderly) {ref₀ : LoadRef} {t : LoadTask Nat Token TokenError}
    (h : ((n.step (.die ref₀)).manager ref.manager).loader.tasks.get? ref.load = some t) :
    ref ≠ ref₀ ∧ (n.manager ref.manager).loader.tasks.get? ref.load = some t := by
  have hne : ref ≠ ref₀ := by
    rintro rfl
    rw [task_of_die hn ref] at h
    cases h
  have hm : ref.manager < n.managers.length := by
    have hm := lt_of_task h
    rwa [n.step_managers_length _] at hm
  refine ⟨hne,?_⟩
  rcases step_moved hn hm (.die ref₀) with hl | ⟨d,hd,hl⟩
  · rwa [hl] at h
  · simp only [deed?] at hd
    split at hd
    · cases hd
      rcases hl.task h with h | ⟨hd,_⟩ | ⟨_,_,hd⟩
      · exact h
      · cases hd
      · cases hd
    · cases hd

theorem dying_tasks (hn : n.Orderly) {refs : List LoadRef} {t : LoadTask Nat Token TokenError}
    (h : ((n.after (refs.map .die)).manager ref.manager).loader.tasks.get? ref.load = some t) :
    ref ∉ refs ∧ (n.manager ref.manager).loader.tasks.get? ref.load = some t := by
  induction refs generalizing n with
  | nil => exact ⟨List.not_mem_nil,h⟩
  | cons ref₀ refs ih =>
    obtain ⟨hnot,h'⟩ := ih (hn.step (.die ref₀)) h
    obtain ⟨hne,ht⟩ := task_before_die hn h'
    exact ⟨fun hmem => (List.mem_cons.mp hmem).elim hne hnot,ht⟩

/-- The load of a task that dies with others ends without a result. -/
theorem dying_ending (hn : n.Orderly) {refs : List LoadRef} {t : LoadTask Nat Token TokenError}
    (ht : (n.manager ref.manager).loader.tasks.get? ref.load = some t) (href : ref ∈ refs) :
    (n.after (refs.map .die)).ending? ref = some .lost := by
  induction refs generalizing n with
  | nil => cases href
  | cons ref₀ refs ih =>
    by_cases h₀ : ref₀ = ref
    · subst h₀
      have hd : n.deed? ref₀.manager (.die ref₀) = some (.abandon ref₀.load) := if_pos rfl
      exact after_ending (hn.step _) _ (ends_of_abandon hn ht hd).2
    · have hkept := (step_other_load hn (lt_of_task ht) ((hn ref.manager).loader.numbered _ _ ht)
        (e := .die ref₀) (by simp) (fun he => h₀ (by cases he; rfl))).1
      exact ih (hn.step _) (hkept.trans ht)
        ((List.mem_cons.mp href).resolve_left (Ne.symm h₀))

def alive (n : Network) : List LoadRef :=
  (List.range n.managers.length).flatMap fun m =>
    (n.manager m).loader.tasks.keys.map fun id => ⟨m,id⟩

theorem mem_alive {t : LoadTask Nat Token TokenError}
    (ht : (n.manager ref.manager).loader.tasks.get? ref.load = some t) : ref ∈ n.alive := by
  have hkey : ref.load ∈ (n.manager ref.manager).loader.tasks.keys := by
    rw [Table.mem_keys_iff, ht]
    rfl
  simp only [alive, List.mem_flatMap, List.mem_range, List.mem_map]
  exact ⟨ref.manager,lt_of_task ht,ref.load,hkey,rfl⟩

theorem shutDown_eq (n : Network) : n.shutDown = n.after (n.alive.map .die) := by
  rw [after, List.foldl_map]
  rfl

theorem shutDown_task (hn : n.Orderly) (ref : LoadRef) :
    (n.shutDown.manager ref.manager).loader.tasks.get? ref.load = none := by
  cases ht : (n.shutDown.manager ref.manager).loader.tasks.get? ref.load with
  | none => rfl
  | some t =>
    rw [shutDown_eq] at ht
    obtain ⟨hnot,ht'⟩ := dying_tasks hn ht
    exact absurd (mem_alive ht') hnot

theorem shutDown_runningLoads (hn : n.Orderly) (m : Nat) :
    (n.shutDown.manager m).loader.runningLoads = 0 := by
  have hn' : n.shutDown.Orderly := shutDown_eq n ▸ hn.after _
  rw [Loader.runningLoads, Table.size, List.length_eq_zero_iff, List.eq_nil_iff_forall_not_mem]
  rintro ⟨q,id⟩ hmem
  obtain ⟨t,ht,_⟩ := ((hn' m).loader.registered q id).mp ((Table.mem_entries_iff ..).mp hmem)
  rw [shutDown_task hn ⟨m,id⟩] at ht
  cases ht

/-- Nobody listens on behalf of a load once all tasks have died. -/
theorem shutDown_listeners (h : n.Regular) {q id : Nat} (hid : id ∈ n.shutDown.registered q) :
    ∃ c x, n.shutDown.exchanges.get? (.caller c) = some x ∧ x.peer = q ∧ x.listener = id := by
  have h' : n.shutDown.Regular := shutDown_eq n ▸ h.after _
  obtain ⟨holder,x,hx,hp,hl⟩ := h'.owned.owner q id hid
  cases holder with
  | caller c => exact ⟨c,x,hx,hp,hl⟩
  | load ref =>
    obtain ⟨t,ht,_⟩ := h'.sane.requests ref x hx
    rw [shutDown_task h.orderly ref] at ht
    cases ht

end

/-- However the task of a load dies that runs, before its first turn, between two pieces of a
response or while it sends its request, nothing but this load is lost: tokens, marks and all other
loads stay as they are, the listener of the load is gone, whoever waits for it gets an internal
error, and the next lookup of the peer starts a new request. When all tasks die at once, no load
runs any more, whoever waits for one gets an internal error, and all tokens and marks are there. -/
theorem dying_load_contained {peers : List Peer} (hfresh : ∀ q ∈ peers, q.listeners = {})
    (configs : List TokenConfig) (es : List Event) :
    let n := (start peers configs).after es
    (∀ (m : Fin configs.length) (p : Fin peers.length) (id : Nat),
      (n.manager m).loader.Running id p →
      n.Ends (.die ⟨m,id⟩) ⟨m,id⟩ .lost ∧
      ∀ e, n.Ends e ⟨m,id⟩ .lost → n.Contained ⟨m,id⟩ p (n.step e)) ∧
    (∀ m, (n.shutDown.manager m).loader.runningLoads = 0 ∧
      (n.shutDown.manager m).loader.cache = (n.manager m).loader.cache ∧
      (n.shutDown.manager m).marks = (n.manager m).marks) ∧
    (∀ m p id, (n.manager m).loader.Running id p →
      ∀ es, ((n.shutDown.after es).observe ⟨m,id⟩).1 = some (.error .internal)) ∧
    ∀ q, ∀ id ∈ n.shutDown.registered q, ∃ c x,
      n.shutDown.exchanges.get? (.caller c) = some x ∧ x.peer = q ∧ x.listener = id := by
  intro n
  have h : n.Regular := (regular_start hfresh configs).after es
  have hn' : n.shutDown.Orderly := shutDown_eq n ▸ h.orderly.after _
  refine ⟨?_,?_,?_,fun q id hid => shutDown_listeners h hid⟩
  · intro m p id hr
    have hp : (p : Nat) < n.peers.length := by
      rw [reached_peers_length]
      exact p.isLt
    have hd : n.deed? m (.die ⟨m,id⟩) = some (.abandon id) := if_pos rfl
    have ⟨t,ht,_⟩ := hr
    exact ⟨ends_of_abandon h.orderly ht hd,
      fun e he => contained h.orderly h.sane h.owned hp hr he⟩
  · intro m
    refine ⟨shutDown_runningLoads h.orderly m,?_⟩
    rw [shutDown_eq]
    exact dying_stores h.orderly _ m
  · rintro m p id ⟨t,ht,_⟩ es
    have hend : n.shutDown.ending? ⟨m,id⟩ = some .lost := by
      rw [shutDown_eq]
      exact dying_ending h.orderly ht (@mem_alive _ ⟨m,id⟩ _ ht)
    rw [observe_outcome, after_ending hn' es hend]
    rfl

/-- One connection has given a token; another breaks while the request is sent over it, and a third
is silent after a piece of the response. -/
theorem broken_connection_contained :
    let peers : List Peer := [{ name := "a" },
      { name := "b", replies := some { replies := [["PING x", "@x"]] } }, { name := "c" }]
    let es := [.lookup 0 0, .turn ⟨0,0⟩, .lookup 0 1,
      .deliver 0 (.of "EXTJWT" ["*", "*", "abc"]), .turn ⟨0,0⟩, .lookup 0 2, .turn ⟨0,2⟩,
      .deliver 2 (.of "EXTJWT" ["*", "*", "*", "a"]), .turn ⟨0,2⟩]
    let n := (start peers [{}]).after es
    n.Ends (.turn ⟨0,1⟩) ⟨0,1⟩ .lost ∧ (n.step (.turn ⟨0,1⟩)).StartsRequest 0 1 ∧
    (n.manager 0).loader.cache.get? 0 = some ⟨"abc",0⟩ ∧
    (n.manager 0).loader.runningLoads = 2 ∧ (n.shutDown.manager 0).loader.runningLoads = 0 ∧
    (n.shutDown.manager 0).loader.cache = (n.manager 0).loader.cache ∧
    (n.shutDown.observe ⟨0,2⟩).1 = some (.error .internal) := by
  intro peers es n
  have hr : (n.manager 0).loader.Running 1 1 ∧ (n.manager 0).loader.Running 2 2 := by
    decide +kernel
  have hends : n.Ends (.turn ⟨0,1⟩) ⟨0,1⟩ .lost := by decide +kernel
  have hkept : (n.manager 0).loader.cache.get? 0 = some ⟨"abc",0⟩ ∧
      (n.manager 0).loader.runningLoads = 2 := by decide +kernel
  have hfresh : ∀ q ∈ peers, q.listeners = {} := by simp [peers]
  have h := dying_load_contained hfresh [{}] es
  rw [show (start peers [{}]).after es = n from rfl] at h
  clear_value n
  obtain ⟨hdies,hall,htold,_⟩ := h
  have hagain := ((hdies ⟨0,by decide⟩ ⟨1,by decide⟩ 1 hr.1).2 _ hends).again [] (by simp)
  exact ⟨hends,hagain,hkept.1,hkept.2,(hall 0).1,(hall 0).2.1,htold 0 2 2 hr.2 []⟩

end Network
end ChatToken
