import ChatToken.Network.Renewal
import ChatToken.Proofs.Network.Agrees
import ChatToken.Proofs.Network.Containment
import ChatToken.Proofs.Network.Seclusion
import ChatToken.Proofs.Network.Tokens

/-! # Forgetting

Whether a manager has forgotten a peer or has been replaced by a new one makes no difference to that
peer, and whether it has forgotten one or not makes none to the others. Each time there is one
network for both, in which there is nothing but the peer, and which goes on side by side with
either. A load that is running is not touched when its peer is forgotten.
-/
namespace ChatToken.Network

variable {n n' n₁ n₁' : Network} {p m : Nat} {own own' own₁ : List LoadRef} {ref : LoadRef}

/-! ## Two networks with one mirror -/

theorem contains_hangUp (n : Network) (c : Nat) :
    (n.step (.hangUp c)).exchanges.contains (.caller c) = false := by
  rw [step, Table.contains, closeExchange_exchange, if_pos rfl]
  rfl

namespace Mirrors

variable {e e' : Event}

theorem matching_load (h : Mirrors p own own' n n') (h₁ : Mirrors p own₁ own' n₁ n')
    (href : ref ∈ own₁) : ∃ ref₂ ∈ own, place own ref₂ = place own₁ ref := by
  have hmem := h₁.mem href
  rw [h.placed] at hmem
  exact List.mem_map.mp hmem

/-- An event that comes to something for the peer in one network can take place in the other. -/
theorem matching_event (h : Mirrors p own own' n n') (h₁ : Mirrors p own₁ own' n₁ n')
    (hk : n₁.secluded? p own₁ e = some e') :
    ∃ n₂ before e₂, Mirrors p own own' n₂ n' ∧ n₂.secluded? p own e₂ = some e' ∧
      ∀ es, n.secluded p own (before ++ es) = n₂.secluded p own es := by
  have hnow : n.secluded? p own e = some e' → ∃ n₂ before e₂, Mirrors p own own' n₂ n' ∧
      n₂.secluded? p own e₂ = some e' ∧
      ∀ es, n.secluded p own (before ++ es) = n₂.secluded p own es :=
    fun hk' => ⟨n,[],e,h,hk',fun _ => rfl⟩
  cases e with
  | observe ref =>
    obtain ⟨href,he⟩ := Option.ite_none_right_eq_some.mp hk
    obtain ⟨ref₂,href₂,hplace⟩ := h.matching_load h₁ href
    exact ⟨n,[],.observe ref₂,h,(if_pos href₂).trans (hplace ▸ he),fun _ => rfl⟩
  | turn ref =>
    obtain ⟨href,he⟩ := Option.ite_none_right_eq_some.mp hk
    obtain ⟨ref₂,href₂,hplace⟩ := h.matching_load h₁ href
    exact ⟨n,[],.turn ref₂,h,(if_pos href₂).trans (hplace ▸ he),fun _ => rfl⟩
  | die ref =>
    obtain ⟨href,he⟩ := Option.ite_none_right_eq_some.mp hk
    obtain ⟨ref₂,href₂,hplace⟩ := h.matching_load h₁ href
    exact ⟨n,[],.die ref₂,h,(if_pos href₂).trans (hplace ▸ he),fun _ => rfl⟩
  | listen c q matcher timeout =>
    -- the caller may have an exchange over another connection, which it has to give up first
    obtain ⟨⟨hq,hfree⟩,he⟩ := Option.ite_none_right_eq_some.mp hk
    have hover : ¬ n.callsOver p c = true := by
      rw [← h.callsOver_eq, h₁.callsOver_eq, callsOver]
      simp only [Table.contains, Option.isSome_eq_false_iff, Option.isNone_iff_eq_none] at hfree
      simp [hfree]
    have hquiet : n.secluded? p own (.hangUp c) = none := if_neg hover
    refine ⟨n.step (.hangUp c),[.hangUp c],.listen c q matcher timeout,h.ignore hquiet,
      (if_pos ⟨hq,contains_hangUp n c⟩).trans he,fun es => ?_⟩
    rw [List.singleton_append, secluded, hquiet, issued_of_foreign hquiet]
    rfl
  | look c =>
    obtain ⟨hc,he⟩ := Option.ite_none_right_eq_some.mp hk
    rw [← h₁.callsOver_eq, h.callsOver_eq] at hc
    exact hnow ((if_pos hc).trans he)
  | hangUp c =>
    obtain ⟨hc,he⟩ := Option.ite_none_right_eq_some.mp hk
    rw [← h₁.callsOver_eq, h.callsOver_eq] at hc
    exact hnow ((if_pos hc).trans he)
  | _ => exact hnow hk

/-- What a run in one network comes to for the peer, some run in the other comes to. -/
theorem matching_run (h : Mirrors p own own' n n') (h₁ : Mirrors p own₁ own' n₁ n') (es : List Event) :
    ∃ es', n.secluded p own es' = n₁.secluded p own₁ es := by
  induction es generalizing n n' n₁ own own' own₁ with
  | nil => exact ⟨[],rfl⟩
  | cons e es ih =>
    cases hk : n₁.secluded? p own₁ e with
    | none =>
      obtain ⟨es',hes⟩ := ih h (h₁.ignore hk)
      refine ⟨es',hes.trans ?_⟩
      rw [secluded, hk, issued_of_foreign hk]
      rfl
    | some e' =>
      obtain ⟨n₂,before,e₂,h₂,hk₂,hbefore⟩ := h.matching_event h₁ hk
      obtain ⟨es',hes⟩ := ih (h₂.keep hk₂) (h₁.keep hk)
      refine ⟨before ++ e₂ :: es',?_⟩
      rw [hbefore, secluded, secluded, hk, hk₂, hes]

/-- What mirrors the same is the same for the peer. -/
theorem sameAt (h : Mirrors p own own' n n') (h₁ : Mirrors p own₁ own' n₁ n') :
    SameAt p own own₁ n n₁ where
  forth es := h₁.matching_run h es
  back es := h.matching_run h₁ es
  told es es' hes := by rw [← (h₁.after es').1, ← (h.after es).1, hes]

end Mirrors

/-! ## A manager that has nothing for the peer -/

section
variable {k : Nat}

theorem mem_besides : ref ∈ besides m own ↔ ref ∈ own ∧ ref.manager ≠ m := by
  rw [besides, List.mem_filter, decide_eq_true_iff]

theorem besides_other (hk : k ≠ m) :
    (besides m own).filter (·.manager = k) = own.filter (·.manager = k) := by
  rw [besides, List.filter_filter]
  refine List.filter_congr fun ref _ => ?_
  by_cases hr : ref.manager = k
  · simp [hr, hk]
  · simp [hr]

theorem besides_self (m : Nat) (own : List LoadRef) :
    (besides m own).filter (·.manager = m) = [] := by
  rw [besides, List.filter_filter]
  simp

/-- The loads of the other managers keep their numbers. -/
theorem place_besides (hr : ref.manager ≠ m) : place (besides m own) ref = place own ref := by
  rw [place, place, besides_other hr]

end

theorem Tracks.place_getElem (ht : n.Tracks p own) {id : Nat}
    (hid : id < (own.filter (·.manager = m)).length) :
    place own (own.filter (·.manager = m))[id] = ⟨m,id⟩ := by
  have hr := (List.mem_filter.mp (List.getElem_mem hid)).2
  rw [decide_eq_true_iff] at hr
  rw [place, hr, List.Nodup.idxOf_getElem (ht.nodup.filter _)]

/-- No task works for a peer without a running load. -/
theorem key_ne_of_idle (hn : n.Orderly) (hidle : (n.manager m).loader.loading.get? p = none)
    {id : Nat} {t : LoadTask Nat Token TokenError}
    (ht : (n.manager m).loader.tasks.get? id = some t) : t.key ≠ p := by
  intro hk
  have hr := ((hn m).loader.registered p id).mpr ⟨t,ht,hk,(hn m).live id t ht⟩
  rw [hidle] at hr
  cases hr

theorem idle_of_unknown (hn : n.Orderly) (h : n.about m p = .unknown) :
    (n.manager m).loader.loading.get? p = none := by
  rw [((hn m).holds p).load]
  exact congrArg PeerState.load? h

theorem mem_tasksOf : ref ∈ n.tasksOf m ↔
    ref.manager = m ∧ ∃ t, (n.manager ref.manager).loader.tasks.get? ref.load = some t := by
  simp only [tasksOf, List.mem_map, Table.mem_keys_iff, Option.isSome_iff_exists]
  constructor
  · rintro ⟨id,hid,rfl⟩
    exact ⟨rfl,hid⟩
  · rintro ⟨rfl,h⟩
    exact ⟨ref.load,h,rfl⟩

structure Beside (m : Nat) (n n₁ : Network) : Prop where
  inner : Inner n n₁
  sounded : n₁.sounded = n.sounded
  other : ∀ k, k ≠ m → n₁.manager k = n.manager k
  config : (n₁.manager m).config = (n.manager m).config

namespace Beside

theorem about (hb : Beside m n n₁) {k : Nat} (hk : k ≠ m) (p : Nat) :
    n₁.about k p = n.about k p := by
  rw [Network.about, hb.other k hk]
  rfl

theorem ending (hb : Beside m n n₁) (hr : ref.manager ≠ m) : n₁.ending? ref = n.ending? ref := by
  rw [ending?, hb.other _ hr]
  rfl

theorem held (hb : Beside m n n₁) (h : Holder) : n₁.held h = n.held h := by
  rw [Network.held, hb.inner.exchanges]
  rfl

theorem tracks (hb : Beside m n n₁) (ht : n.Tracks p own) (hn : n₁.Orderly)
    (hidle : (n₁.manager m).loader.loading.get? p = none) : n₁.Tracks p (besides m own) where
  nodup := ht.nodup.filter _
  started ref href hm := by
    obtain ⟨href,hr⟩ := mem_besides.mp href
    rw [hb.other _ hr]
    exact ht.started ref href (hb.inner.length ▸ hm)
  absent ref href hm := ht.absent ref (mem_besides.mp href).1 (hb.inner.length ▸ hm)
  tasks ref t htask := by
    by_cases hr : ref.manager = m
    · refine iff_of_false (fun href => (mem_besides.mp href).2 hr) ?_
      rw [hr] at htask
      exact key_ne_of_idle hn hidle htask
    · rw [hb.other _ hr] at htask
      rw [mem_besides, and_iff_left hr]
      exact ht.tasks ref t htask

end Beside

namespace Mirrors

/-- If the manager `m` comes to have nothing for the peer, a new manager can stand for it. -/
theorem reset (h : Mirrors p own own' n n') (hb : Beside m n n₁) (hb' : Beside m n' n₁')
    (hn : n₁.Orderly) (hn' : n₁'.Orderly) (hs : n₁.Sane) (hs' : n₁'.Sane)
    (hu : n₁.about m p = .unknown) (hnew : n₁'.manager m = .new (n.manager m).config) :
    Mirrors p (besides m own) (besides m own') n₁ n₁' := by
  have hu' : n₁'.about m p = .unknown := by
    rw [Network.about, hnew]
    rfl
  exact {
    orderly := hn
    orderly' := hn'
    sane := hs
    sane' := hs'
    tracks := hb.tracks h.tracks hn (idle_of_unknown hn hu)
    tracks' := hb'.tracks h.tracks' hn' (idle_of_unknown hn' hu')
    alike := h.alike.inner hb.inner hb.sounded hb'.inner hb'.sounded
    managers := by rw [hb'.inner.length, hb.inner.length, h.managers]
    config := fun k => by
      by_cases hk : k = m
      · rw [hk, hb'.config, hb.config, h.config]
      · rw [hb'.other k hk, hb.other k hk, h.config]
    placed := by
      rw [besides, h.placed, List.filter_map]
      exact List.map_congr_left fun ref href => (place_besides (mem_besides.mp href).2).symm
    fresh := fun k hk => by
      by_cases hkm : k = m
      · rw [hkm, hnew, besides_self]
        rfl
      · rw [hb'.other k hkm, besides_other hkm]
        exact h.fresh k (hb.inner.length ▸ hk)
    states := fun k => by
      by_cases hk : k = m
      · rw [hk, hu, hu']
        rfl
      · rw [hb.other k hk, hb.inner.now, hb.about hk, hb'.about hk]
        exact (h.states k).congr fun id _ => (congrArg LoadRef.load (place_besides hk)).symm
    tasks := fun ref href => by
      obtain ⟨href,hr⟩ := mem_besides.mp href
      rw [place_besides hr, hb'.other _ hr, hb.other _ hr]
      exact h.tasks ref href
    endings := fun ref href => by
      obtain ⟨href,hr⟩ := mem_besides.mp href
      have hsame : n₁'.ending? (place own ref) = n'.ending? (place own ref) := hb'.ending hr
      rw [place_besides hr, hsame, hb.ending hr]
      exact h.endings ref href
    held := fun h₀ hin => by
      have hplaced : Holder.placed (besides m own) h₀ = Holder.placed own h₀ ∧ Holder.In own h₀ := by
        cases h₀ with
        | load ref =>
          obtain ⟨href,hr⟩ := mem_besides.mp hin
          exact ⟨congrArg Holder.load (place_besides hr),href⟩
        | caller c => exact ⟨rfl,trivial⟩
      rw [hplaced.1, hb'.held, heldOver, hb.held]
      exact h.held h₀ hplaced.2 }

/-- In the mirror, a manager without a running load of the peer has no tasks. -/
theorem vacant (h : Mirrors p own own' n n')
    (hidle : (n.manager m).loader.loading.get? p = none) : n'.tasksOf m = [] := by
  refine List.eq_nil_iff_forall_not_mem.mpr fun ref href => ?_
  obtain ⟨rfl,t,ht⟩ := mem_tasksOf.mp href
  have hm : ref.manager < n.managers.length := h.managers ▸ lt_of_task ht
  -- the load has the place of one of the peer, whose task works for it
  have hlt := (h.orderly' ref.manager).loader.numbered ref.load t ht
  rw [h.fresh _ hm] at hlt
  obtain ⟨hown,hr⟩ := List.mem_filter.mp (List.getElem_mem hlt)
  have hplace := h.tracks.place_getElem hlt
  have htask := h.tasks _ hown
  generalize (own.filter (·.manager = ref.manager))[ref.load] = ref₂ at hown hr hplace htask
  rw [of_decide_eq_true hr, hplace, ht] at htask
  have hkey : t.key ≠ p := key_ne_of_idle h.orderly hidle htask.symm
  rw [← of_decide_eq_true hr] at htask
  exact hkey ((h.tracks.tasks ref₂ t htask.symm).mp hown)

end Mirrors

/-! ## A new manager -/

theorem renew_eq (n : Network) (m : Nat) :
    n.renew m =
      let n₀ := n.after ((n.tasksOf m).map .die)
      { n₀.onManager m fun g => .new g.config with
        ready := n₀.ready.filter (·.manager ≠ m)
        knownLost := n₀.knownLost.filter (·.manager ≠ m) } := by
  rw [renew, after, List.foldl_map]
  rfl

theorem dying_none (hn : n.Orderly) (m id : Nat) :
    ((n.after ((n.tasksOf m).map .die)).manager m).loader.tasks.get? id = none := by
  cases ht : ((n.after ((n.tasksOf m).map .die)).manager m).loader.tasks.get? id with
  | none => rfl
  | some t =>
    obtain ⟨hno,ht'⟩ := @dying_tasks _ ⟨m,id⟩ hn _ _ ht
    exact absurd (mem_tasksOf.mpr ⟨rfl,t,ht'⟩) hno

theorem replaced_manager (n : Network) (m k : Nat) :
    (n.onManager m fun g => .new g.config).manager k =
      if m = k then .new (n.manager k).config else n.manager k := by
  rw [manager_onManager]
  by_cases hk : k < n.managers.length
  · simp [hk]
  · rw [if_neg fun h => hk h.2, manager_of_not_lt hk]
    simp [Manager.new]

theorem beside_renew (n : Network) (m : Nat) :
    Beside m (n.after ((n.tasksOf m).map .die)) (n.renew m) := by
  rw [renew_eq]
  have hg := replaced_manager (n.after ((n.tasksOf m).map .die)) m
  refine ⟨⟨rfl,rfl,rfl,List.length_modify ..⟩,rfl,fun k hk => ?_,?_⟩
  · exact (hg k).trans (if_neg hk.symm)
  · have hconfig := congrArg Manager.config ((hg m).trans (if_pos rfl))
    exact hconfig

theorem renew_manager (hn : n.Orderly) (m : Nat) :
    (n.renew m).manager m = .new (n.manager m).config := by
  rw [renew_eq]
  refine (replaced_manager (n.after ((n.tasksOf m).map .die)) m m).trans ?_
  rw [if_pos rfl, after_config hn]

theorem orderly_renew (hn : n.Orderly) (m : Nat) : (n.renew m).Orderly := by
  intro k
  by_cases hk : k = m
  · rw [hk, renew_manager hn]
    exact Manager.new_sound _
  · rw [(beside_renew n m).other k hk]
    exact hn.after _ k

/-- A new manager has no requests and no tokens. -/
theorem sane_renew (hn : n.Orderly) (hs : n.Sane) (m : Nat) : (n.renew m).Sane := by
  have hb := beside_renew n m
  have hs₀ : (n.after ((n.tasksOf m).map .die)).Sane := hs.after hn _
  have hnew := renew_manager hn m
  generalize n.renew m = n₁ at hb hnew ⊢
  have hno := dying_none hn m
  generalize n.after ((n.tasksOf m).map .die) = n₀ at hb hs₀ hno
  obtain ⟨peers,exchanges,_,_⟩ := hb.inner
  refine ⟨⟨?_,?_⟩,?_,?_,?_⟩
  · rw [exchanges, peers]
    simpa only [peer, peers] using hs₀.tidy.known
  · rw [exchanges, peers]
    exact hs₀.tidy.apart
  · intro ref x hx
    rw [exchanges] at hx
    obtain ⟨t,ht,hserves⟩ := hs₀.requests ref x hx
    have hr : ref.manager ≠ m := by
      rintro rfl
      rw [hno] at ht
      cases ht
    rw [hb.other _ hr]
    exact ⟨t,ht,hserves⟩
  · intro ref ending he
    by_cases hr : ref.manager = m
    · rw [ending?, hr, hnew] at he
      cases he
    · rw [hb.other _ hr]
      exact hs₀.endings ref ending (hb.ending hr ▸ he)
  · intro k q t ht
    by_cases hk : k = m
    · rw [Network.about, hk, hnew] at ht
      cases ht
    · exact hs₀.tokens k q t (hb.about hk q ▸ ht)

/-! ## Forgetting a peer -/

theorem beside_forget (n : Network) (m p : Nat) : Beside m n (n.forget m p) := by
  refine ⟨n.inner_forget m p,rfl,fun k hk => ?_,?_⟩
  · rw [forget, note_manager, manager_onManager, if_neg fun h => hk h.1.symm]
  · rw [forget, note_manager, manager_onManager]
    split <;> rfl

/-- What is forgotten is unknown, unless a load is running. -/
theorem about_forget (hn : n.Orderly) (hidle : (n.manager m).loader.loading.get? p = none) :
    (n.forget m p).about m p = .unknown := by
  by_cases hm : m < n.managers.length
  · have habout := step_about hn hm p (.forget m p)
    have hd : n.deed? m (.forget m p) = some (.forget p) := if_pos rfl
    rw [hd, Option.elim_some, PeerState.next, if_pos rfl] at habout
    refine habout.trans ?_
    have hload := ((hn m).holds p).load
    rw [hidle] at hload
    cases hs : (n.manager m).about p with
    | pending id =>
      rw [hs] at hload
      cases hload
    | _ =>
      rw [Network.about, hs]
      rfl
  · have hm' : ¬ m < (n.forget m p).managers.length := by rwa [(n.inner_forget m p).length]
    rw [Network.about, manager_of_not_lt hm']
    rfl

namespace Mirrors

/-- The loads of others can die. -/
theorem dying (h : Mirrors p own own' n n') {refs : List LoadRef}
    (hrefs : ∀ ref ∈ refs, ref ∉ own) :
    Mirrors p own own' (n.after (refs.map .die)) n' := by
  induction refs generalizing n with
  | nil => exact h
  | cons ref refs ih =>
    obtain ⟨href,hrest⟩ := List.forall_mem_cons.mp hrefs
    exact ih (h.ignore (if_neg href)) hrest

/-- If the manager has no running load of the peer, a new manager stands for it after it has
forgotten the peer. -/
theorem forget (h : Mirrors p own own' n n')
    (hidle : (n.manager m).loader.loading.get? p = none) :
    Mirrors p (besides m own) (besides m own') (n.forget m p) (n'.renew m) := by
  have hb' := beside_renew n' m
  rw [h.vacant hidle] at hb'
  refine h.reset (n.beside_forget m p) hb' (h.orderly.step (.forget m p))
    (orderly_renew h.orderly' m) (h.sane.step h.orderly (.forget m p))
    (sane_renew h.orderly' h.sane' m) (about_forget h.orderly hidle) ?_
  rw [renew_manager h.orderly', h.config]

/-- It stands for a new manager as well. -/
theorem renew (h : Mirrors p own own' n n')
    (hidle : (n.manager m).loader.loading.get? p = none) :
    Mirrors p (besides m own) (besides m own') (n.renew m) (n'.renew m) := by
  have hforeign : ∀ ref ∈ n.tasksOf m, ref ∉ own := by
    intro ref href hown
    obtain ⟨rfl,t,ht⟩ := mem_tasksOf.mp href
    exact key_ne_of_idle h.orderly hidle ht ((h.tracks.tasks ref t ht).mp hown)
  have hb' := beside_renew n' m
  rw [h.vacant hidle] at hb'
  have hu : (n.renew m).about m p = .unknown := by
    rw [Network.about, renew_manager h.orderly]
    rfl
  refine (h.dying hforeign).reset (beside_renew n m) hb' (orderly_renew h.orderly m)
    (orderly_renew h.orderly' m) (sane_renew h.orderly h.sane m)
    (sane_renew h.orderly' h.sane' m) hu ?_
  rw [renew_manager h.orderly', after_config h.orderly, h.config]

end Mirrors

/-! ## A load that is running -/

theorem modify_manager (n : Network) (m : Nat) :
    (n.managers.modify m fun _ => n.manager m) = n.managers := by
  refine List.ext_getElem? fun k => ?_
  rw [List.getElem?_modify]
  by_cases hk : m = k
  · subst hk
    cases hg : n.managers[m]? with
    | none => rfl
    | some g => simp [manager, List.getD_eq_getElem?_getD, hg]
  · simp [hk]

/-- Forgetting a peer with a running load changes nothing. -/
theorem forget_running (hn : n.Orderly) {id : Nat}
    (hload : (n.manager m).loader.loading.get? p = some id) : n.Agrees (n.forget m p) := by
  obtain ⟨htoken,hrunning,hmark⟩ := (hn m).holds p
  have hs : (n.manager m).about p = .pending id :=
    (PeerState.load?_eq_some _).mp (hrunning.symm.trans hload)
  rw [hs] at htoken hmark
  -- there is neither a token nor a mark to be dropped
  have hkept : { n.manager m with
      loader := ((n.manager m).loader.invalidate p).2
      marks := (n.manager m).marks.remove p } = n.manager m := by
    rw [Loader.invalidate, Loader.evict, Marks.remove, Table.erase_of_get?_eq_none htoken,
      Table.erase_of_get?_eq_none hmark]
  refine ⟨rfl,rfl,rfl,?_,rfl,rfl,rfl⟩
  unfold Network.forget
  dsimp only
  rw [hkept]
  exact modify_manager n m

namespace Agrees

theorem after (h : n.Agrees n') (es : List Event) : (n.after es).Agrees (n'.after es) := by
  induction es generalizing n n' with
  | nil => exact h
  | cons e es ih => exact ih (h.step e)

theorem issued (h : n.Agrees n') (p : Nat) (own : List LoadRef) (e : Event) :
    n'.issued p own e = n.issued p own e := by
  cases e with
  | lookup m q => simp only [Network.issued, (h.lookup m q).1]
  | _ => rfl

theorem answered (h : n.Agrees n') (p : Nat) (own : List LoadRef) (e : Event) :
    n'.answered p own e = n.answered p own e := by
  cases e with
  | lookup m q => simp only [Network.answered, h.issued, (h.lookup m q).1]
  | isUnsupported m q => simp only [Network.answered, isUnsupported, (h.checkMark m q).1]
  | observe ref => simp only [Network.answered, observe_outcome, h.ending?]
  | look c =>
    have hcalls : n'.callsOver p c = n.callsOver p c := by
      rw [callsOver, h.exchanges]
      rfl
    simp only [Network.answered, hcalls, (h.pollExchange (.caller c)).1]
  | _ => rfl

/-- What was reported makes no difference to what can be told. -/
theorem transcript (h : n.Agrees n') (p : Nat) (own : List LoadRef) (es : List Event) :
    n'.transcript p own es = n.transcript p own es := by
  induction es generalizing n n' own with
  | nil => rfl
  | cons e es ih =>
    have hsent : n'.sentSince (n'.step e) p = n.sentSince (n.step e) p := by
      rw [sentSince, sentSince, (h.step e).peer, h.peer]
    rw [Network.transcript, Network.transcript, sights, sights, h.answered, hsent, h.now,
      h.issued, ih (h.step e)]

end Agrees

/-- A load that ends leaves its token with the manager, or marks the peer that has refused. -/
theorem Ends.stored (hn : n.Orderly) (hs : n.Sane) {id : Nat} {e : Event}
    {ending : Ending Token TokenError} (hr : (n.manager m).loader.Running id p)
    (he : n.Ends e ⟨m,id⟩ ending) : (n.step e).Stored m p n.now ending := by
  have hholds := (hn.step e m).holds p
  constructor
  · rintro t rfl
    have hnow : t.acquiredAt = n.now := by
      obtain ⟨_,_,⟨result,hd,hresult⟩ | ⟨_,hlost⟩⟩ := he.deed hn
      · have hrequest := hs.finish_result hn hd
        cases hrequest with
        | token => cases hresult; rfl
        | failure => cases hresult
      · cases hlost
    have habout : ((n.step e).manager m).about p = .valid t := he.token_kept hn hr hnow
    rw [habout] at hholds
    exact hholds.token
  · rintro command rfl
    have habout : ((n.step e).manager m).about p = .unsupported n.now := he.about_eq hn hr
    rw [habout] at hholds
    exact hholds.mark

/-! ## What comes of it -/

/-- Forgetting resets a peer. If no load of `p` is running, then from then on nothing can be told at
`p` of the manager `m` that could not be told of a new manager with the same configuration in its
place: the same happens, every lookup and every check is answered with the same, every load comes to
the same, and the same is sent, everything at the same time. At every other peer everything is as if
`p` had not been forgotten. If a load of `p` is running, forgetting changes nothing but what is
reported, neither the load nor its listener nor what those who wait for it get, and when the load
ends it still stores its token or marks `p`. -/
theorem forgotten_peer_reset (peers : List Peer) (configs : List TokenConfig) (past : List Event)
    (m : Fin configs.length) (p : Nat) :
    let n := (start peers configs).after past
    let own := fun q => (start peers configs).issuedAfter q [] past
    ((n.manager m).loader.loading.get? p = none →
      SameAt p (besides m (own p)) (besides m (own p)) (n.forget m p) (n.renew m)) ∧
    (∀ q, q ≠ p → SameAt q (own q) (own q) n (n.forget m p)) ∧
    ∀ id, (n.manager m).loader.loading.get? p = some id → ∀ es,
      let n₁ := (n.forget m p).after es
      (n.after es).Agrees n₁ ∧
      (∀ q own', (n.forget m p).transcript q own' es = n.transcript q own' es) ∧
      ∀ e ending, n₁.Ends e ⟨m,id⟩ ending → (n₁.step e).Stored m p n₁.now ending := by
  intro n own
  have hmirror : ∀ q, ∃ own' n', Mirrors q (own q) own' n n' := fun q => by
    obtain ⟨_,own',h⟩ := (mirrors_start peers configs q).after past
    exact ⟨own',_,h⟩
  have hn : n.Orderly := reached_orderly peers configs past
  have hs : n.Sane := reached_sane peers configs past
  have hm : (m : Nat) < n.managers.length := by
    rw [reached_managers_length]
    exact m.isLt
  refine ⟨fun hidle => ?_,fun q hq => ?_,fun id hload es => ?_⟩
  · obtain ⟨own',n',h⟩ := hmirror p
    exact (h.forget hidle).sameAt (h.renew hidle)
  · obtain ⟨own',n',h⟩ := hmirror q
    exact h.sameAt (h.ignore (e := .forget m p) (if_neg (Ne.symm hq)))
  · have hagrees := forget_running hn hload
    refine ⟨hagrees.after es,fun q own' => hagrees.transcript q own' es,fun e ending hends => ?_⟩
    have hn₁ : (n.forget m p).Orderly := hn.step (.forget m p)
    have hs₁ : (n.forget m p).Sane := hs.step hn (.forget m p)
    have hm₁ : (m : Nat) < (n.forget m p).managers.length := by rwa [(n.inner_forget m p).length]
    have hr : ((n.forget m p).manager m).loader.Running id p := by
      rw [hagrees.manager]
      exact ((hn m).loader.registered p id).mp hload
    exact hends.stored (hn₁.after es) (hs₁.after hn₁ es) (running_after hn₁ hm₁ hr es hends.1)

/-- One peer has given a token, and a request to another goes on. The first is forgotten, then the
other. -/
theorem forgotten_with_and_without_load :
    let n := (start [{ name := "a" },{ name := "b" }] [{}]).after [.lookup 0 0,.turn ⟨0,0⟩,
      .deliver 0 (.of "EXTJWT" ["*","*","abc"]),.turn ⟨0,0⟩,.lookup 0 1,.turn ⟨0,1⟩]
    (n.manager 0).loader.cache.get? 0 = some ⟨"abc",0⟩ ∧
    SameAt 0 [] [] (n.forget 0 0) (n.renew 0) ∧
    SameAt 1 [⟨0,1⟩] [⟨0,1⟩] n (n.forget 0 0) ∧
    n.Agrees (n.forget 0 1) ∧
    (((n.forget 0 1).after
      [.pass 5,.deliver 1 (.of "EXTJWT" ["*","*","def"]),.turn ⟨0,1⟩]).manager
        0).loader.cache.get? 1 = some ⟨"def",5⟩ ∧
    (((n.forget 0 1).after
      [.pass 5,.deliver 1 (.of "421" ["me","EXTJWT","Unknown command"]),.turn ⟨0,1⟩]).manager
        0).marks.since.get? 1 = some 5 := by
  intro n
  have h := forgotten_peer_reset [{ name := "a" },{ name := "b" }] [{}] [.lookup 0 0,.turn ⟨0,0⟩,
    .deliver 0 (.of "EXTJWT" ["*","*","abc"]),.turn ⟨0,0⟩,.lookup 0 1,.turn ⟨0,1⟩] ⟨0,by decide⟩
  obtain ⟨hforgotten,hother,_⟩ := h 0
  obtain ⟨_,_,hrunning⟩ := h 1
  have hends := hrunning 1 (by decide +kernel)
  refine ⟨by decide +kernel,hforgotten (by decide +kernel),hother 1 (by decide),(hends []).1,?_,?_⟩
  · exact ((hends [.pass 5,.deliver 1 (.of "EXTJWT" ["*","*","def"])]).2.2 (.turn ⟨0,1⟩)
      (.loaded ⟨"def",5⟩) (by decide +kernel)).token _ rfl
  · exact ((hends [.pass 5,.deliver 1 (.of "421" ["me","EXTJWT","Unknown command"])]).2.2
      (.turn ⟨0,1⟩) (.failed (.unsupported Reply.extjwt)) (by decide +kernel)).mark _ rfl

end ChatToken.Network
