import ChatToken.Proofs.Network.Attention

/-! # All tasks get their turns

Turns are given until no task stands in line. A turn makes others join the line only if it is the
first one of its task, and then only loads that have an exchange join, so the line runs empty within
the turns that the network allows.
-/
namespace ChatToken.Network

def requesting (n : Network) : List LoadRef :=
  n.exchanges.keys.filterMap fun h =>
    match h with
    | .load ref => some ref
    | .caller _ => none

def unbegun (n : Network) (ref : LoadRef) : Bool :=
  ((n.manager ref.manager).loader.tasks.get? ref.load).any fun t => !t.begun

def novices (n : Network) : Finset LoadRef := (n.ready.filter n.unbegun).toFinset

def active (n : Network) : Finset LoadRef := (n.ready ++ n.requesting).toFinset

/-- The first turn of a task can put every active load into the line, any other turn none. -/
def toil (n : Network) : Nat := n.novices.card * (n.active.card + 1) + n.ready.length

/-- From `n` to `n'`, the exchanges are as they were, and only loads that have one have joined the
line. -/
structure Rouses (n n' : Network) : Prop where
  exchanges : n'.exchanges = n.exchanges
  ready : ∀ ref ∈ n'.ready, ref ∈ n.ready ∨ ref ∈ n.requesting

section
variable {n n' n'' : Network} {ref r : LoadRef} {p : Nat}

theorem mem_requesting : r ∈ n.requesting ↔ (n.exchanges.get? (.load r)).isSome = true := by
  rw [← Table.mem_keys_iff, requesting, List.mem_filterMap]
  constructor
  · rintro ⟨h,hh,hr⟩
    cases h with
    | load ref => cases hr; exact hh
    | caller c => cases hr
  · exact fun hr => ⟨_,hr,rfl⟩

theorem unbegun_iff : n.unbegun r = true ↔
    ∃ t, (n.manager r.manager).loader.tasks.get? r.load = some t ∧ t.begun = false := by
  rw [unbegun]
  cases (n.manager r.manager).loader.tasks.get? r.load <;> simp

theorem mem_novices : r ∈ n.novices ↔ r ∈ n.ready ∧ n.unbegun r = true := by
  rw [novices, List.mem_toFinset, List.mem_filter]

theorem mem_active : r ∈ n.active ↔ r ∈ n.ready ∨ r ∈ n.requesting := by
  rw [active, List.mem_toFinset, List.mem_append]

/-! ## Who joins the line -/

theorem Rouses.refl (n : Network) : Rouses n n := ⟨rfl,fun _ h => .inl h⟩

theorem Rouses.trans (h : Rouses n n') (h' : Rouses n' n'') : Rouses n n'' where
  exchanges := h'.exchanges.trans h.exchanges
  ready ref href := by
    have hsame : n'.requesting = n.requesting := by rw [requesting, h.exchanges, requesting]
    rcases h'.ready ref href with href | href
    · exact h.ready ref href
    · exact .inr (hsame ▸ href)

theorem rouses_deliver (n : Network) (p : Nat) (m : Message) : Rouses n (n.deliver p m) where
  exchanges := (inner_wakeAll (n.onPeer p (·.dispatch m)) _).exchanges
  ready ref href := by
    rcases (mem_wakeAll _).mp href with href | href
    · exact .inl href
    · obtain ⟨x,hx,_⟩ := mem_loadsListening.mp href
      exact .inr (mem_requesting.mpr (Option.isSome_of_eq_some hx))

theorem rouses_deliverLines (n : Network) (p : Nat) (lines : List String) :
    Rouses n (n.deliverLines p lines).2 := by
  induction lines generalizing n with
  | nil => exact .refl n
  | cons line lines ih =>
    unfold deliverLines
    cases Message.parse? line with
    | none => exact .refl n
    | some m => exact (n.rouses_deliver p m).trans (ih _)

theorem rouses_send (n : Network) (p : Nat) (command : String) (args : List String) :
    Rouses n (n.send p command args).2 := by
  have hh : Rouses n (n.handed p command args) := ⟨rfl,fun _ h => .inl h⟩
  rw [send_eq]
  cases ((n.peer p).send command args).1 with
  | error cause => exact hh
  | ok lines => exact hh.trans (rouses_deliverLines ..)

theorem ask_ready (n : Network) (ref : LoadRef) (p : Nat) (h : r ∈ (n.ask ref p).2.ready) :
    r ∈ n.ready ∨ r = ref ∨ r ∈ n.requesting := by
  rcases (rouses_send _ p _ _).ready r h with h | h
  · exact .inl ((n.still_arrive ref p).ready ▸ h)
  · refine .inr ?_
    rw [mem_requesting, openExchange_exchange, (n.inner_arrive ref p).exchanges] at h
    split at h
    · next he =>
      cases he
      exact .inl rfl
    · exact .inr (mem_requesting.mpr h)

theorem Worked.ready {t : LoadTask Nat Token TokenError} {w : Turn} (h : Worked n ref t w n')
    (hr : r ∈ n'.ready) :
    r ∈ n.ready ∨ (t.begun = false ∧ (r = ref ∨ r ∈ n.requesting)) := by
  cases h with
  | resumed => exact .inl ((n.still_inquire ref).ready ▸ hr)
  | withheld => exact .inl ((n.still_arrive ref t.key).ready ▸ hr)
  | sent hb =>
    rw [(still_inquire ..).ready] at hr
    exact (n.ask_ready ref t.key hr).imp_right fun h => ⟨hb,h⟩
  | failed cause hb =>
    rw [(still_failRequest ..).ready] at hr
    exact (n.ask_ready ref t.key hr).imp_right fun h => ⟨hb,h⟩
  | broken line hb => exact (n.ask_ready ref t.key hr).imp_right fun h => ⟨hb,h⟩

/-- Only a first turn lets others join the line, and nobody but its task and loads with exchanges. -/
theorem turn_ready (hr : r ∈ (n.step (.turn ref)).ready) :
    r ∈ n.ready.erase ref ∨ (n.unbegun ref = true ∧ (r = ref ∨ r ∈ n.requesting)) := by
  cases ht : (n.manager ref.manager).loader.tasks.get? ref.load with
  | none =>
    have hsame : n.step (.turn ref) = n.called ref := (n.called ref).runLoad_of_gone ht
    rw [hsame] at hr
    exact .inl hr
  | some t =>
    rw [step_turn n ht] at hr
    refine (((n.called ref).work_worked ref t).ready ((record_sublist ..).subset hr)).imp_right ?_
    rintro ⟨hb,h⟩
    exact ⟨unbegun_iff.mpr ⟨t,ht,hb⟩,h⟩

/-! ## Turns shorten what is left to do -/

theorem turn_requesting (h : n.Regular) (hr : r ∈ (n.step (.turn ref)).requesting) :
    r = ref ∨ r ∈ n.requesting := by
  by_cases hne : r = ref
  · exact .inl hne
  · have hc := step_carries h.orderly h.owned.tidy (.turn ref)
    rw [mem_requesting, hc.exchanges (.load r) (by simpa [Event.holder?] using Ne.symm hne)] at hr
    exact .inr (mem_requesting.mpr hr)

theorem turn_active (h : n.Regular) (href : ref ∈ n.ready) :
    (n.step (.turn ref)).active ⊆ n.active := by
  intro r hr
  rw [mem_active] at hr ⊢
  rcases hr with hr | hr
  · rcases turn_ready hr with hr | ⟨_,rfl | hr⟩
    · exact .inl (List.mem_of_mem_erase hr)
    · exact .inl href
    · exact .inr hr
  · rcases turn_requesting h hr with rfl | hr
    · exact .inl href
    · exact .inr hr

/-- Who has an exchange has run. -/
theorem Sane.begun (hs : n.Sane) (hr : r ∈ n.requesting) : n.unbegun r = false := by
  obtain ⟨x,hx⟩ := Option.isSome_iff_exists.mp (mem_requesting.mp hr)
  obtain ⟨t,ht,hb,_⟩ := hs.requests r x hx
  rw [unbegun, ht]
  simp [hb]

theorem turn_unbegun (h : n.Regular) (hr : (n.step (.turn ref)).unbegun r = true) :
    r ≠ ref ∧ n.unbegun r = true := by
  obtain ⟨t,ht,hb⟩ := unbegun_iff.mp hr
  have hne : r ≠ ref := by
    rintro rfl
    obtain ⟨x,hx,_⟩ := h.attended.turn h.orderly h.sane h.owned ht
    have hbegun := (h.step (.turn r)).sane.begun (mem_requesting.mpr (Option.isSome_of_eq_some hx))
    rw [hbegun] at hr
    cases hr
  refine ⟨hne,?_⟩
  rcases task_before h.orderly ht (by simpa using Ne.symm hne) (by simp) with ht | ⟨he,_⟩
  · exact unbegun_iff.mpr ⟨t,ht,hb⟩
  · cases he

theorem turn_novices (h : n.Regular) (ref : LoadRef) :
    (n.step (.turn ref)).novices ⊆ n.novices.erase ref := by
  intro r hr
  obtain ⟨hr,hu⟩ := mem_novices.mp hr
  obtain ⟨hne,hu⟩ := turn_unbegun h hu
  refine Finset.mem_erase.mpr ⟨hne,mem_novices.mpr ⟨?_,hu⟩⟩
  rcases turn_ready hr with hr | ⟨_,rfl | hr⟩
  · exact List.mem_of_mem_erase hr
  · exact absurd rfl hne
  · rw [h.sane.begun hr] at hu
    cases hu

theorem ready_length_le (h : n.ready.Nodup) : n.ready.length ≤ n.active.card := by
  rw [← List.toFinset_card_of_nodup h]
  refine Finset.card_le_card fun r hr => mem_active.mpr (.inl ?_)
  exact List.mem_toFinset.mp hr

theorem turn_toil (h : n.Regular) (href : ref ∈ n.ready) :
    (n.step (.turn ref)).toil < n.toil := by
  have hactive := Finset.card_le_card (turn_active h href)
  have hnovices := Finset.card_le_card (turn_novices h ref)
  have hnodup := step_nodup h.nodup (.turn ref)
  unfold toil
  by_cases hu : n.unbegun ref = true
  -- one novice less makes up for everybody who is woken
  · have hmem : ref ∈ n.novices := mem_novices.mpr ⟨href,hu⟩
    have hlength := ready_length_le hnodup
    rw [Finset.card_erase_of_mem hmem] at hnovices
    obtain ⟨k,hk⟩ := Nat.exists_eq_succ_of_ne_zero (Finset.card_ne_zero_of_mem hmem)
    have hfewer : (n.step (.turn ref)).novices.card ≤ k := by omega
    have hmul := Nat.mul_le_mul hfewer (Nat.add_le_add_right hactive 1)
    rw [hk, Nat.succ_mul]
    omega
  -- nobody is woken, so the line gets shorter
  · have hsub : (n.step (.turn ref)).ready ⊆ n.ready.erase ref := fun r hr =>
      (turn_ready hr).resolve_right fun h => hu h.1
    have hlength := (List.subperm_of_subset hnodup hsub).length_le
    have hpos := List.length_pos_of_mem href
    rw [List.length_erase_of_mem href] at hlength
    have hmul := Nat.mul_le_mul (hnovices.trans (Finset.card_le_card (Finset.erase_subset ..)))
      (Nat.add_le_add_right hactive 1)
    omega

/-! ## Runs -/

theorem run_ready (h : n.Regular) {k : Nat} (hk : n.toil ≤ k) : (n.run k).ready = [] := by
  induction k generalizing n with
  | zero =>
    rw [toil] at hk
    exact List.length_eq_zero_iff.mp (by rw [run]; omega)
  | succ k ih =>
    unfold run
    cases hr : n.ready with
    | nil => exact hr
    | cons ref rest =>
      rw [if_neg (by simp), n.runNext_eq_step hr]
      have hmem : ref ∈ n.ready := by
        rw [hr]
        exact List.mem_cons_self
      have hlt := turn_toil h hmem
      exact ih (h.step _) (by omega)

theorem toil_le (n : Network) : n.toil ≤ n.turnBound := by
  have hnovices : n.novices.card ≤ n.ready.length :=
    (List.toFinset_card_le _).trans (List.length_filter_le ..)
  have hrequesting : n.requesting.length ≤ n.exchanges.size := by
    refine (List.length_filterMap_le ..).trans_eq ?_
    rw [Table.keys, List.length_map, Table.size]
  have hactive : n.active.card ≤ n.ready.length + n.exchanges.size := by
    refine (List.toFinset_card_le _).trans ?_
    rw [List.length_append]
    omega
  have hmul := Nat.mul_le_mul hnovices (Nat.add_le_add_right hactive 1)
  unfold toil turnBound
  rw [Nat.succ_mul]
  omega

/-- Nothing stands in line when everything has settled. -/
theorem settle_ready (h : n.Regular) : n.settle.ready = [] := run_ready h n.toil_le

end

end ChatToken.Network
