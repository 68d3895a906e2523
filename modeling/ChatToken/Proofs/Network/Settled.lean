import ChatToken.Proofs.Network.Requests

/-! # What is settled about a peer

A token or a mark stays as long as it counts, unless the peer is forgotten, and nothing is sent to
the peer. The first lookup after that starts a new request.
-/
namespace ChatToken.Network

section
variable {n : Network} {m p : Nat} {s : PeerState}

/-- There was `s` for `p`, and nothing has been done about it since, unless it did not count any
more by then. -/
def Rests (n : Network) (m p : Nat) (s : PeerState) : Prop :=
  n.about m p = s ∨ (n.about m p = .unknown ∧ s.counts (n.manager m).config n.now = false)

theorem Rests.about_eq (h : n.Rests m p s) (hc : s.counts (n.manager m).config n.now = true) :
    n.about m p = s := by
  rcases h with h | ⟨_,hno⟩
  · exact h
  · rw [hc] at hno
    cases hno

theorem Rests.load?_eq_none (h : n.Rests m p s) (hs : s.load? = none) :
    (n.about m p).load? = none := by
  rcases h with h | ⟨h,_⟩ <;> rw [h]
  · exact hs
  · rfl

/-- What does not count is looked up again. -/
theorem Rests.lookedUp_eq (h : n.Rests m p s)
    (hno : s.counts (n.manager m).config n.now = false) (fresh : Nat) :
    (n.about m p).lookedUp (n.manager m).config n.now fresh = .pending fresh := by
  rcases h with h | ⟨h,_⟩ <;> rw [h, PeerState.lookedUp]
  · rw [if_neg (Bool.eq_false_iff.mp hno)]
  · rfl

theorem Rests.step (hn : n.Orderly) (hm : m < n.managers.length) (hs : s.load? = none)
    (h : n.Rests m p s) {e : Event}
    (hf : e = .forget m p → s.counts (n.manager m).config n.now = false)
    (hl : e = .lookup m p → s.counts (n.manager m).config n.now = true) :
    (n.step e).Rests m p s := by
  -- what does not count any more never counts again
  have gone : (n.step e).about m p = .unknown → s.counts (n.manager m).config n.now = false →
      (n.step e).Rests m p s := by
    intro hu hno
    refine .inr ⟨hu,Bool.eq_false_iff.mpr ?_⟩
    rw [step_config hn e _]
    intro hc
    rw [PeerState.counts_of_later (n.now_le_step e) hc] at hno
    cases hno
  rcases step_settled hn hm (h.load?_eq_none hs) e with ⟨he,ha⟩ | ⟨he,ha⟩ | ha | ha
  · rw [h.about_eq (hl he), PeerState.lookedUp, if_pos (hl he)] at ha
    exact .inl ha
  · exact gone ha (hf he)
  · rcases h with h | ⟨h,hno⟩
    · exact .inl (ha.trans h)
    · exact gone (ha.trans h) hno
  · rcases h with h | ⟨h,hno⟩
    · rw [h] at ha
      rcases PeerState.expire_cases with hx | ⟨hx,hno⟩
      · exact .inl (ha.trans hx)
      · exact gone (ha.trans hx) hno
    · rw [h] at ha
      exact gone ha hno

theorem Rests.after (hn : n.Orderly) (hm : m < n.managers.length) (hs : s.load? = none)
    (h : n.Rests m p s) {es : List Event}
    (hq : Always (fun n' e =>
      (e = .forget m p → s.counts (n.manager m).config n'.now = false) ∧
      (e = .lookup m p → s.counts (n.manager m).config n'.now = true)) n es) :
    Always (fun n' _ => n'.Rests m p s) n es ∧ (n.after es).Rests m p s := by
  have hkeep := Always.keeps (P := fun n' => n'.Orderly ∧ m < n'.managers.length ∧
    (n'.manager m).config = (n.manager m).config ∧ n'.Rests m p s) ?_ ⟨hn,hm,rfl,h⟩ hq
  · exact ⟨hkeep.1.mono fun _ _ h => h.2.2.2,hkeep.2.2.2.2⟩
  · rintro n' e ⟨hn',hm',hc,h'⟩ ⟨hf,hl⟩
    rw [← hc] at hf hl
    exact ⟨hn'.step e,by rwa [n'.step_managers_length e],(step_config hn' e m).trans hc,
      h'.step hn' hm' hs hf hl⟩

/-- What counts stays, and nothing is sent. -/
theorem left_alone (hn : n.Orderly) (hm : m < n.managers.length) (hs : s.load? = none)
    (h : n.about m p = s) {es : List Event} (hf : .forget m p ∉ es)
    (hc : s.counts (n.manager m).config (n.after es).now = true) :
    (n.after es).about m p = s ∧ ((n.after es).lookup m p).1 = s.answer m ∧
    n.sentBy m p es = [] := by
  have hquiet := ((always_of_not_mem n hf).and (always_now_le n (Nat.le_refl _))).mono
    (Q := fun n' e => (e = .forget m p → s.counts (n.manager m).config n'.now = false) ∧
      (e = .lookup m p → s.counts (n.manager m).config n'.now = true))
    fun n' e he => ⟨fun hfe => absurd hfe he.1,fun _ => PeerState.counts_of_later he.2 hc⟩
  obtain ⟨hall,hend⟩ := Rests.after hn hm hs (.inl h) hquiet
  have hm' : m < (n.after es).managers.length := by rwa [after_managers_length]
  have hc' : s.counts ((n.after es).manager m).config (n.after es).now = true := by
    rwa [after_config hn es _]
  have habout := hend.about_eq hc'
  refine ⟨habout,?_,?_⟩
  · rw [lookup_answer (hn.after es) hm', lookup_about (hn.after es) hm', habout,
      PeerState.lookedUp, if_pos hc']
  · refine sentBy_eq_nil hn (hall.mono fun n' _ h' id hid => ?_)
    have hnone := h'.load?_eq_none hs
    rw [hid] at hnone
    cases hnone

/-- The first lookup behind what does not count any more asks the peer. -/
theorem asked_again (hn : n.Orderly) (hm : m < n.managers.length) (hp : p < n.peers.length)
    (hs : s.load? = none) (h : n.about m p = s) {es : List Event}
    (hfirst : Always (fun n' e =>
      (e = .forget m p → s.counts (n.manager m).config n'.now = false) ∧
      (e = .lookup m p → s.counts (n.manager m).config n'.now = true)) n es)
    (hlate : s.counts (n.manager m).config (n.after es).now = false) :
    (n.after es).StartsRequest m p := by
  have hend := (Rests.after hn hm hs (.inl h) hfirst).2
  refine startsRequest (hn.after es) ?_ ?_ ?_
  · rwa [after_managers_length]
  · rwa [after_peers_length]
  · rw [← after_config hn es m] at hlate
    exact hend.lookedUp_eq hlate _

/-- The same about what counts for a limited time. -/
theorem asked_again_after (hn : n.Orderly) (hm : m < n.managers.length) (hp : p < n.peers.length)
    (hs : s.load? = none) (h : n.about m p = s) {t limit : Nat}
    (hcounts : ∀ now, s.counts (n.manager m).config now = decide (now - t ≤ limit))
    {es : List Event}
    (hfirst : Always (fun n' e => (e = .forget m p → limit < n'.now - t) ∧
      (e = .lookup m p → n'.now - t ≤ limit)) n es)
    (hlate : limit < (n.after es).now - t) : (n.after es).StartsRequest m p := by
  refine asked_again hn hm hp hs h (hfirst.mono fun n' e he => ?_) ?_
  · rw [hcounts, decide_eq_false_iff_not, decide_eq_true_iff, Nat.not_le]
    exact he
  · rw [hcounts, decide_eq_false_iff_not, Nat.not_le]
    exact hlate

/-- A peer that nothing is known about is asked by the next lookup. -/
theorem asked_of_unknown (hn : n.Orderly) (hm : m < n.managers.length) (hp : p < n.peers.length)
    (h : n.about m p = .unknown) {es : List Event} (hl : .lookup m p ∉ es) :
    (n.after es).StartsRequest m p := by
  refine asked_again hn hm hp rfl h ((always_of_not_mem _ hl).mono ?_) rfl
  exact fun n' e h => ⟨fun _ => rfl,fun hlookup => absurd hlookup h⟩

end

end ChatToken.Network
