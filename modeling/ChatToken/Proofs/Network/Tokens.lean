import ChatToken.Proofs.Network.History
import ChatToken.Proofs.Network.Settled

/-! # Tokens that are handed out

The token that a lookup hands out comes from the last load of its peer, which has made it of what
the peer has said. It is handed out until it is too old, and then the peer is asked again.
-/
namespace ChatToken.Network

/-- In the event `e` after `es`, the load `id` of `p` ends with a token that it has just made of what
`p` has delivered since the load asked for it. -/
structure Acquires (n : Network) (es : List Event) (e : Event) (m p id : Nat) (tok : Token) :
    Prop where
  running : ((n.after es).manager m).loader.Running id p
  ends : (n.after es).Ends e ⟨m,id⟩ (.loaded tok)
  now : tok.acquiredAt = (n.after es).now
  source : ∃ ms, n.Asked ⟨m,id⟩ p (es ++ [e]) ms ∧
    Verdict.response (ms.map Reply.classify) = some (.ok tok.value)

section
variable {n : Network} {m p : Nat} {tok : Token}

theorem Always.concat {P : Network → Event → Prop} {es : List Event} (h : Always P n es)
    {e : Event} (he : P (n.after es) e) : Always P n (es ++ [e]) := by
  induction es generalizing n with
  | nil => exact ⟨he,trivial⟩
  | cons e' es ih => exact ⟨h.1,ih h.2 he⟩

/-- A token that is there was there before, or a load has brought it. -/
theorem token_step (hn : n.Orderly) (hm : m < n.managers.length) {e : Event}
    (h : (n.step e).about m p = .valid tok) :
    (n.about m p = .valid tok ∧ e ≠ .forget m p) ∨
    ∃ id, (n.manager m).loader.Running id p ∧ n.Ends e ⟨m,id⟩ (.loaded tok) := by
  rw [step_about hn hm] at h
  by_cases hforget : e = .forget m p
  · subst hforget
    simp only [deed?, if_true, Option.elim_some, PeerState.next] at h
    cases hs : n.about m p <;> rw [hs] at h <;> cases h
  · cases hd : n.deed? m e with
    | none =>
      rw [hd] at h
      exact .inl ⟨h,hforget⟩
    | some d =>
      rw [hd] at h
      rcases PeerState.next_eq_valid h with hv | ⟨id,q,rfl,hp,_⟩
      · exact .inl ⟨hv,hforget⟩
      · exact .inr ⟨id,(hn m).about_eq_pending.mp hp,ends_of_finish hn hd⟩

/-- A token that is there was brought by a load, and no other load of its peer has run since. -/
theorem token_since (hn : n.Orderly) (hm : m < n.managers.length)
    (h₀ : n.about m p ≠ .valid tok) {es : List Event} (h : (n.after es).about m p = .valid tok) :
    ∃ before e later id, es = before ++ e :: later ∧
      ((n.after before).manager m).loader.Running id p ∧
      (n.after before).Ends e ⟨m,id⟩ (.loaded tok) ∧ .forget m p ∉ later ∧
      Always (fun n' _ => ∀ id', ¬ (n'.manager m).loader.Running id' p)
        ((n.after before).step e) later := by
  -- from the end of the run, because the load that has brought the token lies before
  induction es using List.reverseRecOn with
  | nil => exact absurd h h₀
  | append_singleton es e ih =>
    rw [after_concat] at h
    have hm' : m < (n.after es).managers.length := by rwa [after_managers_length]
    rcases token_step (hn.after es) hm' h with ⟨hv,hforget⟩ | ⟨id,hr,he⟩
    · have hidle : ∀ id', ¬ ((n.after es).manager m).loader.Running id' p := by
        intro id' hr
        have hp : (n.after es).about m p = .pending id' := (hn.after es m).about_eq_pending.mpr hr
        rw [hv] at hp
        cases hp
      obtain ⟨before,e₀,later,id,rfl,hr,he,hf,halways⟩ := ih hv
      rw [after_append] at hidle
      exact ⟨before,e₀,later ++ [e],id,by simp,hr,he,by simp [hf, Ne.symm hforget],
        halways.concat hidle⟩
    · exact ⟨es,e,[],id,rfl,hr,he,by simp,trivial⟩

/-- A lookup hands out only what is there and young enough. -/
theorem token_of_ready (hn : n.Orderly) (hm : m < n.managers.length)
    (h : (n.lookup m p).1 = .ready tok) :
    n.about m p = .valid tok ∧ (n.manager m).config.accepts n.now tok = true := by
  rw [lookup_answer hn hm, lookup_about hn hm] at h
  exact (PeerState.lookedUp_eq_settled rfl).mp (PeerState.answer_eq_ready.mp h)

/-- A new token has no age. -/
theorem accepts_new (c : TokenConfig) {now : Nat} (h : tok.acquiredAt = now) :
    c.accepts now tok = true := by
  have hage : (tok.age now).nanos = now - tok.acquiredAt := rfl
  rw [TokenConfig.accepts, hage, h, Nat.sub_self]
  exact decide_eq_true (Nat.zero_le _)

theorem Ends.token_kept (hn : n.Orderly) {e : Event} {id : Nat}
    (hr : (n.manager m).loader.Running id p) (he : n.Ends e ⟨m,id⟩ (.loaded tok))
    (hnow : tok.acquiredAt = n.now) : (n.step e).about m p = .valid tok :=
  (he.about_eq hn hr).trans (PeerState.left_eq_valid.mpr ⟨rfl,accepts_new _ hnow⟩)

end

theorem reached_acquires (peers : List Peer) (configs : List TokenConfig) {m id : Nat}
    (p : Fin peers.length) {es : List Event} {e : Event} {tok : Token}
    (hr : (((start peers configs).after es).manager m).loader.Running id p)
    (he : ((start peers configs).after es).Ends e ⟨m,id⟩ (.loaded tok)) :
    (start peers configs).Acquires es e m p id tok := by
  obtain ⟨hnow,hsource⟩ := (recounts peers configs es).loaded (reached_orderly peers configs es)
    (reached_sane peers configs es) p.isLt hr he
  exact ⟨hr,he,hnow,hsource⟩

/-- A lookup hands out a token only if it is not empty, is not too old, and was acquired by the load
of `p` that has ended last, from what `p` has said, while `p` has not been forgotten since. And from
the moment a load of `p` has stored its token, lookups of `p` hand it out and nothing is sent to `p`,
until it is too old or `p` is forgotten. The first lookup behind a token that is too old starts a new
request. -/
theorem tokens_fresh_and_kept (peers : List Peer) (configs : List TokenConfig)
    (m : Fin configs.length) (p : Fin peers.length) :
    let n := start peers configs
    let age := (configs.get m).maxTokenAge.nanos
    (∀ es tok, ((n.after es).lookup m p).1 = .ready tok →
      tok.value ≠ "" ∧ (n.after es).now - tok.acquiredAt ≤ age ∧
      ∃ before e later id, es = before ++ e :: later ∧ n.Acquires before e m p id tok ∧
        .forget m p ∉ later ∧
        Always (fun n' _ => ∀ id', ¬ (n'.manager m).loader.Running id' p)
          ((n.after before).step e) later) ∧
    ∀ before e id tok, ((n.after before).manager m).loader.Running id p →
      (n.after before).Ends e ⟨m,id⟩ (.loaded tok) →
      let n₁ := (n.after before).step e
      ∀ es,
        (.forget m p ∉ es → (n₁.after es).now - tok.acquiredAt ≤ age →
          ((n₁.after es).lookup m p).1 = .ready tok ∧ n₁.sentBy m p es = []) ∧
        (Always (fun n' e' => (e' = .forget m p → age < n'.now - tok.acquiredAt) ∧
            (e' = .lookup m p → n'.now - tok.acquiredAt ≤ age)) n₁ es →
          age < (n₁.after es).now - tok.acquiredAt → (n₁.after es).StartsRequest m p) := by
  intro n age
  have hn : ∀ es, (n.after es).Orderly := reached_orderly peers configs
  have hs : ∀ es, (n.after es).Sane := reached_sane peers configs
  have hm : ∀ es, m < (n.after es).managers.length := fun es => by
    rw [reached_managers_length]
    exact m.isLt
  have hc : ∀ es, ((n.after es).manager m).config = configs.get m :=
    fun es => reached_config peers configs es m
  constructor
  · intro es tok hready
    obtain ⟨hvalid,hyoung⟩ := token_of_ready (hn es) (hm es) hready
    rw [hc] at hyoung
    refine ⟨(hs es).tokens m p tok hvalid,of_decide_eq_true hyoung,?_⟩
    have hnone : n.about m p ≠ .valid tok := by
      rw [about, start_manager]
      simp [Manager.about, Manager.new]
    obtain ⟨before,e,later,id,hes,hr,he,hf,hidle⟩ := token_since (hn []) (hm []) hnone hvalid
    exact ⟨before,e,later,id,hes,reached_acquires peers configs p hr he,hf,hidle⟩
  · intro before e id tok hr he n₁ es
    have hn₁ : n₁.Orderly := (hn before).step e
    have hm₁ : m < n₁.managers.length := by
      rw [(n.after before).step_managers_length e]
      exact hm before
    have hc₁ : (n₁.manager m).config = configs.get m :=
      (step_config (hn before) e m).trans (hc before)
    have hp₁ : p < n₁.peers.length := by
      rw [(n.after before).step_peers_length e, reached_peers_length]
      exact p.isLt
    have hcounts : ∀ now, (PeerState.valid tok).counts (n₁.manager m).config now =
        decide (now - tok.acquiredAt ≤ age) := by
      rw [hc₁]
      exact fun _ => rfl
    have hvalid : n₁.about m p = .valid tok :=
      he.token_kept (hn before) hr (reached_acquires peers configs p hr he).now
    constructor
    · intro hf hyoung
      refine (left_alone hn₁ hm₁ rfl hvalid hf ?_).2
      rw [hcounts]
      exact decide_eq_true hyoung
    · exact asked_again_after hn₁ hm₁ hp₁ rfl hvalid hcounts

/-- A token that came in two pieces is handed out for 15 seconds, the default, and then the peer is
asked again. -/
theorem token_in_pieces_kept :
    let before : List Event := [.lookup 0 0, .turn ⟨0,0⟩,
      .deliver 0 (.of "EXTJWT" ["*", "*", "*", "abc"]), .deliver 0 (.of "EXTJWT" ["*", "*", "def"])]
    let n := start [{ name := "irc" }] [{}]
    let n₁ := (n.after before).step (.turn ⟨0,0⟩)
    (∃ es e id, n.Acquires es e 0 0 id ⟨"abcdef",0⟩) ∧
    ((n₁.after [.pass 15000000000]).lookup 0 0).1 = .ready ⟨"abcdef",0⟩ ∧
    (n₁.after [.pass 15000000001]).StartsRequest 0 0 := by
  intro before n n₁
  obtain ⟨hready,hkept⟩ := tokens_fresh_and_kept [{ name := "irc" }] [{}]
    ⟨0,by decide⟩ ⟨0,by decide⟩
  have hr : ((n.after before).manager 0).loader.Running 0 0 := by decide +kernel
  have he : (n.after before).Ends (.turn ⟨0,0⟩) ⟨0,0⟩ (.loaded ⟨"abcdef",0⟩) := by decide +kernel
  refine ⟨?_,?_,?_⟩
  · obtain ⟨_,_,es,e,_,id,_,hacquires,_⟩ :=
      hready (before ++ [.turn ⟨0,0⟩]) ⟨"abcdef",0⟩ (by decide +kernel)
    exact ⟨es,e,id,hacquires⟩
  · exact ((hkept before _ 0 _ hr he [.pass 15000000000]).1 (by decide) (by decide +kernel)).1
  · exact (hkept before _ 0 _ hr he [.pass 15000000001]).2 (by simp [Always]) (by decide +kernel)

end ChatToken.Network
