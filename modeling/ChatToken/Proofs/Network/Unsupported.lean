import ChatToken.Proofs.Network.Settled
import ChatToken.Scenario.Tokens

/-! # Peers without support

A peer whose load came back saying that it does not know the command is left alone as long as its
mark counts, and the first lookup after that asks it again.
-/
namespace ChatToken.Network

/-- From the moment a load of `p` has ended with `unsupported`, `p` is left alone by its manager for
the whole time to live of the mark, unless it is forgotten: lookups say `unsupported`, whoever waits
for a token gets none, and nothing is sent to `p`. The first lookup after that time starts a new
request. What happens to other peers and how often the mark is looked at makes no difference. -/
theorem unsupported_left_alone (peers : List Peer) (configs : List TokenConfig)
    (before : List Event) (m : Fin configs.length) (p : Fin peers.length) {id : Nat} {e : Event}
    {command : String}
    (hr : (((start peers configs).after before).manager m).loader.Running id p)
    (he : ((start peers configs).after before).Ends e ⟨m,id⟩ (.failed (.unsupported command)))
    (es : List Event) :
    let n := (start peers configs).after before
    let n₁ := n.step e
    let n₂ := n₁.after es
    let ttl := (configs.get m).unsupportedTtl.nanos
    (.forget m p ∉ es → n₂.now - n.now ≤ ttl →
      (n₂.lookup m p).1 = .unsupported ∧
      (Scenario.Tokens.observe (n₂.lookup m p).2 (.ofLookup (n₂.lookup m p).1)).1 =
        some (.ok none) ∧
      (n₂.isUnsupported m p).1 = true ∧ n₁.sentBy m p es = []) ∧
    (Always (fun n' e' => (e' = .forget m p → ttl < n'.now - n.now) ∧
        (e' = .lookup m p → n'.now - n.now ≤ ttl)) n₁ es →
      ttl < n₂.now - n.now → n₂.StartsRequest m p) := by
  intro n n₁ n₂ ttl
  have hn : n.Orderly := reached_orderly peers configs before
  have hm : m < n.managers.length := lt_of_ends he
  have hn₁ : n₁.Orderly := hn.step e
  have hm₁ : m < n₁.managers.length := by rwa [n.step_managers_length e]
  have hc₁ : (n₁.manager m).config = configs.get m :=
    (step_config hn e m).trans (reached_config peers configs before m)
  have hc₂ : (n₂.manager m).config = configs.get m := (after_config hn₁ es m).trans hc₁
  have hmark : n₁.about m p = .unsupported n.now := he.about_eq hn hr
  have hp₁ : p < n₁.peers.length := by
    rw [n.step_peers_length e, reached_peers_length]
    exact p.isLt
  have hcounts : ∀ now, (PeerState.unsupported n.now).counts (n₁.manager m).config now =
      decide (now - n.now ≤ ttl) := by
    rw [hc₁]
    exact fun _ => rfl
  constructor
  · intro hf hnow
    obtain ⟨habout,hlookup,hsent⟩ := left_alone hn₁ hm₁ rfl hmark hf
      ((hcounts n₂.now).trans (decide_eq_true hnow))
    refine ⟨hlookup,by rw [hlookup]; rfl,?_,hsent⟩
    refine (isUnsupported_answer (hn₁.after es)).mpr ⟨_,habout,?_⟩
    rw [hc₂]
    exact decide_eq_true hnow
  · exact asked_again_after hn₁ hm₁ hp₁ rfl hmark hcounts

/-- With the default time to live of 300 seconds, a peer that has refused a request is left alone
for exactly that long. -/
theorem refused_peer_left_alone :
    let n := (start [{ name := "irc" }] [{}]).after
      [.lookup 0 0, .turn ⟨0,0⟩, .deliver 0 (.of "421" ["me", "EXTJWT", "Unknown command"])]
    let n₁ := n.step (.turn ⟨0,0⟩)
    n.Ends (.turn ⟨0,0⟩) ⟨0,0⟩ (.failed (.unsupported Reply.extjwt)) ∧
    ((n₁.after [.pass 300000000000]).lookup 0 0).1 = .unsupported ∧
    (n₁.after [.pass 300000000001]).StartsRequest 0 0 := by
  intro n n₁
  have hr : (n.manager 0).loader.Running 0 0 := by decide +kernel
  have he : n.Ends (.turn ⟨0,0⟩) ⟨0,0⟩ (.failed (.unsupported Reply.extjwt)) := by decide +kernel
  have h := unsupported_left_alone [{ name := "irc" }] [{}]
    [.lookup 0 0, .turn ⟨0,0⟩, .deliver 0 (.of "421" ["me", "EXTJWT", "Unknown command"])]
    ⟨0,by decide⟩ ⟨0,by decide⟩ hr he
  refine ⟨he,?_,?_⟩
  · exact ((h [.pass 300000000000]).1 (by decide) (by decide +kernel)).1
  · refine (h [.pass 300000000001]).2 ?_ (by decide +kernel)
    simp [Always]

end ChatToken.Network
