import ChatToken.Proofs.Network.Replies
import ChatToken.Proofs.Network.Settled
import ChatToken.Scenario.Tokens

/-! # What callers get, and what is remembered

Whoever waits for a token gets one that is not empty, or none, or one of a few errors. Only that a
peer does not know the command is remembered; after every other failure the next lookup asks again.
-/
namespace ChatToken

inductive Surfaced (c : TokenConfig) : Outcome → Prop where
  | token {t : Token} : t.value ≠ "" → Surfaced c (.ok (some t))
  | unsupported : Surfaced c (.ok none)
  | timeout : Surfaced c (.error (.timeout c.requestTimeout))
  | protocol (detail : String) : Surfaced c (.error (.protocol detail))
  | malformed (detail : String) : Surfaced c (.error (.malformed detail))
  | disconnected : Surfaced c (.error .disconnected)
  | sendFailed (cause : String) : Surfaced c (.error (.sendFailed cause))
  | internal : Surfaced c (.error .internal)

theorem Expected.surfaced {c : TokenConfig} {ending : Ending Token TokenError}
    (h : Expected c ending) : Surfaced c ending.outcome := by
  cases ending with
  | loaded t => exact .token h
  | lost => exact .internal
  | failed e =>
    cases h with
    | unsupported => exact .unsupported
    | timeout => exact .timeout
    | protocol detail => exact .protocol detail
    | malformed detail => exact .malformed detail
    | disconnected => exact .disconnected
    | sendFailed cause => exact .sendFailed cause

/-- Only a refused load comes to no token without a failure. -/
theorem outcome_eq_none {ending : Ending Token TokenError} :
    ending.outcome = .ok none ↔ ∃ command, ending = .failed (.unsupported command) := by
  cases ending with
  | failed e => cases e <;> simp [Ending.outcome, Ending.resolve]
  | _ => simp [Ending.outcome, Ending.resolve]

namespace Network

open Scenario (Promise)

section
variable {n : Network} {m p : Nat}

theorem observe_outcome (n : Network) (ref : LoadRef) :
    (n.observe ref).1 = (n.ending? ref).map Ending.outcome := by
  unfold observe ending?
  cases (n.manager ref.manager).loader.ending? ref.load with
  | none => rfl
  | some e => cases e <;> rfl

def observed (n : Network) (a : TokenLookup) : Option Outcome :=
  (Scenario.Tokens.observe n (.ofLookup a)).1

theorem observed_pending (n : Network) (ref : LoadRef) :
    n.observed (.pending ref) = (n.ending? ref).map Ending.outcome :=
  n.observe_outcome ref

/-- What comes of waiting for a load, and when that is no token. -/
theorem pending_observed (hn : n.Orderly) (hs : n.Sane) {ref : LoadRef}
    (hopen : n.ending? ref = none) {es : List Event} {o : Outcome}
    (h : (n.after es).observed (.pending ref) = some o) :
    Surfaced (n.manager ref.manager).config o ∧
    (o = .ok none ↔ ∃ a e b command, es = a ++ e :: b ∧
      (n.after a).Ends e ref (.failed (.unsupported command))) := by
  rw [observed_pending, Option.map_eq_some_iff] at h
  obtain ⟨ending,he,rfl⟩ := h
  have hexpected := (hs.after hn es).endings _ _ he
  rw [after_config hn es _] at hexpected
  refine ⟨hexpected.surfaced,?_⟩
  rw [outcome_eq_none]
  constructor
  · rintro ⟨command,rfl⟩
    obtain ⟨a,e,b,hab,hends⟩ := (ending_iff_ends hn hopen).mp he
    exact ⟨a,e,b,command,hab,hends⟩
  · rintro ⟨a,e,b,command,hab,hends⟩
    have he' := (ending_iff_ends hn hopen).mpr ⟨a,e,b,hab,hends⟩
    rw [he] at he'
    exact ⟨command,Option.some.inj he'⟩

/-- What comes of a lookup that is answered, and when that is no token. -/
theorem lookup_observed (hn : n.Orderly) (hs : n.Sane) (hm : m < n.managers.length)
    {es : List Event} {o : Outcome}
    (h : ((n.lookup m p).2.after es).observed (n.lookup m p).1 = some o) :
    Surfaced (n.manager m).config o ∧
    (o = .ok none ↔
      (∃ t, (n.manager m).marks.since.get? p = some t ∧
        (n.manager m).config.remembers n.now t = true) ∨
      ∃ ref a e b command, (n.lookup m p).1 = .pending ref ∧ es = a ++ e :: b ∧
        ((n.lookup m p).2.after a).Ends e ref (.failed (.unsupported command))) := by
  have hn' : (n.lookup m p).2.Orderly := hn.step (.lookup m p)
  have hs' : (n.lookup m p).2.Sane := hs.step hn (.lookup m p)
  have hm' : m < (n.lookup m p).2.managers.length := by rwa [(n.inner_lookup m p).length]
  have hc : ((n.lookup m p).2.manager m).config = (n.manager m).config :=
    step_config hn (.lookup m p) m
  have hafter := lookup_about hn hm p
  -- a mark counts if and only if the lookup comes to it
  have hmark : (∃ t, (n.manager m).marks.since.get? p = some t ∧
      (n.manager m).config.remembers n.now t = true) ↔
      ∃ t, (n.lookup m p).2.about m p = .unsupported t := by
    refine exists_congr fun t => ?_
    rw [mark_eq_some hn, hafter, PeerState.lookedUp_eq_settled rfl]
    rfl
  rw [hmark]
  have ha := lookup_answer hn hm p
  cases hk : (n.lookup m p).2.about m p with
  | pending id =>
    rw [hk] at ha
    have ha' : (n.lookup m p).1 = .pending ⟨m,id⟩ := ha
    obtain ⟨t,ht,_⟩ := (hn' m).about_eq_pending.mp hk
    have hopen : (n.lookup m p).2.ending? ⟨m,id⟩ = none := (hn' m).loader.no_ending ht
    rw [ha'] at h ⊢
    obtain ⟨hsurfaced,hnone⟩ := pending_observed hn' hs' hopen h
    rw [hc] at hsurfaced
    refine ⟨hsurfaced,hnone.trans ⟨?_,?_⟩⟩
    · rintro ⟨a,e,b,command,hab,hends⟩
      exact .inr ⟨_,a,e,b,command,rfl,hab,hends⟩
    · rintro (⟨t,ht⟩ | ⟨ref,a,e,b,command,href,hab,hends⟩)
      · cases ht
      · cases href
        exact ⟨a,e,b,command,hab,hends⟩
  | valid t =>
    rw [hk] at ha
    have ha' : (n.lookup m p).1 = .ready t := ha
    rw [ha'] at h
    cases h
    refine ⟨.token (hs'.tokens m p t hk),?_⟩
    simp [ha']
  | unsupported t =>
    rw [hk] at ha
    have ha' : (n.lookup m p).1 = .unsupported := ha
    rw [ha'] at h
    cases h
    exact ⟨.unsupported,by simp⟩
  | unknown => cases ((PeerState.lookedUp_eq_settled rfl).mp (hafter.symm.trans hk)).2

/-- A manager to which an event does nothing stays as it is. -/
theorem manager_of_idle (hn : n.Orderly) {e : Event} (h : n.deed? m e = none) :
    (n.step e).manager m = n.manager m := by
  by_cases hm : m < n.managers.length
  · rw [step_manager n hn e hm, h, Option.elim_none]
  · have hm' : ¬ m < (n.step e).managers.length := by rwa [n.step_managers_length e]
    rw [manager_of_not_lt hm, manager_of_not_lt hm']

/-- A load that ends with a failure that is not remembered leaves all tokens and marks as they
were. -/
theorem Ends.failure_keeps (hn : n.Orderly) {e : Event} {id : Nat}
    {ending : Ending Token TokenError} (h : n.Ends e ⟨m,id⟩ ending)
    (ht : ∀ t, ending ≠ .loaded t) (hu : ∀ command, ending ≠ .failed (.unsupported command))
    (k q : Nat) :
    ((n.step e).manager k).loader.cache.get? q = (n.manager k).loader.cache.get? q ∧
    ((n.step e).manager k).marks = (n.manager k).marks := by
  have hm : m < n.managers.length := lt_of_ends h
  obtain ⟨p,⟨t,htask,rfl,hunsettled⟩,hdeed⟩ := h.deed hn
  by_cases hk : k = m
  · subst hk
    rw [step_manager n hn e hm]
    have hs := (hn k).loader
    obtain ⟨result,hd,rfl⟩ | ⟨hd,rfl⟩ := hdeed
    · rw [hd]
      have hc := hs.finish_concluded htask hunsettled
        (Manager.staleness (n.manager k).config n.now) result
      cases result with
      | ok t' => exact absurd rfl (ht t')
      | error e' =>
        refine ⟨hc.cache_of_failure hs ⟨t,htask,rfl,hunsettled⟩ q,?_⟩
        cases e' with
        | unsupported command => exact absurd rfl (hu command)
        | _ => rfl
    · rw [hd]
      exact ⟨(hs.abandon_concluded htask hunsettled).cache_of_failure hs
        ⟨t,htask,rfl,hunsettled⟩ q,rfl⟩
  · have hidle : n.deed? k e = none := by
      have he : e = .turn ⟨m,id⟩ ∨ e = .die ⟨m,id⟩ := by
        obtain ⟨result,hd,_⟩ | ⟨hd,_⟩ := hdeed
        · exact event_of_load hd rfl
        · exact event_of_load hd rfl
      rcases he with rfl | rfl
      · exact if_neg (Ne.symm hk)
      · exact if_neg (Ne.symm hk)
    rw [manager_of_idle hn hidle]
    exact ⟨rfl,rfl⟩

/-- A refusal is the only way to get a mark, and a load that is refused marks its peer, which was
not marked, once. -/
theorem Ends.marks (hn : n.Orderly) {e : Event} {id : Nat} {command : String}
    (hr : (n.manager m).loader.Running id p)
    (h : n.Ends e ⟨m,id⟩ (.failed (.unsupported command))) :
    (n.manager m).marks.since.get? p = none ∧
    ((n.step e).manager m).marks.since.get? p = some n.now := by
  constructor
  · have hp : n.about m p = .pending id := (hn m).about_eq_pending.mpr hr
    cases hmark : (n.manager m).marks.since.get? p with
    | none => rfl
    | some t =>
      rw [mark_eq_some hn, hp] at hmark
      cases hmark
  · rw [mark_eq_some (hn.step e)]
    exact h.about_eq hn hr

/-- After a failure that is not remembered, nothing is known about the peer. -/
theorem Ends.forgotten (hn : n.Orderly) {e : Event} {id : Nat}
    {ending : Ending Token TokenError} (hr : (n.manager m).loader.Running id p)
    (h : n.Ends e ⟨m,id⟩ ending) (ht : ∀ t, ending ≠ .loaded t)
    (hu : ∀ command, ending ≠ .failed (.unsupported command)) :
    (n.step e).about m p = .unknown := by
  rw [h.about_eq hn hr]
  cases ending with
  | loaded t => exact absurd rfl (ht t)
  | lost => rfl
  | failed e' =>
    cases e' with
    | unsupported command => exact absurd rfl (hu command)
    | _ => rfl

end

/-- Whoever waits for a token gets one that is not empty, none, or one of a few errors. There is
none if and only if the peer had a mark that counted when it was looked up, or the load that the
lookup attached to was refused. Each load that is refused marks its peer once, whoever waits for
it, and nothing else marks a peer. A load that fails otherwise leaves all tokens and marks as they
were, and the next lookup of its peer starts a new request. -/
theorem outcomes_surfaced_and_remembered (peers : List Peer) (configs : List TokenConfig)
    (before : List Event) (m : Fin configs.length) (p : Fin peers.length) :
    let n := (start peers configs).after before
    let c := configs.get m
    (∀ es o, ((n.lookup m p).2.after es).observed (n.lookup m p).1 = some o →
      Surfaced c o ∧
      (o = .ok none ↔
        (∃ t, (n.manager m).marks.since.get? p = some t ∧ c.remembers n.now t = true) ∨
        ∃ ref a e b command, (n.lookup m p).1 = .pending ref ∧ es = a ++ e :: b ∧
          ((n.lookup m p).2.after a).Ends e ref (.failed (.unsupported command)))) ∧
    (∀ e id command, (n.manager m).loader.Running id p →
      n.Ends e ⟨m,id⟩ (.failed (.unsupported command)) →
      (n.manager m).marks.since.get? p = none ∧
      ((n.step e).manager m).marks.since.get? p = some n.now ∧
      ∀ es e' ending, ¬ ((n.step e).after es).Ends e' ⟨m,id⟩ ending) ∧
    (∀ e t, ((n.step e).manager m).marks.since.get? p = some t →
      (n.manager m).marks.since.get? p = some t ∨
      (t = n.now ∧ ∃ id command, (n.manager m).loader.Running id p ∧
        n.Ends e ⟨m,id⟩ (.failed (.unsupported command)))) ∧
    (∀ e id ending, (n.manager m).loader.Running id p → n.Ends e ⟨m,id⟩ ending →
      (∀ t, ending ≠ .loaded t) → (∀ command, ending ≠ .failed (.unsupported command)) →
      (∀ k q, ((n.step e).manager k).loader.cache.get? q = (n.manager k).loader.cache.get? q ∧
        ((n.step e).manager k).marks = (n.manager k).marks) ∧
      ∀ es, .lookup m p ∉ es → ((n.step e).after es).StartsRequest m p) := by
  intro n c
  have hn : n.Orderly := reached_orderly peers configs before
  have hs : n.Sane := reached_sane peers configs before
  have hm : m < n.managers.length := by
    rw [reached_managers_length]
    exact m.isLt
  have hc : (n.manager m).config = c := reached_config peers configs before m
  refine ⟨?_,?_,fun e t => mark_step hn hm,?_⟩
  · intro es o ho
    rw [← hc]
    exact lookup_observed hn hs hm ho
  · intro e id command hr he
    obtain ⟨hbefore,hafter⟩ := he.marks hn hr
    exact ⟨hbefore,hafter,he.once hn⟩
  · intro e id ending hr he ht hu
    refine ⟨he.failure_keeps hn ht hu,?_⟩
    intro es hl
    refine asked_of_unknown (hn.step e) (by rwa [n.step_managers_length e]) ?_
      (he.forgotten hn hr ht hu) hl
    rw [n.step_peers_length e, reached_peers_length]
    exact p.isLt

/-- A second caller attaches to the load of the first. If the request times out, after the default
of ten seconds, it gets that error and the next lookup asks again; if the request is refused, the
peer is marked. -/
theorem second_caller_outcomes :
    let begun := (start [{ name := "irc" }] [{}]).after [.lookup 0 0]
    let slow := (start [{ name := "irc" }] [{}]).after
      [.lookup 0 0, .turn ⟨0,0⟩, .pass 10001000000, .sound]
    let refused := (start [{ name := "irc" }] [{}]).after
      [.lookup 0 0, .turn ⟨0,0⟩, .deliver 0 (.of "421" ["me", "EXTJWT", "Unknown command"])]
    (begun.lookup 0 0).1 = .pending ⟨0,0⟩ ∧
    Surfaced {} (.error (.timeout (Span.ofSeconds 10))) ∧
    (slow.step (.turn ⟨0,0⟩)).StartsRequest 0 0 ∧
    ((refused.step (.turn ⟨0,0⟩)).manager 0).marks.since.get? 0 = some refused.now := by
  intro begun slow refused
  have h := fun before => outcomes_surfaced_and_remembered [{ name := "irc" }] [{}] before
    ⟨0,by decide⟩ ⟨0,by decide⟩
  have hlate : ((begun.lookup 0 0).2.after
      [.turn ⟨0,0⟩, .pass 10001000000, .sound, .turn ⟨0,0⟩]).observed (begun.lookup 0 0).1 =
      some (.error (.timeout (Span.ofSeconds 10))) := by decide +kernel
  have hslow : slow.Ends (.turn ⟨0,0⟩) ⟨0,0⟩ (.failed (.timeout (Span.ofSeconds 10))) := by
    decide +kernel
  have hrefused : refused.Ends (.turn ⟨0,0⟩) ⟨0,0⟩ (.failed (.unsupported Reply.extjwt)) := by
    decide +kernel
  have hr : (slow.manager 0).loader.Running 0 0 ∧ (refused.manager 0).loader.Running 0 0 := by
    decide +kernel
  refine ⟨by decide +kernel,?_,?_,?_⟩
  · exact ((h _).1 _ _ hlate).1
  · exact ((h _).2.2.2 _ 0 _ hr.1 hslow (by simp) (by simp)).2 [] (by simp)
  · exact ((h _).2.1 _ 0 _ hr.2 hrefused).2.1

end Network
end ChatToken
