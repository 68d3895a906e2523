import ChatToken.Network.Direct
import ChatToken.Proofs.Network.Listening
import ChatToken.Proofs.Network.Replies

/-! # Acts

A request without a manager is no concern of the managers and of the other exchanges. So what is true
of every reachable network is true of those that are reached with such requests as well.
-/
namespace ChatToken.Network

section
variable (n : Network)

theorem outer_startRequest (c p : Nat) (service : Option String) (timeout : Span) :
    Outer n (n.startRequest c p service timeout).2 := by
  have ho := n.outer_openRequest (.caller c) p service timeout
  unfold startRequest
  rcases hs : n.openRequest (.caller c) p service timeout with ⟨_ | cause | line,n'⟩ <;>
    rw [hs] at ho
  · exact ho.trans (n'.quiet_pollRequest _).outer
  · exact ho.trans (n'.quiet_failRequest _ cause).outer
  · exact ho.trans (n'.quiet_closeExchange _).outer

theorem outer_act {a : Act} (h : ∀ e, a ≠ .event e) : Outer n (n.act a) := by
  cases a with
  | event e => exact absurd rfl (h e)
  | request c p service timeout =>
    simp only [act]
    split
    · exact .refl n
    · exact n.outer_startRequest c p service timeout
  | lookRequest c => exact (n.quiet_pollRequest _).outer

theorem act_peers_length (a : Act) : (n.act a).peers.length = n.peers.length := by
  cases a with
  | event e => exact n.step_peers_length e
  | _ => exact (n.outer_act (by simp)).length

theorem now_le_act (a : Act) : n.now ≤ (n.act a).now := by
  cases a with
  | event e => exact n.now_le_step e
  | _ => exact Nat.le_of_eq (n.outer_act (by simp)).now.symm

@[simp] theorem play_nil : n.play [] = n := rfl

@[simp] theorem play_cons (a : Act) (as : List Act) : n.play (a :: as) = (n.act a).play as := rfl

theorem play_peers_length (as : List Act) : (n.play as).peers.length = n.peers.length := by
  induction as generalizing n with
  | nil => rfl
  | cons a as ih => exact (ih _).trans (n.act_peers_length a)

end

section
variable {n : Network}

theorem carries_startRequest (ht : n.Tidy) (c p : Nat) (service : Option String) (timeout : Span) :
    Carries (some (.caller c)) (fun q => if p = q then answers (n.peer q) Reply.extjwt
      (Reply.anyTarget :: service.toList) else []) n (n.startRequest c p service timeout).2 := by
  have ho := carries_openRequest ht (.caller c) p service timeout
  have then_quiet : ∀ {n' : Network},
      Carries (some (.caller c)) (fun _ => []) (n.openRequest (.caller c) p service timeout).2 n' →
      Carries (some (.caller c)) (fun q => if p = q then answers (n.peer q) Reply.extjwt
        (Reply.anyTarget :: service.toList) else []) n n' :=
    fun hc => (ho.trans hc).congr fun _ => List.append_nil _
  unfold startRequest
  rcases hs : n.openRequest (.caller c) p service timeout with ⟨_ | cause | line,n'⟩ <;>
    rw [hs] at ho then_quiet
  · exact then_quiet (carries_pollRequest ho.tidy _)
  · exact then_quiet (carries_failRequest ho.tidy _ cause)
  · exact then_quiet (carries_closeExchange ho.tidy _)

/-- Every act carries the exchanges on that it is not about. -/
theorem act_carries (hn : n.Orderly) (ht : n.Tidy) (a : Act) :
    Carries a.holder? (fun q => n.conveys q a) n (n.act a) := by
  cases a with
  | event e => exact step_carries hn ht e
  | request c p service timeout =>
    simp only [act, conveys]
    cases hc : n.exchanges.contains (.caller c) with
    | true =>
      refine ((Carries.of_inner ht (.refl n)).weaken _).congr ?_
      simp
    | false =>
      refine (carries_startRequest ht c p service timeout).congr ?_
      simp
  | lookRequest c => exact carries_pollRequest ht _

theorem Orderly.of_managers {n' : Network} (hn : n.Orderly) (h : n'.managers = n.managers) :
    n'.Orderly := by
  intro m
  have hm : n'.manager m = n.manager m := congrArg (·.getD m default) h
  rw [hm]
  exact hn m

/-- A lookup is answered by its manager alone. -/
theorem lookup_congr {n' : Network} (hn : n.Orderly) (hmanagers : n'.managers = n.managers)
    (hnow : n'.now = n.now) (hm : m < n.managers.length) (p : Nat) :
    (n'.lookup m p).1 = (n.lookup m p).1 := by
  have hn' : n'.Orderly := hn.of_managers hmanagers
  have hmanager : n'.manager m = n.manager m := congrArg (·.getD m default) hmanagers
  rw [lookup_answer hn hm, lookup_about hn hm, lookup_answer hn' (hmanagers ▸ hm),
    lookup_about hn' (hmanagers ▸ hm), about, about, hmanager, hnow]

theorem Orderly.act (hn : n.Orderly) (a : Act) : (n.act a).Orderly := by
  cases a with
  | event e => exact hn.step e
  | _ => exact hn.of_managers (n.outer_act (by simp)).managers

/-- What does not touch the managers or the requests of their loads keeps a network sane. -/
theorem Sane.of_managers {n' : Network} (hs : n.Sane) (h : n'.managers = n.managers)
    (ht : n'.Tidy) (hx : ∀ ref, n'.exchanges.get? (.load ref) = n.exchanges.get? (.load ref)) :
    n'.Sane := by
  have hm : ∀ m, n'.manager m = n.manager m := fun m => congrArg (·.getD m default) h
  refine ⟨ht,?_,?_,?_⟩
  · intro ref x hr
    rw [hm]
    exact hs.requests ref x ((hx ref).symm.trans hr)
  · intro ref ending he
    rw [ending?, hm] at he
    rw [hm]
    exact hs.endings ref ending he
  · intro m p t ha
    rw [about, hm] at ha
    exact hs.tokens m p t ha

theorem Sane.act (hn : n.Orderly) (hs : n.Sane) (a : Act) : (n.act a).Sane := by
  have hc := act_carries hn hs.tidy a
  cases a with
  | event e => exact hs.step hn e
  | _ =>
    exact hs.of_managers (n.outer_act (by simp)).managers hc.tidy
      fun ref => hc.exchanges (.load ref) (by simp [Act.holder?])

theorem Orderly.play (hn : n.Orderly) (as : List Act) : (n.play as).Orderly := by
  induction as generalizing n with
  | nil => exact hn
  | cons a as ih => exact ih (hn.act a)

theorem Sane.play (hn : n.Orderly) (hs : n.Sane) (as : List Act) : (n.play as).Sane := by
  induction as generalizing n with
  | nil => exact hs
  | cons a as ih => exact ih (hn.act a) (hs.act hn a)

end

end ChatToken.Network
