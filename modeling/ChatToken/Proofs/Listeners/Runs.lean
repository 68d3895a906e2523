import ChatToken.Listeners.Run
import ChatToken.Proofs.Listeners
import ChatToken.Proofs.Table

/-! # Listeners hear everything once

What a set of listeners has about one of them is the state of a small machine, which moves with the
events that concern this listener and with no other. What the listener gets, when its registration
is dropped and that the others are of no concern to it are facts about this machine.
-/
namespace ChatToken.Listeners

theorem heard_cons (id : Nat) (e : Event) (es : List Event) :
    heard id (e :: es) =
      if e.silences id = true then [] else e.message?.toList ++ heard id es := by
  by_cases hs : e.silences id = true
  · simp [heard, hs]
  · cases hm : e.message? <;> simp [heard, hs, hm]

theorem dropped_cons (id : Nat) (e : Event) (es : List Event) :
    Dropped id (e :: es) ↔ (e = .close id ∧ ∃ m, .dispatch m ∈ es) ∨ Dropped id es := by
  constructor
  · rintro ⟨first,m,later,heq,hm⟩
    cases first with
    | nil =>
      obtain ⟨rfl,rfl⟩ := List.cons.inj heq
      exact .inl ⟨rfl,m,hm⟩
    | cons _ first => exact .inr ⟨first,m,later,(List.cons.inj heq).2,hm⟩
  · rintro (⟨rfl,m,hm⟩ | ⟨first,m,later,rfl,hm⟩)
    · exact ⟨[],m,es,rfl,hm⟩
    · exact ⟨e :: first,m,later,rfl,hm⟩

@[simp] theorem not_dropped_nil (id : Nat) : ¬Dropped id [] := by
  rintro ⟨first,m,later,heq,-⟩
  cases first <;> cases heq

/-! ## One listener -/

namespace Seat

def next (id : Nat) (s : Seat) : Event → Seat
  | .remove id' => if id' = id then { s with registered := false } else s
  | .dispatch m =>
    ⟨s.registered && s.inbox.isSome,
      s.inbox.map fun unread => if s.registered then unread ++ [m] else unread⟩
  | .clear => { s with registered := false }
  | .close id' => if id' = id then { s with inbox := none } else s
  | .read id' count =>
    if id' = id then { s with inbox := s.inbox.map (·.drop count) } else s
  | .add => s

def unread (s : Seat) : List Message := s.inbox.getD []

def takes (id : Nat) (s : Seat) : Event → List Message
  | .read id' count => if id' = id then s.unread.take count else []
  | .close id' => if id' = id then s.unread else []
  | _ => []

def run (id : Nat) (s : Seat) (es : List Event) : Seat := es.foldl (next id) s

def taken (id : Nat) (s : Seat) : List Event → List Message
  | [] => []
  | e :: es => s.takes id e ++ (s.next id e).taken id es

def fresh : Seat := ⟨true,some []⟩

variable {id : Nat} (s : Seat) (e : Event) (es : List Event)

@[simp] theorem run_nil : s.run id [] = s := rfl

@[simp] theorem run_cons : s.run id (e :: es) = (s.next id e).run id es := rfl

variable {e} in
theorem next_of_not_concerns (h : e.concerns id = false) : s.next id e = s ∧ s.takes id e = [] := by
  cases e with
  | add => exact ⟨rfl,rfl⟩
  | dispatch | clear => cases h
  | remove id' | close id' | read id' =>
    have hne : id' ≠ id := by simpa [Event.concerns] using h
    simp [next, takes, hne]

theorem run_filter : s.run id (es.filter (·.concerns id)) = s.run id es := by
  induction es generalizing s with
  | nil => rfl
  | cons e es ih =>
    cases hc : e.concerns id with
    | true => simpa [List.filter_cons, hc] using ih (s.next id e)
    | false => simpa [List.filter_cons, hc, (s.next_of_not_concerns hc).1] using ih s

theorem taken_filter : s.taken id (es.filter (·.concerns id)) = s.taken id es := by
  induction es generalizing s with
  | nil => rfl
  | cons e es ih =>
    cases hc : e.concerns id with
    | true => simpa [List.filter_cons, hc, taken] using ih (s.next id e)
    | false =>
      simpa [List.filter_cons, hc, taken, s.next_of_not_concerns hc] using ih s

/-- Nobody hears anything who is not registered or does not listen. -/
theorem got_of_silent (h : s.registered = false ∨ s.inbox = none) :
    s.taken id es ++ (s.run id es).unread = s.unread := by
  induction es generalizing s with
  | nil => rfl
  | cons e es ih =>
    have hnext : (s.next id e).registered = false ∨ (s.next id e).inbox = none := by
      cases e with
      | add => exact h
      | clear => exact .inl rfl
      | dispatch m =>
        rcases h with h | h
        · exact .inl (by simp [next, h])
        · exact .inr (by simp [next, h])
      | remove id' | close id' | read id' count =>
        by_cases hid : id' = id
        · rcases h with h | h <;> simp [next, hid, h]
        · simpa [next, hid] using h
    rw [taken, run_cons, List.append_assoc, ih _ hnext]
    cases e with
    | add | clear => rfl
    | dispatch m =>
      rcases h with h | h
      · simp [next, takes, unread, h]
      · simp [next, takes, unread, h]
    | remove id' | close id' | read id' count =>
      by_cases hid : id' = id
      · cases hi : s.inbox <;> simp [next, takes, unread, hid, hi]
      · simp [next, takes, hid]

/-- Who listens hears what is dispatched, behind what waits already. -/
theorem got_of_listening (unread : List Message) (hr : s.registered = true)
    (hi : s.inbox = some unread) :
    s.taken id es ++ (s.run id es).unread = unread ++ heard id es := by
  induction es generalizing s unread with
  | nil => simp [taken, heard, Seat.unread, hi]
  | cons e es ih =>
    rw [taken, run_cons, List.append_assoc, heard_cons]
    by_cases hs : e.silences id = true
    · have hnext : (s.next id e).registered = false ∨ (s.next id e).inbox = none := by
        cases e with
        | clear => exact .inl rfl
        | add | dispatch | read => cases hs
        | remove id' | close id' =>
          have hid : id' = id := by simpa [Event.silences] using hs
          simp [next, hid]
      rw [got_of_silent _ _ hnext, if_pos hs]
      cases e with
      | clear => simp [next, takes, Seat.unread, hi]
      | add | dispatch | read => cases hs
      | remove id' | close id' =>
        have hid : id' = id := by simpa [Event.silences] using hs
        simp [next, takes, Seat.unread, hid, hi]
    · rw [if_neg hs]
      cases e with
      | add => exact ih s unread hr hi
      | clear => exact absurd rfl hs
      | dispatch m =>
        have h := ih (s.next id (.dispatch m)) (unread ++ [m]) (by simp [next, hr, hi])
          (by simp [next, hr, hi])
        rw [h, List.append_assoc]
        rfl
      | remove id' | close id' =>
        have hid : id' ≠ id := by simpa [Event.silences] using hs
        simpa [takes, next, Event.message?, hid] using ih s unread hr hi
      | read id' count =>
        by_cases hid : id' = id
        · have h := ih (s.next id (.read id' count)) (unread.drop count) (by simp [next, hid, hr])
            (by simp [next, hid, hi])
          rw [h, ← List.append_assoc]
          simp [takes, hid, Seat.unread, hi, Event.message?]
        · simpa [takes, next, Event.message?, hid] using ih s unread hr hi

theorem isSome_run :
    (s.run id es).inbox.isSome = true ↔ s.inbox.isSome = true ∧ .close id ∉ es := by
  induction es generalizing s with
  | nil => simp
  | cons e es ih =>
    rw [run_cons, ih]
    cases e with
    | add | clear | dispatch => simp [next]
    | remove id' | close id' | read id' count =>
      by_cases hid : id' = id <;> simp [next, hid, @eq_comm _ id]

/-- A registration is kept until it is removed, all are cleared or a dispatch finds nobody there. -/
theorem registered_run_of_closed (h : s.inbox = none) :
    (s.run id es).registered = true ↔ s.registered = true ∧ .remove id ∉ es ∧ .clear ∉ es ∧
      ∀ m, .dispatch m ∉ es := by
  induction es generalizing s with
  | nil => simp
  | cons e es ih =>
    have hnext : (s.next id e).inbox = none := by
      cases e with
      | add | clear => exact h
      | dispatch => simp [next, h]
      | remove id' | close id' | read id' => by_cases hid : id' = id <;> simp [next, hid, h]
    rw [run_cons, ih _ hnext]
    cases e with
    | add => simp [next]
    | clear => simp [next]
    | dispatch m =>
      simp only [next, h, Option.isSome_none, Bool.and_false, Bool.false_eq_true, false_and,
        List.mem_cons, not_or, false_iff]
      exact fun hd => (hd.2.2.2 m).1 rfl
    | remove id' | close id' | read id' => by_cases hid : id' = id <;> simp [next, hid, @eq_comm _ id]

theorem registered_run_of_open (h : s.inbox.isSome = true) :
    (s.run id es).registered = true ↔ s.registered = true ∧ .remove id ∉ es ∧ .clear ∉ es ∧
      ¬Dropped id es := by
  induction es generalizing s with
  | nil => simp
  | cons e es ih =>
    rw [run_cons, dropped_cons]
    by_cases hc : e = .close id
    · subst hc
      have hd : Dropped id es → ∃ m, .dispatch m ∈ es := by
        rintro ⟨first,m,later,rfl,hm⟩
        exact ⟨m,by simp [hm]⟩
      rw [registered_run_of_closed _ _ (by simp [next])]
      simp only [next, if_true, List.mem_cons, reduceCtorEq, false_or, true_and, not_or, not_exists]
      exact and_congr_right' (and_congr_right' (and_congr_right' ⟨fun hm =>
        ⟨hm,fun hx => (hd hx).elim hm⟩,And.left⟩))
    · have hnext : (s.next id e).inbox.isSome = true := by
        cases e with
        | add | clear => exact h
        | dispatch => simpa [next] using h
        | remove id' | read id' => by_cases hid : id' = id <;> simpa [next, hid] using h
        | close id' =>
          have hid : id' ≠ id := by simpa using hc
          simpa [next, hid] using h
      rw [ih _ hnext]
      cases e with
      | add | clear => simp [next]
      | dispatch => simp [next, h]
      | remove id' | read id' | close id' =>
        by_cases hid : id' = id <;> simp_all [next, @eq_comm _ id]

end Seat

/-! ## The set -/

section Inbox

variable (ls : Listeners) (id id' : Nat) (m : Message) (count : Nat)

@[simp] theorem inbox_add :
    ls.add.2.inboxes.get? id = if ls.nextId = id then some [] else ls.inboxes.get? id := by
  simp [add, Table.get?_insert]

@[simp] theorem inbox_remove : (ls.remove id').inboxes.get? id = ls.inboxes.get? id := rfl

@[simp] theorem inbox_dispatch :
    (ls.dispatch m).inboxes.get? id =
      (ls.inboxes.get? id).map fun unread =>
        if ls.isRegistered id then unread ++ [m] else unread := by
  simp [dispatch, Table.get?_mapValues]

@[simp] theorem inbox_clear : ls.clear.inboxes.get? id = ls.inboxes.get? id := rfl

@[simp] theorem inbox_close :
    (ls.close id').inboxes.get? id = if id' = id then none else ls.inboxes.get? id := by
  simp [close, Table.get?_erase]

@[simp] theorem inbox_read :
    (ls.read id' count).inboxes.get? id =
      if id' = id then (ls.inboxes.get? id).map (·.drop count) else ls.inboxes.get? id := by
  simp [read, Table.get?_adjust]

@[simp] theorem isRegistered_read :
    (ls.read id' count).isRegistered id = ls.isRegistered id := rfl

/-- Reading everything that waits empties the inbox. -/
theorem read_all : ls.read id (ls.unread id).length = ls.drain id := by
  have h : ∀ e ∈ ls.inboxes.entries, e.1 = id → e.2.drop (ls.unread id).length = [] := by
    rintro ⟨_,unread⟩ he rfl
    have hu := (Table.mem_entries_iff _ _ _).mp he
    simp [Listeners.unread, hu]
  simp only [read, drain, Table.adjust, Table.mapValues, mk.injEq, Table.mk.injEq, true_and]
  apply List.map_congr_left
  intro e he
  by_cases hid : e.1 = id
  · simp [hid, h e he hid]
  · simp [hid]

end Inbox

variable (ls : Listeners)

@[simp] theorem seat_add : ls.add.2.seat ls.add.1 = .fresh := by
  simp [seat, Seat.fresh, add, isRegistered, Table.get?_insert]

variable {id : Nat}

/-- A listener that has its number already sees just the events that concern it. -/
theorem seat_step (hid : id < ls.nextId) (e : Event) :
    (ls.step e).seat id = (ls.seat id).next id e := by
  cases e with
  | add =>
    have hne : ls.nextId ≠ id := by omega
    simp [step, seat, Seat.next, hne, hne.symm]
  | dispatch m =>
    cases hr : ls.isRegistered id <;> simp [step, seat, Seat.next, hasInbox, Table.contains, hr]
  | clear => simp [step, seat, Seat.next]
  | remove id' | close id' | read id' =>
    by_cases h : id' = id <;> simp [step, seat, Seat.next, h, @eq_comm _ id]

theorem takes_eq (id : Nat) (e : Event) : ls.takes id e = (ls.seat id).takes id e := by
  cases e <;> rfl

theorem le_nextId_step (e : Event) : ls.nextId ≤ (ls.step e).nextId := by
  cases e <;> simp [step, add, remove, dispatch, clear, close, read]

theorem seat_after (hid : id < ls.nextId) (es : List Event) :
    (ls.after es).seat id = (ls.seat id).run id es := by
  induction es generalizing ls with
  | nil => rfl
  | cons e es ih =>
    rw [Seat.run_cons, ← seat_step ls hid]
    exact ih _ (hid.trans_le (ls.le_nextId_step e))

theorem taken_eq (hid : id < ls.nextId) (es : List Event) :
    ls.taken id es = (ls.seat id).taken id es := by
  induction es generalizing ls with
  | nil => rfl
  | cons e es ih =>
    rw [taken, Seat.taken, takes_eq, ← seat_step ls hid, ih _ (hid.trans_le (ls.le_nextId_step e))]

theorem add_lt : ls.add.1 < ls.add.2.nextId := Nat.lt_succ_self _

theorem seat_after_add (es : List Event) :
    (ls.add.2.after es).seat ls.add.1 = Seat.fresh.run ls.add.1 es := by
  rw [seat_after _ ls.add_lt, seat_add]

theorem taken_after_add (es : List Event) :
    ls.add.2.taken ls.add.1 es = Seat.fresh.taken ls.add.1 es := by
  rw [taken_eq _ ls.add_lt, seat_add]

theorem serves (es : List Event) : ls.Serves es := by
  have hseat := ls.seat_after_add es
  have hreg : (ls.add.2.after es).isRegistered ls.add.1 = (Seat.fresh.run ls.add.1 es).registered :=
    congrArg Seat.registered hseat
  have hinbox : (ls.add.2.after es).inboxes.get? ls.add.1 = (Seat.fresh.run ls.add.1 es).inbox :=
    congrArg Seat.inbox hseat
  have hopen : (Seat.fresh.run ls.add.1 es).registered = true ↔
      .remove ls.add.1 ∉ es ∧ .clear ∉ es ∧ ¬Dropped ls.add.1 es := by
    simpa [Seat.fresh] using @Seat.registered_run_of_open ls.add.1 .fresh es rfl
  refine ⟨?_,?_,?_,?_,?_⟩
  · rw [got, taken_after_add, unread, hinbox]
    exact Seat.got_of_listening .fresh es [] rfl rfl
  · rw [hreg, hopen]
  · rw [hasInbox, Table.contains, hinbox, Seat.isSome_run]
    simp [Seat.fresh]
  · intro hc
    have hd : ¬Dropped ls.add.1 es := by
      rintro ⟨first,m,later,rfl,-⟩
      simp at hc
    rw [← Bool.not_eq_true, hreg, hopen, not_and_or, not_and_or, not_not, not_not, not_not,
      or_iff_left hd]
  · intro ls' es' hid hes
    have hseat' := ls'.seat_after_add es'
    have htaken' := ls'.taken_after_add es'
    rw [hid] at hseat' htaken'
    rw [hseat', hseat, htaken', taken_after_add, ← Seat.run_filter _ es', hes, Seat.run_filter,
      ← Seat.taken_filter _ es', hes, Seat.taken_filter]
    exact ⟨rfl,rfl⟩

/-! ## The numbers -/

theorem issued_eq (es : List Event) :
    ls.issued es = List.range' ls.nextId (es.count .add) := by
  induction es generalizing ls with
  | nil => rfl
  | cons e es ih =>
    rw [issued, ih]
    cases e with
    | add => simp [step, add, List.range'_succ]
    | remove | dispatch | clear | close | read => rfl

/-- Only who has got a number is registered under it. -/
theorem mem_issued_of_isRegistered {es : List Event}
    (h : (ls.after es).isRegistered id = true) :
    ls.isRegistered id = true ∨ id ∈ ls.issued es := by
  induction es generalizing ls with
  | nil => exact .inl h
  | cons e es ih =>
    rw [issued, List.mem_append]
    rcases ih (ls.step e) h with h | h
    · cases e with
      | add =>
        rw [step, isRegistered_add, Bool.or_eq_true, beq_iff_eq] at h
        exact h.imp_right fun h => .inl (by simp [add, h])
      | remove | dispatch =>
        simp only [step, isRegistered_remove, isRegistered_dispatch, Bool.and_eq_true] at h
        exact .inl h.1
      | clear => simp [step] at h
      | close | read => exact .inl h
    · exact .inr (.inr h)

theorem removes_iff : ls.removes id = true ↔ ls.isRegistered id = true := by
  simp [removes, remove, size, isRegistered, List.length_filter_lt_length_iff_exists]

theorem hasInbox_of_dispatched {m : Message}
    (h : (ls.dispatch m).isRegistered id = true) : (ls.dispatch m).hasInbox id = true := by
  rw [isRegistered_dispatch, Bool.and_eq_true] at h
  simpa [hasInbox, Table.contains] using h.2

/-- Listeners get their numbers in order and no number twice. Each gets all that is dispatched while
it is registered and listens, and a removal finds it as long as it is registered. Other listeners do
not matter to it. A dispatch leaves nobody registered who does not listen. -/
theorem listeners_served (es : List Event) :
    (issued {} es).Pairwise (· < ·) ∧ (∀ id ∈ issued {} es, id < es.count .add) ∧
    (∀ before since, es = before ++ .add :: since → (after {} before).Serves since) ∧
    (∀ id, (after {} es).removes id = true ↔ (after {} es).isRegistered id = true) ∧
    (∀ id, (after {} es).isRegistered id = true → id ∈ issued {} es) ∧
    (∀ m id, ((after {} es).dispatch m).isRegistered id = true →
      ((after {} es).dispatch m).hasInbox id = true) := by
  refine ⟨?_,?_,?_,?_,?_,?_⟩
  · rw [issued_eq]
    exact List.pairwise_lt_range'
  · intro id hid
    rw [issued_eq, List.mem_range'_1] at hid
    simpa using hid.2
  · rintro before since -
    exact serves _ since
  · exact fun id => removes_iff _
  · exact fun id hid => (mem_issued_of_isRegistered _ hid).resolve_left (by simp [isRegistered])
  · exact fun m id => hasInbox_of_dispatched _

end ChatToken.Listeners

namespace ChatToken.Scenario.Listening

open Listeners

/-- What the user of a scenario does to listeners is a run of them. -/
theorem act_listeners (s : Listening) (a : ListeningAction) :
    (s.act a).2.listeners = s.listeners.after (s.deeds a) := by
  cases a with
  | add name =>
    cases hn : s.names.get? name <;> simp [act, close, deeds, hn, Listeners.after, Listeners.step]
  | remove name =>
    cases hn : s.names.get? name <;> simp [act, deeds, hn, Listeners.after, Listeners.step]
  | compare => rfl
  | close name =>
    cases hn : s.names.get? name <;> simp [act, close, deeds, hn, Listeners.after, Listeners.step]
  | clear => rfl
  | dispatch line =>
    cases hm : Message.parse? line <;> simp [act, deeds, hm, Listeners.after, Listeners.step]
  | drain name =>
    cases hn : s.names.get? name with
    | none => simp [act, deeds, hn, Listeners.after]
    | some id =>
      cases hi : s.listeners.hasInbox id <;>
        simp [act, deeds, hn, hi, Option.filter, Listeners.after, Listeners.step, read_all]

end ChatToken.Scenario.Listening
