import ChatToken.Token.Marking
import ChatToken.Network.Metering
import ChatToken.Proofs.Marks
import ChatToken.Proofs.Network.Metering

/-! # Dropped marks are not missed

An expired mark that is dropped and one that is kept are told apart by nobody: a check answers by
the age of the last mark that was not removed, as if no mark was ever dropped. What is kept right
after a peer was marked is what counts then, no more and no less, so that the number of marks that
is reported is the number of peers that a check would find marked.
-/
namespace ChatToken
namespace Marks

variable {κ : Type} {ttl : Span} {p : κ} {es : List (Event κ)}

/-! ## The last mark -/

theorem lastMarked_cons (e : Event κ) (age : Nat) :
    LastMarked p (e :: es) age ↔ LastMarked p es age ∨
      (e = .mark p ∧ .mark p ∉ es ∧ .remove p ∉ es ∧ passed es = age) := by
  constructor
  · rintro ⟨first,later,hes,hlater⟩
    cases first with
    | nil =>
      obtain ⟨rfl,rfl⟩ := List.cons.inj hes
      exact .inr ⟨rfl,hlater⟩
    | cons e' first =>
      obtain ⟨-,rfl⟩ := List.cons.inj hes
      exact .inl ⟨first,later,rfl,hlater⟩
  · rintro (⟨first,later,rfl,hlater⟩ | ⟨rfl,hlater⟩)
    · exact ⟨e :: first,later,rfl,hlater⟩
    · exact ⟨[],es,rfl,hlater⟩

variable [DecidableEq κ]

/-- What was there before matters as long as `p` is neither marked nor removed. -/
theorem foldl_aged (es : List (Event κ)) (age : Option Nat) (a : Nat) :
    es.foldl (aged p) age = some a ↔ LastMarked p es a ∨
      (.mark p ∉ es ∧ .remove p ∉ es ∧ ∃ b, age = some b ∧ b + passed es = a) := by
  induction es generalizing age with
  | nil =>
    have hnone : ¬ LastMarked p [] a := by
      rintro ⟨first,later,hes,-⟩
      simp at hes
    simp [hnone, passed]
  | cons e es ih =>
    rw [List.foldl_cons, ih, lastMarked_cons, or_assoc]
    refine or_congr_right ?_
    cases e with
    | mark q =>
      by_cases hq : q = p
      · subst hq
        simp [aged]
      · simp [aged, hq, Ne.symm hq, passed, Event.nanos]
    | check q => simp [aged, passed, Event.nanos]
    | remove q =>
      by_cases hq : q = p
      · subst hq
        simp [aged]
      · simp [aged, hq, Ne.symm hq, passed, Event.nanos]
    | pass nanos =>
      cases age <;> simp [aged, passed, Event.nanos, Nat.add_assoc]

theorem age?_eq_some {a : Nat} : age? p es = some a ↔ LastMarked p es a := by
  simp [age?, foldl_aged]

/-! ## What is kept -/

namespace World

/-- A mark of `p` that is kept is the last one, whose age is `age`; and it is kept as long as it
counts. -/
structure Tracks (w : World κ) (p : κ) (age : Option Nat) : Prop where
  kept : ∀ t, w.marks.since.get? p = some t → t ≤ w.now ∧ age = some (w.now - t)
  counting : ∀ a, age = some a → a ≤ w.marks.ttl.nanos → ∃ t, w.marks.since.get? p = some t

variable {w : World κ} {age : Option Nat}

/-- Nothing is lost if the mark of `p` is dropped because it has expired. -/
theorem Tracks.filter (h : w.Tracks p age) {ms : Marks κ} (httl : ms.ttl = w.marks.ttl)
    (hms : ms.since.get? p = (w.marks.since.get? p).filter (w.marks.fresh w.now)) :
    World.Tracks { w with marks := ms } p age where
  kept t ht := by
    rw [hms] at ht
    exact h.kept t (Option.filter_eq_some_iff.mp ht).1
  counting a ha hle := by
    rw [httl] at hle
    obtain ⟨t,ht⟩ := h.counting a ha hle
    obtain ⟨-,hage⟩ := h.kept t ht
    obtain rfl : a = w.now - t := Option.some.inj (ha.symm.trans hage)
    refine ⟨t,?_⟩
    rw [hms, ht, Option.filter_some, if_pos ((fresh_iff ..).mpr hle)]

theorem Tracks.same (h : w.Tracks p age) {ms : Marks κ} (httl : ms.ttl = w.marks.ttl)
    (hms : ms.since.get? p = w.marks.since.get? p) :
    World.Tracks { w with marks := ms } p age where
  kept t ht := h.kept t (hms.symm.trans ht)
  counting a ha hle := by
    obtain ⟨t,ht⟩ := h.counting a ha (by rwa [← httl])
    exact ⟨t,hms.trans ht⟩

theorem Tracks.step (h : w.Tracks p age) (e : Event κ) : (w.step e).Tracks p (aged p age e) := by
  cases e with
  | mark q =>
    by_cases hq : q = p
    · subst hq
      have hget : (w.marks.mark w.now q).since.get? q = some w.now := by
        rw [mark_since, if_pos rfl]
      simp only [aged, if_true]
      refine ⟨fun t ht => ?_,fun _ _ _ => ⟨w.now,hget⟩⟩
      obtain rfl : w.now = t := Option.some.inj (hget.symm.trans ht)
      exact ⟨le_rfl,by simp [World.step]⟩
    · rw [aged, if_neg hq]
      exact h.filter rfl (by rw [mark_since, if_neg hq])
  | check q =>
    by_cases hq : q = p
    · subst hq
      exact h.filter (refresh_ttl ..) (by rw [refresh_since, if_pos rfl])
    · exact h.same (refresh_ttl ..) (by rw [refresh_since, if_neg hq])
  | remove q =>
    by_cases hq : q = p
    · subst hq
      have hget : (w.marks.remove q).since.get? q = none := by rw [remove_since, if_pos rfl]
      simp only [aged, if_true]
      refine ⟨fun t ht => ?_,nofun⟩
      cases hget.symm.trans ht
    · rw [aged, if_neg hq]
      exact h.same rfl (by rw [remove_since, if_neg hq])
  | pass nanos =>
    refine ⟨fun t ht => ?_,fun a ha hle => ?_⟩
    · obtain ⟨hle,hage⟩ := h.kept t ht
      refine ⟨Nat.le_add_right_of_le hle,?_⟩
      rw [aged, hage, Option.map_some, World.step]
      exact congrArg some (Nat.sub_add_comm hle).symm
    · -- what counts later counts now
      obtain ⟨b,hb,rfl⟩ := Option.map_eq_some_iff.mp ha
      exact h.counting b hb ((Nat.le_add_right b nanos).trans hle)

theorem Tracks.after (h : w.Tracks p age) (es : List (Event κ)) :
    (w.after es).Tracks p (es.foldl (aged p) age) := by
  induction es generalizing w age with
  | nil => exact h
  | cons e es ih => exact ih (h.step e)

theorem tracks_new (ttl : Span) (p : κ) : (new ttl).Tracks p none where
  kept t ht := by cases ht
  counting a ha := by cases ha

theorem tracks_after_new (ttl : Span) (es : List (Event κ)) (p : κ) :
    ((new ttl).after es).Tracks p (age? p es) :=
  (tracks_new ttl p).after es

theorem after_append (w : World κ) (es es' : List (Event κ)) :
    w.after (es ++ es') = (w.after es).after es' := List.foldl_append

@[simp] theorem step_ttl (w : World κ) (e : Event κ) : (w.step e).marks.ttl = w.marks.ttl := by
  cases e with
  | check q => exact refresh_ttl ..
  | _ => rfl

@[simp] theorem after_ttl (w : World κ) (es : List (Event κ)) :
    (w.after es).marks.ttl = w.marks.ttl := by
  induction es generalizing w with
  | nil => rfl
  | cons e es ih => exact (ih _).trans (w.step_ttl e)

theorem contains_iff (w : World κ) (p : κ) :
    w.contains p = true ↔
      ∃ t, w.marks.since.get? p = some t ∧ w.now - t ≤ w.marks.ttl.nanos := by
  simp [contains, standing_eq_marked, fresh_iff]

theorem Tracks.contains_iff (h : w.Tracks p age) :
    w.contains p = true ↔ ∃ a, age = some a ∧ a ≤ w.marks.ttl.nanos := by
  rw [World.contains_iff]
  constructor
  · rintro ⟨t,ht,hle⟩
    exact ⟨_,(h.kept t ht).2,hle⟩
  · rintro ⟨a,ha,hle⟩
    obtain ⟨t,ht⟩ := h.counting a ha hle
    obtain rfl : a = w.now - t := Option.some.inj (ha.symm.trans (h.kept t ht).2)
    exact ⟨t,ht,hle⟩

/-- A check answers as if no mark was ever dropped. -/
theorem contains_after (ttl : Span) (es : List (Event κ)) (p : κ) :
    ((new ttl).after es).contains p = true ↔ Counts ttl p es := by
  rw [(tracks_after_new ttl es p).contains_iff, after_ttl]
  exact exists_congr fun a => and_congr_left' age?_eq_some

/-- When a peer is marked, marks are kept of it and of those whose marks count. -/
theorem kept_of_mark (w : World κ) (p q : κ) :
    ((w.step (.mark p)).marks.since.get? q).isSome = true ↔ q = p ∨ w.contains q = true := by
  have hget : (w.step (.mark p)).marks.since.get? q = _ := mark_since w.marks w.now p q
  rw [hget]
  by_cases hq : p = q
  · simp [hq]
  · rw [if_neg hq, World.contains_iff, or_iff_right (Ne.symm hq), Option.isSome_iff_exists]
    exact exists_congr fun t => by rw [Option.filter_eq_some_iff, fresh_iff]

theorem contains_mark (w : World κ) (p q : κ) :
    (w.step (.mark p)).contains q = true ↔ q = p ∨ w.contains q = true := by
  rw [← kept_of_mark, World.contains_iff, Option.isSome_iff_exists]
  refine exists_congr fun t => and_iff_left_of_imp fun ht => ?_
  have hget : (w.step (.mark p)).marks.since.get? q = _ := mark_since w.marks w.now p q
  by_cases hq : p = q
  · rw [hget, if_pos hq] at ht
    obtain rfl := Option.some.inj ht
    simp [World.step]
  · rw [hget, if_neg hq] at ht
    exact (fresh_iff ..).mp (Option.filter_eq_some_iff.mp ht).2

end World

end Marks

/-! ## The marks of a manager -/

namespace Network

variable {n : Network} {m : Nat} {w : Marks.World Nat}

theorem HasMarks.onManager (h : n.HasMarks m w) {f : Manager → Manager} {ms : Marks Nat}
    (hf : (f (n.manager m)).marks = ms) :
    (n.onManager m f).HasMarks m { w with marks := ms } where
  exists_manager := by simpa [Network.onManager] using h.exists_manager
  marks := by
    rw [manager_onManager, if_pos ⟨rfl,h.exists_manager⟩]
    exact hf
  now := h.now

theorem HasMarks.note (h : n.HasMarks m w) (notices : List Notice) :
    (n.note notices).HasMarks m w := ⟨h.exists_manager,h.marks,h.now⟩

theorem HasMarks.checkMark (h : n.HasMarks m w) (p : Nat) :
    (n.checkMark m p).1 = w.contains p ∧ (n.checkMark m p).2.HasMarks m (w.step (.check p)) := by
  have hstep : (n.onManager m fun g => { g with marks := g.marks.refresh n.now p }).HasMarks m
      (w.step (.check p)) := h.onManager (by rw [h.marks, h.now])
  unfold Network.checkMark
  rw [h.marks, h.now] at *
  cases hs : w.marks.standing w.now p with
  | marked => exact ⟨by simp [Marks.World.contains, hs],hstep⟩
  | unmarked => exact ⟨by simp [Marks.World.contains, hs],hstep⟩
  | expired => exact ⟨by simp [Marks.World.contains, hs],hstep.note _⟩

theorem HasMarks.markPeer (h : n.HasMarks m w) (p : Nat) :
    (n.markPeer m p).HasMarks m (w.step (.mark p)) := by
  have hstep : (n.onManager m fun g => { g with marks := g.marks.mark n.now p }).HasMarks m
      (w.step (.mark p)) := h.onManager (by rw [h.marks, h.now])
  exact hstep.note _

theorem HasMarks.forget (h : n.HasMarks m w) (p : Nat) :
    (n.forget m p).HasMarks m (w.step (.remove p)) :=
  (h.onManager (congrArg (·.remove p) h.marks)).note _

/-- The number of marks that are kept is reported with every new mark. -/
theorem HasMarks.metrics_markPeer (h : n.HasMarks m w) (p : Nat) :
    (n.markPeer m p).metrics = n.metrics ++ [.count "tokens.unsupported.marked" [],
      { name := "tokens.unsupported.peers", kind := .gauge,
        value := (w.step (.mark p)).marks.size }] := by
  rw [← (h.markPeer p).marks]
  exact metrics_note ..

end Network

/-! ## Marks along a run -/

namespace Manager

def Deed.marking : Deed → List (Marks.Event Nat)
  | .lookup p | .check p => [.check p]
  | .forget p => [.remove p]
  | .finish _ p result => if isRefusal result then [.mark p] else []
  | .begin _ | .abandon _ => []

theorem after_marking (g : Manager) (now : Nat) (d : Deed) :
    ({ marks := g.marks, now } : Marks.World Nat).after d.marking =
      { marks := (g.act now d).marks, now } := by
  cases d with
  | lookup p =>
    simp only [act]
    split <;> rfl
  | finish id p result =>
    simp only [act, Deed.marking]
    split <;> rfl
  | _ => rfl

end Manager

namespace Network

variable {n : Network} {m : Nat} {w : Marks.World Nat}

def marking (n : Network) (m : Nat) (e : Event) : List (Marks.Event Nat) :=
  (n.deed? m e).elim [] Manager.Deed.marking ++ [.pass e.nanos]

theorem HasMarks.step (h : n.HasMarks m w) (hn : n.Orderly) (e : Event) :
    (n.step e).HasMarks m (w.after (n.marking m e)) := by
  obtain ⟨hnow,hlen,-⟩ := n.step_steady e
  have hw : w = { marks := (n.manager m).marks, now := n.now } := by rw [h.marks, h.now]
  have hafter : w.after (n.marking m e) =
      { marks := ((n.step e).manager m).marks, now := (n.step e).now } := by
    rw [marking, Marks.World.after_append, hnow, n.step_manager hn e h.exists_manager, hw]
    cases n.deed? m e with
    | none => rfl
    | some d =>
      rw [Option.elim_some, Option.elim_some, Manager.after_marking]
      rfl
  rw [hafter]
  exact ⟨hlen ▸ h.exists_manager,rfl,rfl⟩

theorem HasMarks.after (h : n.HasMarks m w) (hn : n.Orderly) (es : List Event) :
    ∃ us, (n.after es).HasMarks m (w.after us) := by
  induction es generalizing n w with
  | nil => exact ⟨[],h⟩
  | cons e es ih =>
    obtain ⟨us,hus⟩ := ih (h.step hn e) (hn.step e)
    exact ⟨n.marking m e ++ us,by rwa [Marks.World.after_append]⟩

/-- In every reachable state, whatever has happened, the marks of a manager have come about by
marks, checks and removals. -/
theorem marks_along_run (peers : List Peer) (configs : List TokenConfig) (es : List Event)
    (hm : m < configs.length) :
    ∃ us, ((start peers configs).after es).HasMarks m
      ((Marks.World.new (configs.getD m {}).unsupportedTtl).after us) := by
  refine HasMarks.after ⟨?_,?_,rfl⟩ (orderly_start peers configs) es
  · simpa [start] using hm
  · rw [start_manager]
    rfl

end Network

namespace Marks

open World

/-- Marks that are dropped because they have expired are not missed. After any marks, checks and
removals at any instants, a check answers that `p` is marked if and only if its last mark, which was
not removed since, is not older than `ttl`; and as soon as `p` is marked again, marks are kept of
`p` and of the other peers whose marks count, and of nobody else. A manager with such marks answers
by them and changes them in the same way, and as many peers as it reports to be marked are those
that a check would now find marked. -/
theorem pruning_unnoticed (ttl : Span) (es : List (Event Nat)) (p : Nat) :
    let w := (World.new ttl).after es
    let marked := w.step (.mark p)
    (w.contains p = true ↔ Counts ttl p es) ∧
    (∀ q, (marked.marks.since.get? q).isSome = true ↔ q = p ∨ Counts ttl q es) ∧
    ∀ n m, Network.HasMarks n m w →
      ((n.isUnsupported m p).1 = w.contains p ∧
        (n.isUnsupported m p).2.HasMarks m (w.step (.check p))) ∧
      (n.forget m p).HasMarks m (w.step (.remove p)) ∧
      (n.markPeer m p).HasMarks m marked ∧
      ∃ kept : Nat, {q | marked.contains q = true}.encard = kept ∧
        (n.markPeer m p).metrics = n.metrics ++ [.count "tokens.unsupported.marked" [],
          { name := "tokens.unsupported.peers", kind := .gauge, value := kept }] := by
  intro w marked
  refine ⟨contains_after ttl es p,fun q => ?_,fun n m h => ?_⟩
  · rw [kept_of_mark, contains_after]
  · refine ⟨h.checkMark p,h.forget p,h.markPeer p,marked.marks.size,?_,h.metrics_markPeer p⟩
    simp only [marked, contains_mark, ← kept_of_mark]
    exact Table.encard_keys _

/-- A mark that is as old as it may be counts when another peer is marked. -/
theorem oldest_mark_reported :
    let ttl := Span.ofSeconds 300
    let es : List (Event Nat) := [.mark 4, .pass ttl.nanos]
    let n := ((Network.start [] [{ unsupportedTtl := ttl }]).markPeer 0 4).step (.pass ttl.nanos)
    n.HasMarks 0 ((World.new ttl).after es) ∧
      {q | (((World.new ttl).after es).step (.mark 7)).contains q = true}.encard = 2 ∧
      (n.markPeer 0 7).metrics = n.metrics ++ [.count "tokens.unsupported.marked" [],
        { name := "tokens.unsupported.peers", kind := .gauge, value := 2 }] := by
  intro ttl es n
  have hn : n.HasMarks 0 ((World.new ttl).after es) := ⟨by decide,rfl,rfl⟩
  obtain ⟨kept,hkept,hmetrics⟩ := ((pruning_unnoticed ttl es 7).2.2 n 0 hn).2.2.2
  have htwo : (n.markPeer 0 7).metrics = n.metrics ++ [.count "tokens.unsupported.marked" [],
      { name := "tokens.unsupported.peers", kind := .gauge, value := 2 }] := by decide +kernel
  obtain rfl : kept = 2 := by simpa using hmetrics.symm.trans htwo
  exact ⟨hn,hkept,htwo⟩

/-- Marks are dropped one nanosecond later. -/
example :
    let w := (World.new (Span.ofSeconds 300)).after [.mark 4, .pass (Span.ofSeconds 300).nanos]
    w.contains 4 = true ∧ (w.step (.pass 1)).contains 4 = false ∧
      ((w.step (.pass 1)).step (.mark 7)).marks.size = 1 := by
  decide +kernel

end Marks

end ChatToken
