import ChatToken.Proofs.Network.Frame
import ChatToken.Proofs.Manager.Deeds

/-! # The turn of a task

A turn of a task works on its request, and then writes down what that came to. What an event does to
a manager is one deed at most.
-/
namespace ChatToken

namespace Network

open Manager (Deed)

inductive Turn where
  /-- The peer is marked, so nothing was sent. -/
  | withheld
  | waits
  | ended (result : Except TokenError Token)
  | died

def arrive (n : Network) (ref : LoadRef) (p : Nat) : Bool × Network :=
  let (loader, notices) := (n.manager ref.manager).loader.begin ref.load
  ((n.onManager ref.manager fun g => { g with loader }).note (notices.map .loader)).checkMark
    ref.manager p

def inquire (n : Network) (ref : LoadRef) : Turn × Network :=
  match n.pollRequest (.load ref) with
  | (none, n) => (.waits, n)
  | (some result, n) => (.ended result, n)

def ask (n : Network) (ref : LoadRef) (p : Nat) : Sending × Network :=
  let c := (n.manager ref.manager).config
  (n.arrive ref p).2.openRequest (.load ref) p c.service c.requestTimeout

/-- What a turn of the task `t` does before it writes anything down. -/
def work (n : Network) (ref : LoadRef) (t : LoadTask Nat Token TokenError) : Turn × Network :=
  if t.begun then n.inquire ref
  else if (n.arrive ref t.key).1 then (.withheld, (n.arrive ref t.key).2)
  else
    match n.ask ref t.key with
    | (.sent, n') => n'.inquire ref
    | (.failed cause, n') =>
      (.ended (n'.failRequest (.load ref) cause).1, (n'.failRequest (.load ref) cause).2)
    | (.broken _, n') => (.died, n')

inductive Worked (n : Network) (ref : LoadRef) (t : LoadTask Nat Token TokenError) :
    Turn → Network → Prop where
  | resumed : t.begun = true → Worked n ref t (n.inquire ref).1 (n.inquire ref).2
  | withheld : t.begun = false → (n.arrive ref t.key).1 = true →
      Worked n ref t .withheld (n.arrive ref t.key).2
  | sent : t.begun = false → (n.arrive ref t.key).1 = false → (n.ask ref t.key).1 = .sent →
      Worked n ref t ((n.ask ref t.key).2.inquire ref).1 ((n.ask ref t.key).2.inquire ref).2
  | failed (cause : String) : t.begun = false → (n.arrive ref t.key).1 = false →
      (n.ask ref t.key).1 = .failed cause →
      Worked n ref t (.ended (.error (.sendFailed cause)))
        ((n.ask ref t.key).2.failRequest (.load ref) cause).2
  | broken (line : String) : t.begun = false → (n.arrive ref t.key).1 = false →
      (n.ask ref t.key).1 = .broken line → Worked n ref t .died (n.ask ref t.key).2

theorem work_worked (n : Network) (ref : LoadRef) (t : LoadTask Nat Token TokenError) :
    Worked n ref t (n.work ref t).1 (n.work ref t).2 := by
  unfold work
  split
  · next hb => exact .resumed hb
  · next hb =>
    have hb := Bool.eq_false_iff.mpr hb
    split
    · next ha => exact .withheld hb ha
    · next ha =>
      have ha := Bool.eq_false_iff.mpr ha
      rcases h : n.ask ref t.key with ⟨_ | cause | line,n'⟩
      · have hw := Worked.sent hb ha (congrArg Prod.fst h)
        rwa [h] at hw
      · have hw := Worked.failed cause hb ha (congrArg Prod.fst h)
        rwa [h] at hw
      · have hw := Worked.broken line hb ha (congrArg Prod.fst h)
        rwa [h] at hw

def record (n : Network) (ref : LoadRef) (p : Nat) : Turn → Network
  | .withheld => (n.note [.requestWithheld p]).finishLoad ref (.error (.unsupported Reply.extjwt))
  | .waits => n
  | .ended result => n.concludeLoad ref p result
  | .died => n.dropLoad ref

theorem record_inquire (n : Network) (ref : LoadRef) (p : Nat) :
    (n.inquire ref).2.record ref p (n.inquire ref).1 = n.continueLoad ref p := by
  unfold inquire continueLoad
  rcases n.pollRequest (.load ref) with ⟨_ | result,n'⟩ <;> rfl

theorem runLoad_eq (n : Network) {ref : LoadRef} {t : LoadTask Nat Token TokenError}
    (ht : (n.manager ref.manager).loader.tasks.get? ref.load = some t) :
    n.runLoad ref = (n.work ref t).2.record ref t.key (n.work ref t).1 := by
  unfold runLoad work
  rw [ht]
  dsimp only
  cases t.begun with
  | true => exact (n.record_inquire ref t.key).symm
  | false =>
    have harrive : ((n.onManager ref.manager fun g =>
        { g with loader := ((n.manager ref.manager).loader.begin ref.load).1 }).note
        (((n.manager ref.manager).loader.begin ref.load).2.map .loader)).checkMark
          ref.manager t.key = n.arrive ref t.key := rfl
    unfold beginLoad ask
    dsimp only
    rw [harrive]
    rcases n.arrive ref t.key with ⟨_ | _,n'⟩
    · simp only [Bool.false_eq_true, if_false]
      rcases n'.openRequest (.load ref) t.key (n.manager ref.manager).config.service
        (n.manager ref.manager).config.requestTimeout with ⟨_ | _ | _,n''⟩
      · exact (n''.record_inquire ref t.key).symm
      · rfl
      · rfl
    · rfl

theorem runLoad_of_gone (n : Network) {ref : LoadRef}
    (ht : (n.manager ref.manager).loader.tasks.get? ref.load = none) : n.runLoad ref = n := by
  unfold runLoad
  rw [ht]

/-! ## What an event does to a manager -/

def Orderly (n : Network) : Prop := ∀ m, (n.manager m).Sound

def Turn.deed? (id p : Nat) : Turn → Option Deed
  | .withheld | .waits => none
  | .ended result => some (.finish id p result)
  | .died => some (.abandon id)

def turnDeed? (n : Network) (ref : LoadRef) : Option Deed :=
  match (n.manager ref.manager).loader.tasks.get? ref.load with
  | none => none
  | some t =>
    ((n.work ref t).1.deed? ref.load t.key).or (if t.begun then none else some (.begin ref.load))

def deed? (n : Network) (m : Nat) : Event → Option Deed
  | .lookup m' p => if m' = m then some (.lookup p) else none
  | .isUnsupported m' p => if m' = m then some (.check p) else none
  | .forget m' p => if m' = m then some (.forget p) else none
  | .turn ref =>
    if ref.manager = m then (n.called ref).turnDeed? ref else none
  | .die ref => if ref.manager = m then some (.abandon ref.load) else none
  | _ => none

section
variable {n : Network} {ref : LoadRef} {t : LoadTask Nat Token TokenError}

/-- Only a manager that is there has tasks. -/
theorem lt_of_task (ht : (n.manager ref.manager).loader.tasks.get? ref.load = some t) :
    ref.manager < n.managers.length := by
  by_contra hm
  rw [manager, List.getD_eq_getElem?_getD, List.getElem?_eq_none (Nat.le_of_not_lt hm)] at ht
  cases ht

theorem inner_arrive (n : Network) (ref : LoadRef) (p : Nat) : Inner n (n.arrive ref p).2 :=
  ((inner_onManager ..).trans (inner_note ..)).trans (inner_checkMark ..)

/-- A peer with a running load is not marked, so the first turn of its task goes on. -/
theorem arrive_of_sound (hs : (n.manager ref.manager).Sound)
    (ht : (n.manager ref.manager).loader.tasks.get? ref.load = some t) :
    (n.arrive ref t.key).1 = false ∧
    ∀ m, (n.arrive ref t.key).2.manager m =
      if ref.manager = m then (n.manager m).act n.now (.begin ref.load) else n.manager m := by
  obtain ⟨s,h⟩ := hs.exclusive t.key
  have hl := h.load
  rw [(hs.loader.registered _ _).mpr ⟨t,ht,rfl,hs.live _ t ht⟩] at hl
  obtain rfl := s.load?_eq_some.mp hl.symm
  have hmark : (n.manager ref.manager).marks.since.get? t.key = none := h.mark
  have hm := lt_of_task ht
  have hst : ∀ now, (n.manager ref.manager).marks.standing now t.key = .unmarked := by
    intro now
    rw [Marks.standing, hmark]
  have hrefresh : ∀ now, (n.manager ref.manager).marks.refresh now t.key =
      (n.manager ref.manager).marks := by
    intro now
    rw [Marks.refresh, hst, if_neg (by simp)]
  unfold arrive checkMark
  dsimp only
  have hg : ((n.onManager ref.manager fun g =>
      { g with loader := ((n.manager ref.manager).loader.begin ref.load).1 }).note
        (((n.manager ref.manager).loader.begin ref.load).2.map .loader)).manager ref.manager =
      { n.manager ref.manager with
        loader := ((n.manager ref.manager).loader.begin ref.load).1 } := by
    rw [note_manager, manager_onManager, if_pos ⟨rfl,hm⟩]
  rw [hg, hst]
  refine ⟨rfl,?_⟩
  intro m
  rw [manager_onManager]
  by_cases hk : ref.manager = m
  · subst hk
    rw [if_pos ⟨rfl,by simpa [note, onManager] using hm⟩, hg, if_pos rfl]
    simp only [hrefresh]
    rfl
  · rw [if_neg (by simp [hk]), if_neg hk, note_manager, manager_onManager, if_neg (by simp [hk])]

theorem quiet_inquire (n : Network) (ref : LoadRef) : Quiet n (n.inquire ref).2 := by
  have hq := n.quiet_pollRequest (.load ref)
  unfold inquire
  rcases hp : n.pollRequest (.load ref) with ⟨_ | result,n'⟩ <;> rw [hp] at hq <;> exact hq

theorem outer_ask (n : Network) (ref : LoadRef) (p : Nat) :
    Outer (n.arrive ref p).2 (n.ask ref p).2 :=
  outer_openRequest ..

theorem Worked.steady {w : Turn} {n' : Network} (h : Worked n ref t w n') : Steady n n' := by
  have ha := ((n.inner_arrive ref t.key).steady).trans (n.outer_ask ref t.key).steady
  cases h with
  | resumed => exact (quiet_inquire ..).outer.steady
  | withheld => exact (inner_arrive ..).steady
  | sent => exact ha.trans (quiet_inquire ..).outer.steady
  | failed cause => exact ha.trans (quiet_failRequest ..).outer.steady
  | broken line => exact ha

theorem inquire_ne_withheld (n : Network) (ref : LoadRef) : (n.inquire ref).1 ≠ .withheld := by
  unfold inquire
  split <;> simp

/-- The work of a turn that goes on does nothing to the managers, except that a task that has not
run yet begins. -/
theorem Worked.managers {w : Turn} {n' : Network} (h : Worked n ref t w n')
    (hs : (n.manager ref.manager).Sound)
    (ht : (n.manager ref.manager).loader.tasks.get? ref.load = some t) :
    w ≠ .withheld ∧ ∀ m, n'.manager m =
      if ref.manager = m ∧ t.begun = false then (n.manager m).act n.now (.begin ref.load)
      else n.manager m := by
  obtain ⟨hgoes,harrive⟩ := arrive_of_sound hs ht
  -- whatever becomes of the request, the managers are as after the arrival
  have hsame : t.begun = false → ∀ n'' : Network, n''.managers = (n.arrive ref t.key).2.managers →
      ∀ m, n''.manager m =
        if ref.manager = m ∧ t.begun = false then (n.manager m).act n.now (.begin ref.load)
        else n.manager m := by
    intro hb n'' hm m
    have hm' : n''.manager m = (n.arrive ref t.key).2.manager m := congrArg (·.getD m default) hm
    simp [hm', harrive, hb]
  have hask := (n.outer_ask ref t.key).managers
  cases h with
  | resumed hb =>
    refine ⟨inquire_ne_withheld _ _,?_⟩
    intro m
    rw [(n.quiet_inquire ref).manager, hb]
    simp
  | withheld _ ha => rw [hgoes] at ha; cases ha
  | sent hb =>
    exact ⟨inquire_ne_withheld _ _,hsame hb _ ((quiet_inquire ..).managers.trans hask)⟩
  | failed cause hb => exact ⟨by simp,hsame hb _ ((quiet_failRequest ..).managers.trans hask)⟩
  | broken line hb => exact ⟨by simp,hsame hb _ hask⟩

theorem finishLoad_manager (n : Network) (hm : ref.manager < n.managers.length)
    (result : Except TokenError Token) (m : Nat) :
    (n.finishLoad ref result).manager m =
      if ref.manager = m then
        { n.manager m with
          loader := ((n.manager m).loader.finish
            (Manager.staleness (n.manager m).config n.now) ref.load result).1 }
      else n.manager m := by
  unfold finishLoad
  dsimp only
  rw [note_manager, manager_onManager]
  by_cases hk : ref.manager = m
  · subst hk
    simp [hm]
  · simp [hk]

/-- Before a load is ended, its peer is marked if the result is a refusal. -/
theorem concludeLoad_marks (n : Network) (hm : ref.manager < n.managers.length) (p : Nat)
    (result : Except TokenError Token) :
    ∃ n' : Network, n.concludeLoad ref p result = n'.finishLoad ref result ∧ n'.now = n.now ∧
      n'.managers.length = n.managers.length ∧
      ∀ m, n'.manager m =
        if ref.manager = m ∧ isRefusal result = true then
          { n.manager m with marks := (n.manager m).marks.mark n.now p }
        else n.manager m := by
  rcases result with e | t
  · cases e with
    | unsupported command =>
      refine ⟨(n.note [.supportMissing p]).markPeer ref.manager p,rfl,rfl,?_,?_⟩
      · simp [markPeer, note, onManager]
      · intro m
        dsimp only [markPeer]
        rw [note_manager, manager_onManager]
        by_cases hk : ref.manager = m
        · subst hk
          rw [if_pos ⟨rfl,hm⟩, if_pos ⟨rfl,rfl⟩]
          rfl
        · simp [hk]
    | _ => exact ⟨_,rfl,rfl,rfl,by simp [isRefusal]⟩
  · exact ⟨_,rfl,rfl,rfl,by simp [isRefusal]⟩

theorem dropLoad_manager (n : Network) (ref : LoadRef) {m : Nat}
    (hm : ref.manager = m → m < n.managers.length) :
    (n.dropLoad ref).manager m =
      if ref.manager = m then (n.manager m).act n.now (.abandon ref.load) else n.manager m := by
  have hq := n.quiet_closeExchange (.load ref)
  change ((n.closeExchange (.load ref)).onManager _ _).manager m = _
  rw [manager_onManager, hq.manager, hq.managers]
  by_cases hk : ref.manager = m
  · simp [hk, hm hk, Manager.act]
  · simp [hk]

/-- What a turn came to is written down as a deed. -/
theorem record_manager (n : Network) (hm : ref.manager < n.managers.length) (p : Nat) {w : Turn}
    (hw : w ≠ .withheld) (m : Nat) :
    (n.record ref p w).manager m =
      if ref.manager = m then (w.deed? ref.load p).elim (n.manager m) ((n.manager m).act n.now)
      else n.manager m := by
  cases w with
  | withheld => exact absurd rfl hw
  | waits => simp [record, Turn.deed?]
  | died =>
    rw [record, n.dropLoad_manager ref (fun hk => hk ▸ hm)]
    rfl
  | ended result =>
    obtain ⟨n',he,hnow,hlen,hmanager⟩ := n.concludeLoad_marks hm p result
    simp only [record, Turn.deed?, Option.elim_some]
    rw [he, finishLoad_manager _ (hlen ▸ hm), hmanager, hnow]
    by_cases hk : ref.manager = m
    · subst hk
      cases hr : isRefusal result <;> simp [Manager.act, hr]
    · simp [hk]

end

/-! ## Steps -/

def Event.nanos : Event → Nat
  | .pass nanos => nanos
  | _ => 0

section
variable (n : Network)

/-- What is no event of a manager leaves all managers alone. -/
theorem step_elsewhere {e : Event} (he : e.manager? = none) :
    (n.step e).managers = n.managers ∧ (n.step e).now = n.now + e.nanos ∧
    (n.step e).peers.length = n.peers.length := by
  have keep : ∀ {n' : Network}, Outer n n' → n'.managers = n.managers ∧ n'.now = n.now + 0 ∧
      n'.peers.length = n.peers.length := fun h => ⟨h.managers,h.now,h.length⟩
  cases e with
  | listen c p matcher timeout =>
    simp only [step]
    split
    · exact keep (.refl n)
    · exact keep (quiet_openExchange ..).outer
  | look c => exact keep (n.quiet_pollExchange (.caller c)).outer
  | hangUp c => exact keep (n.quiet_closeExchange (.caller c)).outer
  | send p command args => exact keep (n.outer_send p command args)
  | deliver p m => exact keep (n.quiet_deliver p m).outer
  | disconnect p => exact keep ((n.outer_onPeer p _).trans (quiet_wakeAll ..).outer)
  | receive p r => exact keep (n.outer_receive p r)
  | finishStream p =>
    simp only [step, finishStream]
    split
    · exact keep (n.outer_endStream p)
    · exact keep (.refl n)
  | failWriting p reason => exact keep (n.outer_failWriting p reason)
  | prepare p replies => exact keep (n.outer_onPeer p _)
  | advertise p name value => exact keep (n.outer_onPeer p _)
  | pass nanos => exact ⟨rfl,rfl,rfl⟩
  | sound =>
    have hq := fun refs => (quiet_wakeAll { n with sounded := Clock.tick n.now } refs).outer
    exact ⟨(hq _).managers,(hq _).now,(hq _).length⟩
  | _ => cases he

theorem checkMark_manager {m : Nat} (hm : m < n.managers.length) (m' p : Nat) :
    (n.checkMark m' p).1 = decide ((n.manager m').marks.standing n.now p = .marked) ∧
    (n.checkMark m' p).2.manager m =
      (if m' = m then
        { n.manager m with marks := (n.manager m).marks.refresh n.now p }
      else n.manager m) := by
  have hg : (n.onManager m' fun g => { g with marks := g.marks.refresh n.now p }).manager m =
      if m' = m then { n.manager m with marks := (n.manager m).marks.refresh n.now p }
      else n.manager m := by
    rw [manager_onManager]
    by_cases hk : m' = m <;> simp [hk, hm]
  unfold checkMark
  cases (n.manager m').marks.standing n.now p <;> exact ⟨by simp,hg⟩

def seek (n : Network) (m p : Nat) : TokenLookup × Network :=
  let g := n.manager m
  let (answer, loader, notices) := g.loader.lookup (Manager.staleness g.config n.now) true p
  let n := (n.onManager m fun g => { g with loader }).note (notices.map .loader)
  match answer with
  | .cached t => (.ready t, n)
  | .loading id => (.pending ⟨m, id⟩, if id = g.loader.nextLoad then n.wake ⟨m, id⟩ else n)
  | .refused => (.unsupported, n)

theorem lookup_eq (m p : Nat) :
    n.lookup m p =
      if (n.manager m).marks.standing n.now p = .marked then
        (.unsupported, (n.checkMark m p).2.note [.markHit])
      else (n.checkMark m p).2.seek m p := by
  have hmark : (n.checkMark m p).1 =
      decide ((n.manager m).marks.standing n.now p = .marked) := by
    unfold checkMark
    cases (n.manager m).marks.standing n.now p <;> rfl
  unfold lookup
  rcases hc : n.checkMark m p with ⟨b,n'⟩
  rw [hc] at hmark
  dsimp only at hmark
  subst hmark
  by_cases hs : (n.manager m).marks.standing n.now p = .marked
  · simp only [hs, decide_true, if_true]
  · simp only [hs, decide_false, if_false]
    rfl

theorem seek_manager {m : Nat} (hm : m < n.managers.length) (m' p : Nat) :
    (n.seek m' p).2.manager m =
      if m' = m then
        { n.manager m with
          loader := ((n.manager m).loader.lookup
            (Manager.staleness (n.manager m).config n.now) true p).2.1 }
      else n.manager m := by
  have hg : ∀ notices, ((n.onManager m' fun g => { g with
      loader := ((n.manager m').loader.lookup
        (Manager.staleness (n.manager m').config n.now) true p).2.1 }).note notices).manager m =
      if m' = m then
        { n.manager m with
          loader := ((n.manager m).loader.lookup
            (Manager.staleness (n.manager m).config n.now) true p).2.1 }
      else n.manager m := by
    intro notices
    rw [note_manager, manager_onManager]
    by_cases hk : m' = m
    · subst hk
      simp [hm]
    · simp [hk]
  unfold seek
  dsimp only
  split
  · exact hg _
  · split
    · rw [(quiet_wake _ _).manager]
      exact hg _
    · exact hg _
  · exact hg _

theorem deed?_elsewhere (m : Nat) {e : Event} (he : e.manager? = none) : n.deed? m e = none := by
  cases e <;> first | rfl | cases he

theorem turnDeed?_of_gone {ref : LoadRef}
    (ht : (n.manager ref.manager).loader.tasks.get? ref.load = none) : n.turnDeed? ref = none := by
  rw [turnDeed?, ht]

theorem turnDeed?_eq {ref : LoadRef} {t : LoadTask Nat Token TokenError}
    (ht : (n.manager ref.manager).loader.tasks.get? ref.load = some t) :
    n.turnDeed? ref = ((n.work ref t).1.deed? ref.load t.key).or
      (if t.begun then none else some (.begin ref.load)) := by
  rw [turnDeed?, ht]

theorem deed?_turn {ref : LoadRef} {t : LoadTask Nat Token TokenError}
    (ht : (n.manager ref.manager).loader.tasks.get? ref.load = some t) :
    n.deed? ref.manager (.turn ref) = (((n.called ref).work ref t).1.deed? ref.load t.key).or
      (if t.begun then none else some (.begin ref.load)) :=
  (if_pos rfl).trans ((n.called ref).turnDeed?_eq ht)

theorem step_turn {ref : LoadRef} {t : LoadTask Nat Token TokenError}
    (ht : (n.manager ref.manager).loader.tasks.get? ref.load = some t) :
    n.step (.turn ref) =
      ((n.called ref).work ref t).2.record ref t.key ((n.called ref).work ref t).1 :=
  (n.called ref).runLoad_eq ht

/-- A turn does one deed to its manager at most, and nothing to the others. -/
theorem runLoad_manager {ref : LoadRef} (hs : (n.manager ref.manager).Sound) (m : Nat) :
    (n.runLoad ref).manager m =
      if ref.manager = m then (n.turnDeed? ref).elim (n.manager m) ((n.manager m).act n.now)
      else n.manager m := by
  cases ht : (n.manager ref.manager).loader.tasks.get? ref.load with
  | none => simp [runLoad_of_gone n ht, n.turnDeed?_of_gone ht]
  | some t =>
    obtain ⟨hw,hmanager⟩ := (n.work_worked ref t).managers hs ht
    obtain ⟨hnow,hlen,_⟩ := (n.work_worked ref t).steady
    rw [n.turnDeed?_eq ht, runLoad_eq n ht, record_manager _ (hlen ▸ lt_of_task ht) t.key hw,
      hmanager, hnow]
    generalize (n.work ref t).1 = w
    by_cases hk : ref.manager = m
    · cases w <;> cases t.begun <;>
        simp [hk, Turn.deed?, Manager.act_begin_finish, Manager.act_begin_abandon]
    · simp [hk]

/-- An event does one deed to a manager at most. -/
theorem step_manager (hn : n.Orderly) (e : Event) {m : Nat} (hm : m < n.managers.length) :
    (n.step e).manager m =
      (n.deed? m e).elim (n.manager m) ((n.manager m).act n.now) := by
  have other : e.manager? = none →
      (n.step e).manager m = (n.deed? m e).elim (n.manager m) ((n.manager m).act n.now) := by
    intro he
    rw [n.deed?_elsewhere m he]
    exact congrArg (·.getD m default) (n.step_elsewhere he).1
  cases e with
  | lookup m' p =>
    obtain ⟨_,hmanager⟩ := n.checkMark_manager hm m' p
    obtain ⟨_,_,hnow,hlen⟩ := n.inner_checkMark m' p
    simp only [step, deed?, lookup_eq]
    by_cases hk : m' = m
    · subst hk
      simp only [if_true] at hmanager
      by_cases hs : (n.manager m').marks.standing n.now p = .marked
      · simp [hs, hmanager, Manager.act]
      · simp [hs, seek_manager _ (hlen ▸ hm), hmanager, hnow, Manager.act]
    · simp only [hk, if_false] at hmanager ⊢
      split
      · exact hmanager
      · rw [seek_manager _ (hlen ▸ hm), if_neg hk]
        exact hmanager
  | isUnsupported m' p =>
    refine (n.checkMark_manager hm m' p).2.trans ?_
    simp only [deed?]
    split <;> rfl
  | forget m' p =>
    simp only [step, forget, deed?, note_manager, manager_onManager]
    by_cases hk : m' = m
    · subst hk
      simp [hm, Manager.act]
    · simp [hk]
  | observe ref =>
    simp only [step, observe]
    split
    · rfl
    · dsimp only
      split <;> rfl
    · rfl
  | turn ref =>
    have hr := runLoad_manager (n.called ref) (hn ref.manager) m
    refine hr.trans ?_
    simp only [deed?]
    split <;> rfl
  | die ref =>
    rw [step, n.dropLoad_manager ref (fun _ => hm), deed?]
    split <;> rfl
  | _ => exact other rfl

end

end Network
end ChatToken
