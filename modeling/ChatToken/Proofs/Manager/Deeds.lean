import ChatToken.Token.Manager
import ChatToken.Proofs.Loader.Conclusion
import ChatToken.Proofs.Loader.PerKey
import ChatToken.Proofs.Marks

/-! # What a manager has for a peer

A manager alone, without the connections and the exchanges: what can happen to it, and what that
means to a single peer. The manager has a token for a peer, or a running load, or a mark, or nothing,
and never two of these; each deed changes it as the automaton `PeerState.next` says.
-/
namespace ChatToken

inductive PeerState where
  | unknown
  | pending (load : Nat)
  | valid (token : Token)
  /-- The peer was marked at some instant, too long ago or not. -/
  | unsupported (since : Nat)
  deriving DecidableEq, Repr

namespace PeerState

def token? : PeerState → Option Token
  | valid t => some t
  | _ => none

def load? : PeerState → Option Nat
  | pending id => some id
  | _ => none

def mark? : PeerState → Option Nat
  | unsupported t => some t
  | _ => none

end PeerState

def isRefusal : Except TokenError Token → Bool
  | .error (.unsupported _) => true
  | _ => false

def TokenConfig.remembers (c : TokenConfig) (now t : Nat) : Bool :=
  (Clock.elapsed t now).nanos ≤ c.unsupportedTtl.nanos

def TokenConfig.accepts (c : TokenConfig) (now : Nat) (t : Token) : Bool :=
  (t.age now).nanos ≤ c.maxTokenAge.nanos

namespace Manager

theorem staleness_eq_none {c : TokenConfig} {now : Nat} {t : Token} :
    staleness c now t = none ↔ c.accepts now t = true := by
  simp [staleness, TokenConfig.accepts]

inductive Deed where
  | lookup (peer : Nat)
  | check (peer : Nat)
  | forget (peer : Nat)
  | begin (load : Nat)
  | finish (load peer : Nat) (result : Except TokenError Token)
  | abandon (load : Nat)

def act (g : Manager) (now : Nat) : Deed → Manager
  | .lookup p =>
    let standing := g.marks.standing now p
    let g := { g with marks := g.marks.refresh now p }
    if standing = .marked then g
    else { g with loader := (g.loader.lookup (staleness g.config now) true p).2.1 }
  | .check p => { g with marks := g.marks.refresh now p }
  | .forget p => { g with loader := (g.loader.invalidate p).2, marks := g.marks.remove p }
  | .begin id => { g with loader := (g.loader.begin id).1 }
  | .finish id p result =>
    { g with
      loader := (g.loader.finish (staleness g.config now) id result).1
      marks := if isRefusal result then g.marks.mark now p else g.marks }
  | .abandon id => { g with loader := g.loader.abandon id }

end Manager

/-! ## The automaton of a peer -/

namespace PeerState

variable (c : TokenConfig) (now : Nat)

def expire : PeerState → PeerState
  | unsupported t => if c.remembers now t then unsupported t else unknown
  | s => s

/-- What there is behind a load that may have left a token in the cache. -/
def ofItem : Option Token → PeerState
  | some t => valid t
  | none => unknown

def left : Ending Token TokenError → PeerState
  | .loaded t => if c.accepts now t then valid t else unknown
  | .failed (.unsupported _) => unsupported now
  | .failed _ | .lost => unknown

def counts : PeerState → Bool
  | pending _ => true
  | valid t => c.accepts now t
  | unsupported t => c.remembers now t
  | unknown => false

def lookedUp (fresh : Nat) (s : PeerState) : PeerState :=
  if s.counts c now then s else pending fresh

def forgotten : PeerState → PeerState
  | pending id => pending id
  | _ => unknown

def next (fresh p : Nat) (s : PeerState) : Manager.Deed → PeerState
  | .lookup q => if q = p then s.lookedUp c now fresh else s
  | .check q => if q = p then s.expire c now else s
  | .forget q => if q = p then s.forgotten else s
  | .begin _ => s
  | .finish id _ result =>
    if s = pending id then left c now (Loader.endingOf result)
    -- whoever is marked, all expired marks are dropped
    else if isRefusal result then s.expire c now
    else s
  | .abandon id => if s = pending id then left c now .lost else s

end PeerState

namespace Manager

structure Holds (g : Manager) (p : Nat) (s : PeerState) : Prop where
  token : g.loader.cache.get? p = s.token?
  load : g.loader.loading.get? p = s.load?
  mark : g.marks.since.get? p = s.mark?

/-- What the manager has for `p`: a running load comes first, a mark last. -/
def about (g : Manager) (p : Nat) : PeerState :=
  match g.loader.loading.get? p, g.loader.cache.get? p, g.marks.since.get? p with
  | some id, _, _ => .pending id
  | none, some t, _ => .valid t
  | none, none, some t => .unsupported t
  | none, none, none => .unknown

theorem about_of_loading {g : Manager} {p id : Nat} (h : g.loader.loading.get? p = some id) :
    g.about p = .pending id := by
  rw [about, h]

theorem about_of_cached {g : Manager} {p : Nat} {t : Token}
    (hl : g.loader.loading.get? p = none) (h : g.loader.cache.get? p = some t) :
    g.about p = .valid t := by
  rw [about, hl, h]

/-- A lookup in the loader answers with what it leaves behind. -/
theorem about_of_looked {l l' : Loader Nat Token TokenError} {invalid : Token → Option TokenError}
    {p : Nat} {a : Lookup Token} (hk : Loader.Looked l invalid true p a l') {g : Manager}
    (hg : g.loader = l') :
    (∃ id, a = .loading id ∧ g.about p = .pending id) ∨
    (∃ t, a = .cached t ∧ g.about p = .valid t) := by
  cases hk with
  | attached hid => exact .inl ⟨_,rfl,about_of_loading (hg ▸ hid)⟩
  | hit hnone ht => exact .inr ⟨_,rfl,about_of_cached (hg ▸ hnone) (hg ▸ ht)⟩
  | started =>
    have hl := Loader.start_loading (l.evict p) p p
    rw [if_pos rfl, ← hg] at hl
    exact .inl ⟨_,rfl,about_of_loading hl⟩
  | refused _ _ hstart => cases hstart

structure Sound (g : Manager) : Prop where
  loader : g.loader.Sound
  /-- A task whose load is settled is gone. -/
  live : ∀ id t, g.loader.tasks.get? id = some t → t.phase.unsettled = true
  ttl : g.marks.ttl = g.config.unsupportedTtl
  exclusive : ∀ p, ∃ s, g.Holds p s

/-- Whether a deed can happen to a manager: only a running load ends. -/
def Fits (g : Manager) : Deed → Prop
  | .finish id p _ => g.loader.Running id p
  | _ => True

end Manager

/-! ## Facts about states -/

namespace PeerState

variable (c : TokenConfig) (now : Nat) (s : PeerState)

@[simp] theorem expire_token? : (s.expire c now).token? = s.token? := by
  cases s with
  | unsupported t => cases h : c.remembers now t <;> simp [expire, h, token?]
  | _ => rfl

@[simp] theorem expire_load? : (s.expire c now).load? = s.load? := by
  cases s with
  | unsupported t => cases h : c.remembers now t <;> simp [expire, h, load?]
  | _ => rfl

@[simp] theorem expire_mark? : (s.expire c now).mark? = s.mark?.filter (c.remembers now) := by
  cases s with
  | unsupported t => cases h : c.remembers now t <;> simp [expire, h, mark?, Option.filter]
  | _ => rfl

theorem lookedUp_expire (fresh : Nat) :
    (s.expire c now).lookedUp c now fresh = s.lookedUp c now fresh := by
  cases s with
  | unsupported t => cases h : c.remembers now t <;> simp [expire, lookedUp, counts, h]
  | _ => rfl

theorem load?_eq_some {id : Nat} : s.load? = some id ↔ s = pending id := by
  cases s <;> simp [load?]

section
variable {c now s} {t : Token}

theorem expire_cases :
    s.expire c now = s ∨ (s.expire c now = unknown ∧ s.counts c now = false) := by
  cases s with
  | unsupported t => cases h : c.remembers now t <;> simp [expire, counts, h]
  | _ => exact .inl rfl

/-- What counts now has counted all the time. -/
theorem counts_of_later {now' : Nat} (hle : now ≤ now') (h : s.counts c now' = true) :
    s.counts c now = true := by
  have hage : ∀ t, now - t ≤ now' - t := fun t => Nat.sub_le_sub_right hle t
  cases s with
  | valid t => exact decide_eq_true ((hage _).trans (of_decide_eq_true h))
  | unsupported t => exact decide_eq_true ((hage _).trans (of_decide_eq_true h))
  | pending id => rfl
  | unknown => cases h

theorem lookedUp_eq_settled {fresh : Nat} {s' : PeerState} (hl : s'.load? = none) :
    s.lookedUp c now fresh = s' ↔ s = s' ∧ s'.counts c now = true := by
  unfold lookedUp
  split
  · next hc =>
    constructor
    · rintro rfl
      exact ⟨rfl,hc⟩
    · exact And.left
  · next hc =>
    constructor
    · rintro rfl
      cases hl
    · rintro ⟨rfl,hc'⟩
      exact absurd hc' hc

theorem left_eq_valid {ending : Ending Token TokenError} :
    left c now ending = valid t ↔ ending = .loaded t ∧ c.accepts now t = true := by
  cases ending with
  | loaded t' =>
    simp only [left, Ending.loaded.injEq]
    split
    · next ha =>
      constructor
      · rintro ⟨⟩
        exact ⟨rfl,ha⟩
      · rintro ⟨rfl,_⟩
        rfl
    · next ha =>
      simp only [reduceCtorEq, false_iff]
      rintro ⟨rfl,hc⟩
      exact ha hc
  | failed e => cases e <;> simp [left]
  | lost => simp [left]

theorem left_eq_unsupported {ending : Ending Token TokenError} {t : Nat}
    (h : left c now ending = unsupported t) :
    (∃ command, ending = .failed (.unsupported command)) ∧ t = now := by
  cases ending with
  | loaded t' =>
    simp only [left] at h
    split at h <;> cases h
  | failed e =>
    cases e with
    | unsupported command =>
      cases h
      exact ⟨⟨_,rfl⟩,rfl⟩
    | _ => cases h
  | lost => cases h

/-- What is settled about a peer was settled before, or a load has left it. -/
theorem next_eq_settled {fresh p : Nat} {d : Manager.Deed} {s' : PeerState}
    (h : s.next c now fresh p d = s') (hl : s'.load? = none) (hne : s' ≠ unknown) :
    s = s' ∨ ∃ id q result, d = .finish id q result ∧ s = pending id ∧
      left c now (Loader.endingOf result) = s' := by
  have hexpire : s.expire c now = s' → s = s' := by
    intro he
    rcases s.expire_cases with hs | ⟨hs,_⟩
    · exact hs.symm.trans he
    · exact absurd (he.symm.trans hs) hne
  cases d with
  | lookup q =>
    simp only [next] at h
    split at h
    · exact .inl ((lookedUp_eq_settled hl).mp h).1
    · exact .inl h
  | check q =>
    simp only [next] at h
    split at h
    · exact .inl (hexpire h)
    · exact .inl h
  | forget q =>
    simp only [next] at h
    split at h
    · cases s with
      | pending id => exact .inl h
      | _ => exact absurd h.symm hne
    · exact .inl h
  | begin id => exact .inl h
  | finish id q result =>
    simp only [next] at h
    split at h
    · next hs => exact .inr ⟨id,q,result,rfl,hs,h⟩
    · split at h
      · exact .inl (hexpire h)
      · exact .inl h
  | abandon id =>
    simp only [next] at h
    split at h
    · exact absurd h.symm hne
    · exact .inl h

/-- A mark is there because it was there before, or because a load has been refused. -/
theorem next_eq_unsupported {fresh p t : Nat} {d : Manager.Deed}
    (h : s.next c now fresh p d = unsupported t) :
    s = unsupported t ∨ ∃ id q command,
      d = .finish id q (.error (.unsupported command)) ∧ s = pending id ∧ t = now := by
  rcases next_eq_settled h rfl (by simp) with hs | ⟨id,q,result,rfl,hs,hleft⟩
  · exact .inl hs
  · obtain ⟨⟨command,hr⟩,rfl⟩ := left_eq_unsupported hleft
    cases result with
    | ok t' => cases hr
    | error e =>
      cases hr
      exact .inr ⟨id,q,command,rfl,hs,rfl⟩

/-- A token is there because it was there before, or because a load has brought it. -/
theorem next_eq_valid {fresh p : Nat} {d : Manager.Deed} (h : s.next c now fresh p d = valid t) :
    s = valid t ∨ ∃ id q, d = .finish id q (.ok t) ∧ s = pending id ∧ c.accepts now t = true := by
  rcases next_eq_settled h rfl (by simp) with hs | ⟨id,q,result,rfl,hs,hleft⟩
  · exact .inl hs
  · obtain ⟨hr,ha⟩ := left_eq_valid.mp hleft
    cases result with
    | ok t' =>
      cases hr
      exact .inr ⟨id,q,rfl,hs,ha⟩
    | error e => cases hr

end

end PeerState

namespace Manager

variable {g : Manager} {now p : Nat} {s : PeerState}

namespace Holds

theorem about_eq (h : g.Holds p s) : g.about p = s := by
  rw [about, h.load, h.token, h.mark]
  cases s <;> rfl

theorem refresh (h : g.Holds p s) (httl : g.marks.ttl = g.config.unsupportedTtl) (now q : Nat) :
    Holds { g with marks := g.marks.refresh now q } p
      (if q = p then s.expire g.config now else s) := by
  have hf : g.marks.fresh now = g.config.remembers now := by
    funext t
    rw [Marks.fresh, httl]
    rfl
  by_cases hq : q = p
  · simp only [hq, if_true]
    refine ⟨by simpa using h.token,by simpa using h.load,?_⟩
    rw [Marks.refresh_since, if_pos rfl, h.mark, hf, PeerState.expire_mark?]
  · simp only [hq, if_false]
    refine ⟨h.token,h.load,?_⟩
    rw [Marks.refresh_since, if_neg hq, h.mark]

/-- Only a mark that counts makes a lookup stop at it. -/
theorem marked (h : g.Holds p s) (httl : g.marks.ttl = g.config.unsupportedTtl) :
    g.marks.standing now p = .marked ↔ ∃ t, s = .unsupported t ∧ g.config.remembers now t = true := by
  rw [Marks.standing_eq_marked, h.mark]
  cases s <;> simp [PeerState.mark?, Marks.fresh, httl, TokenConfig.remembers]

/-- A lookup of the peer in the loader, where no mark stands in the way. -/
theorem looked (h : g.Holds p s) (hm : s.mark? = none) {a : Lookup Token}
    {l : Loader Nat Token TokenError}
    (hk : Loader.Looked g.loader (staleness g.config now) true p a l) :
    Holds { g with loader := l } p (s.lookedUp g.config now g.loader.nextLoad) := by
  obtain ⟨ht,hl,hmark⟩ := h
  cases hk with
  | attached hid =>
    rw [hid] at hl
    obtain rfl := s.load?_eq_some.mp hl.symm
    exact ⟨ht,hid,hmark⟩
  | hit _ hc hi =>
    rw [hc] at ht
    cases s with
    | valid t =>
      cases ht
      have hv := staleness_eq_none.mp hi
      simp only [PeerState.lookedUp, PeerState.counts, hv, if_true]
      exact ⟨hc,hl,hmark⟩
    | _ => cases ht
  | started hn hi =>
    rw [hn] at hl
    have hs : s.lookedUp g.config now g.loader.nextLoad = .pending g.loader.nextLoad := by
      cases s with
      | unknown => rfl
      | pending id => cases hl
      | valid t =>
        have hv := mt staleness_eq_none.mpr (hi t ht)
        simp [PeerState.lookedUp, PeerState.counts, hv]
      | unsupported t => cases hm
    rw [hs]
    refine ⟨?_,?_,?_⟩
    · exact (Loader.evict_cache ..).trans (if_pos rfl)
    · exact (Loader.start_loading ..).trans (if_pos rfl)
    · exact hmark.trans hm
  | refused _ _ hstart => cases hstart

/-- A lookup of another peer is of no interest. -/
theorem looked_other (h : g.Holds p s) {q : Nat} (hq : q ≠ p) {a : Lookup Token}
    {l : Loader Nat Token TokenError}
    (hk : Loader.Looked g.loader (staleness g.config now) true q a l) :
    Holds { g with loader := l } p s := by
  cases hk with
  | attached => exact h
  | hit => exact h
  | started =>
    refine ⟨?_,?_,h.mark⟩
    · exact (Loader.evict_cache ..).trans ((if_neg hq).trans h.token)
    · exact (Loader.start_loading ..).trans ((if_neg hq).trans h.load)
  | refused _ _ hstart => cases hstart

/-- A load comes to its end. -/
theorem concluded (h : g.Holds p s) (hl : g.loader.Sound) {q id : Nat}
    (hr : g.loader.Running id q) {item : Option Token} {e : Ending Token TokenError}
    {l : Loader Nat Token TokenError} (hc : Loader.Concluded g.loader q id item e l) :
    Holds { g with loader := l } p
      (if s = .pending id then .ofItem item else s) := by
  have hq : s = .pending id ↔ q = p := by
    rw [← s.load?_eq_some, ← h.load, hl.registered]
    exact ⟨fun hr' => hr.key_unique hr',fun hqp => hqp ▸ hr⟩
  by_cases hs : s = .pending id
  · have hqp := hq.mp hs
    subst hqp hs
    rw [if_pos rfl]
    refine ⟨?_,?_,?_⟩
    · rw [hc.cache, if_pos rfl]
      cases item <;> rfl
    · rw [hc.loading, if_pos rfl]
      cases item <;> rfl
    · rw [h.mark]
      cases item <;> rfl
  · have hqp := mt hq.mpr hs
    rw [if_neg hs]
    refine ⟨?_,?_,h.mark⟩
    · rw [hc.cache, if_neg hqp, h.token]
    · rw [hc.loading, if_neg hqp, h.load]

end Holds

theorem ofItem_keepResult (c : TokenConfig) (now q : Nat) (result : Except TokenError Token) :
    PeerState.ofItem (Loader.keepResult (staleness c now) q result).1 =
    if isRefusal result then .unknown else PeerState.left c now (Loader.endingOf result) := by
  rcases result with e | t
  · cases e <;> rfl
  · cases h : staleness c now t with
    | none =>
      have hv := staleness_eq_none.mp h
      simp [Loader.keepResult, Loader.endingOf, h, isRefusal, PeerState.left, PeerState.ofItem, hv]
    | some e =>
      have hv : c.accepts now t = false := by
        rw [← Bool.not_eq_true, ← staleness_eq_none, h]
        simp
      simp [Loader.keepResult, Loader.endingOf, h, isRefusal, PeerState.left, PeerState.ofItem, hv]

/-- A load of `q` comes to its end with a result, and `q` is marked if that is a refusal. -/
theorem Holds.finished (h : g.Holds p s) (hs : g.Sound) {q id : Nat}
    (hr : g.loader.Running id q) (result : Except TokenError Token) :
    (g.act now (.finish id q result)).Holds p
      (s.next g.config now g.loader.nextLoad p (.finish id q result)) := by
  obtain ⟨t,ht,rfl,hu⟩ := hr
  have hc := h.concluded hs.loader ⟨t,ht,rfl,hu⟩
    (hs.loader.finish_concluded ht hu (staleness g.config now) result)
  rw [ofItem_keepResult] at hc
  cases hm : isRefusal result with
  | false =>
    simp only [act, PeerState.next, hm, Bool.false_eq_true, if_false] at hc ⊢
    exact hc
  | true =>
    simp only [act, PeerState.next, hm, if_true] at hc ⊢
    have hf : g.marks.fresh now = g.config.remembers now := by
      funext t
      rw [Marks.fresh, hs.ttl]
      rfl
    by_cases hp : s = .pending id
    · have hq : t.key = p := by
        have hl := h.load
        rw [hp] at hl
        exact Loader.Running.key_unique ⟨t,ht,rfl,hu⟩ ((hs.loader.registered _ _).mp hl)
      have hleft : PeerState.left g.config now (Loader.endingOf result) = .unsupported now := by
        rcases result with e | t
        · cases e <;> first | rfl | cases hm
        · cases hm
      rw [if_pos hp] at hc ⊢
      rw [hleft]
      refine ⟨hc.token,hc.load,?_⟩
      rw [Marks.mark_since, if_pos hq]
      rfl
    · have hq : t.key ≠ p := by
        rintro rfl
        have hl := h.load
        rw [(hs.loader.registered _ _).mpr ⟨t,ht,rfl,hu⟩] at hl
        exact hp (s.load?_eq_some.mp hl.symm)
      rw [if_neg hp] at hc ⊢
      refine ⟨by simpa using hc.token,by simpa using hc.load,?_⟩
      rw [Marks.mark_since, if_neg hq, h.mark, hf, PeerState.expire_mark?]

/-- Every deed changes what there is for a peer as its automaton says. -/
theorem act_holds (hs : g.Sound) {d : Deed} (hd : g.Fits d) (h : g.Holds p s) :
    (g.act now d).Holds p (s.next g.config now g.loader.nextLoad p d) := by
  cases d with
  | lookup q =>
    have h' := h.refresh hs.ttl now q
    have hk := Loader.lookup_looked g.loader (staleness g.config now) true q
    by_cases hq : q = p
    · subst hq
      simp only [act, PeerState.next, if_true] at h' ⊢
      by_cases hm : g.marks.standing now q = .marked
      · obtain ⟨t,rfl,ht⟩ := (h.marked hs.ttl).mp hm
        rw [if_pos hm]
        simpa [PeerState.lookedUp, PeerState.counts, PeerState.expire, ht] using h'
      · rw [if_neg hm]
        have hn : (s.expire g.config now).mark? = none := by
          rw [PeerState.expire_mark?, Option.filter_eq_none_iff]
          intro t ht hf
          cases s with
          | unsupported t' =>
            cases ht
            exact hm ((h.marked hs.ttl).mpr ⟨_,rfl,hf⟩)
          | _ => cases ht
        have hl := h'.looked hn hk
        rwa [PeerState.lookedUp_expire] at hl
    · simp only [act, PeerState.next, hq, if_false] at h' ⊢
      split
      · exact h'
      · exact h'.looked_other hq hk
  | check q => exact h.refresh hs.ttl now q
  | forget q =>
    by_cases hq : q = p
    · subst hq
      simp only [act, PeerState.next, if_true]
      refine ⟨?_,?_,?_⟩
      · refine (Loader.evict_cache ..).trans ?_
        cases s <;> simp [PeerState.forgotten, PeerState.token?]
      · refine h.load.trans ?_
        cases s <;> rfl
      · refine (Marks.remove_since ..).trans ?_
        cases s <;> simp [PeerState.forgotten, PeerState.mark?]
    · simp only [act, PeerState.next, hq, if_false]
      refine ⟨?_,h.load,?_⟩
      · exact (Loader.evict_cache ..).trans ((if_neg hq).trans h.token)
      · exact (Marks.remove_since ..).trans ((if_neg hq).trans h.mark)
  | begin id =>
    rcases Loader.begin_cases g.loader id with ⟨t,_,_,hb⟩ | hb
    · simp only [act, hb]
      exact ⟨h.token,h.load,h.mark⟩
    · simp only [act, hb]
      exact h
  | finish id q result => exact h.finished hs hd result
  | abandon id =>
    cases ht : g.loader.tasks.get? id with
    | none =>
      have hp : s ≠ .pending id := by
        rintro rfl
        obtain ⟨t,ht',_⟩ := (hs.loader.registered p id).mp h.load
        rw [ht] at ht'
        cases ht'
      simp only [act, PeerState.next, Loader.abandon_of_gone ht, if_neg hp]
      exact h
    | some t =>
      have hu := hs.live id t ht
      exact h.concluded hs.loader ⟨t,ht,rfl,hu⟩ (hs.loader.abandon_concluded ht hu)

/-! ## What stays -/

/-- A load that comes to its end in its first turn is the same deed as one that ends later. -/
theorem act_begin_finish (g : Manager) (now id p : Nat) (result : Except TokenError Token) :
    (g.act now (.begin id)).act now (.finish id p result) = g.act now (.finish id p result) := by
  simp only [act, Loader.finish_begin]

theorem act_begin_abandon (g : Manager) (now id : Nat) :
    (g.act now (.begin id)).act now (.abandon id) = g.act now (.abandon id) := by
  simp only [act, Loader.abandon_begin]

@[simp] theorem act_config (g : Manager) (now : Nat) (d : Deed) : (g.act now d).config = g.config := by
  cases d with
  | lookup p =>
    simp only [act]
    split <;> rfl
  | _ => rfl

def Deed.load? : Deed → Option Nat
  | .begin id | .finish id _ _ | .abandon id => some id
  | _ => none

inductive Moved (g : Manager) (now : Nat) : Deed → Loader Nat Token TokenError → Prop where
  | still (d : Deed) : Moved g now d g.loader
  | looked {p : Nat} {a : Lookup Token} {l : Loader Nat Token TokenError} :
      Loader.Looked g.loader (staleness g.config now) true p a l → Moved g now (.lookup p) l
  | evicted (p : Nat) : Moved g now (.forget p) (g.loader.evict p)
  | begun {id : Nat} {t : LoadTask Nat Token TokenError} : g.loader.tasks.get? id = some t →
      t.phase = .waiting → Moved g now (.begin id) (g.loader.reach id .working)
  | finished {id p : Nat} {result : Except TokenError Token} {l : Loader Nat Token TokenError} :
      g.loader.Running id p →
      Loader.Concluded g.loader p id (Loader.keepResult (staleness g.config now) p result).1
        (Loader.endingOf result) l → Moved g now (.finish id p result) l
  | abandoned {id p : Nat} {l : Loader Nat Token TokenError} : g.loader.Running id p →
      Loader.Concluded g.loader p id none .lost l → Moved g now (.abandon id) l

theorem act_moved (hs : g.Sound) {d : Deed} (hd : g.Fits d) :
    Moved g now d (g.act now d).loader := by
  cases d with
  | lookup p =>
    simp only [act]
    split
    · exact .still _
    · exact .looked (Loader.lookup_looked ..)
  | check p => exact .still _
  | forget p => exact .evicted p
  | begin id =>
    rcases Loader.begin_cases g.loader id with ⟨t,ht,hp,hb⟩ | hb
    · simp only [act, hb]
      exact .begun ht hp
    · simp only [act, hb]
      exact .still _
  | finish id p result =>
    obtain ⟨t,ht,rfl,hu⟩ := hd
    exact .finished ⟨t,ht,rfl,hu⟩ (hs.loader.finish_concluded ht hu _ result)
  | abandon id =>
    cases ht : g.loader.tasks.get? id with
    | none =>
      simp only [act, Loader.abandon_of_gone ht]
      exact .still _
    | some t =>
      have hu := hs.live id t ht
      exact .abandoned ⟨t,ht,rfl,hu⟩ (hs.loader.abandon_concluded ht hu)

namespace Moved
variable {d : Deed} {l : Loader Nat Token TokenError}

theorem sound (hm : Moved g now d l) (hs : g.loader.Sound) : l.Sound := by
  cases hm with
  | still => exact hs
  | looked hk => exact hs.looked hk
  | evicted p => exact hs.evict p
  | begun ht hp => exact hs.reach ht (by rw [hp]; rfl)
  | finished hr hc => exact hc.sound
  | abandoned hr hc => exact hc.sound

theorem nextLoad_le (hm : Moved g now d l) : g.loader.nextLoad ≤ l.nextLoad := by
  cases hm with
  | still => exact Nat.le_refl _
  | looked hk => exact hk.nextLoad_le
  | evicted p => exact Nat.le_refl _
  | begun => exact Nat.le_refl _
  | finished hr hc => exact Nat.le_of_eq hc.next.symm
  | abandoned hr hc => exact Nat.le_of_eq hc.next.symm

theorem nextLoad_eq (hm : Moved g now d l) (h : ∀ p, d ≠ .lookup p) :
    l.nextLoad = g.loader.nextLoad := by
  cases hm with
  | still => rfl
  | looked => exact absurd rfl (h _)
  | evicted p => rfl
  | begun => rfl
  | finished hr hc => exact hc.next
  | abandoned hr hc => exact hc.next

/-- The task of a load that is there after a deed was there before, has run for the first time, or
was started by a lookup. -/
theorem task (hm : Moved g now d l) {id : Nat} {t : LoadTask Nat Token TokenError}
    (ht : l.tasks.get? id = some t) :
    g.loader.tasks.get? id = some t ∨
    (d = .begin id ∧ t.phase = .working ∧ ∃ t₀, g.loader.tasks.get? id = some t₀ ∧
      t₀.phase = .waiting ∧ t₀.key = t.key) ∨
    (id = g.loader.nextLoad ∧ t.phase = .waiting ∧ d = .lookup t.key) := by
  cases hm with
  | still => exact .inl ht
  | looked hk =>
    cases hk with
    | attached => exact .inl ht
    | hit => exact .inl ht
    | started =>
      rw [Loader.start_tasks] at ht
      split at ht
      · next hid =>
        cases ht
        exact .inr (.inr ⟨hid.symm,rfl,rfl⟩)
      · exact .inl ht
    | refused _ _ hstart => cases hstart
  | evicted => exact .inl ht
  | begun ht₀ hp =>
    rw [Loader.reach_tasks] at ht
    split at ht
    · next hid =>
      subst hid
      rw [ht₀] at ht
      cases ht
      exact .inr (.inl ⟨rfl,rfl,_,ht₀,hp,rfl⟩)
    · exact .inl ht
  | finished hr hc =>
    rw [hc.tasks] at ht
    split at ht
    · cases ht
    · exact .inl ht
  | abandoned hr hc =>
    rw [hc.tasks] at ht
    split at ht
    · cases ht
    · exact .inl ht

/-- A load ends when its request comes back, or when its task dies. -/
theorem ends (hm : Moved g now d l) {id : Nat} {e : Ending Token TokenError}
    (h : g.loader.endings.get? id = none) (he : l.endings.get? id = some e) :
    ∃ p, g.loader.Running id p ∧
    ((∃ result, d = .finish id p result ∧ e = Loader.endingOf result) ∨
    (d = .abandon id ∧ e = .lost)) := by
  cases hm with
  | still => rw [h] at he; cases he
  | looked hk =>
    cases hk with
    | attached => rw [h] at he; cases he
    | hit => rw [h] at he; cases he
    | started => exact absurd (h.symm.trans he) (by simp)
    | refused _ _ hstart => cases hstart
  | evicted => exact absurd (h.symm.trans he) (by simp)
  | begun => exact absurd (h.symm.trans he) (by simp)
  | finished hr hc =>
    rw [hc.endings] at he
    split at he
    · next hid =>
      subst hid
      cases he
      exact ⟨_,hr,.inl ⟨_,rfl,rfl⟩⟩
    · rw [h] at he; cases he
  | abandoned hr hc =>
    rw [hc.endings] at he
    split at he
    · next hid =>
      subst hid
      cases he
      exact ⟨_,hr,.inr ⟨rfl,rfl⟩⟩
    · rw [h] at he; cases he

/-- What a load has ended with stays. -/
theorem ending (hm : Moved g now d l) (hs : g.loader.Sound) {id : Nat}
    {e : Ending Token TokenError} (he : g.loader.endings.get? id = some e) :
    l.endings.get? id = some e := by
  have hne : ∀ {i p : Nat}, g.loader.Running i p → i ≠ id := by
    rintro i p ⟨t,ht,_⟩ rfl
    rw [(hs.open_ _ _ he).2] at ht
    cases ht
  cases hm with
  | still => exact he
  | looked hk =>
    cases hk with
    | attached => exact he
    | hit => exact he
    | started => exact he
    | refused _ _ hstart => cases hstart
  | evicted => exact he
  | begun => exact he
  | finished hr hc => rw [hc.endings, if_neg (hne hr), he]
  | abandoned hr hc => rw [hc.endings, if_neg (hne hr), he]

/-- A load runs until it has ended. -/
theorem running (hm : Moved g now d l) (hs : g.loader.Sound) {id p : Nat}
    (hr : g.loader.Running id p) (h : l.endings.get? id = none) : l.Running id p := by
  obtain ⟨t,ht,hk,hu⟩ := hr
  cases hm with
  | still => exact ⟨t,ht,hk,hu⟩
  | looked hk' =>
    cases hk' with
    | attached => exact ⟨t,ht,hk,hu⟩
    | hit => exact ⟨t,ht,hk,hu⟩
    | started =>
      have hne := Nat.ne_of_gt (hs.numbered id t ht)
      exact ⟨t,((Loader.start_tasks ..).trans (if_neg hne)).trans ht,hk,hu⟩
    | refused _ _ hstart => cases hstart
  | evicted => exact ⟨t,ht,hk,hu⟩
  | @begun i t' ht' =>
    by_cases hi : i = id
    · subst hi
      exact (Loader.running_reach_self ..).mpr ⟨⟨t,ht,hk⟩,rfl⟩
    · exact (Loader.running_reach_of_ne _ hi ..).mpr ⟨t,ht,hk,hu⟩
  | finished _ hc =>
    rw [hc.endings] at h
    split at h
    · cases h
    · next hi => exact ⟨t,by rw [hc.tasks, if_neg hi, ht],hk,hu⟩
  | abandoned _ hc =>
    rw [hc.endings] at h
    split at h
    · cases h
    · next hi => exact ⟨t,by rw [hc.tasks, if_neg hi, ht],hk,hu⟩

/-- Only its own task is of interest to a load that was started. -/
theorem other_load (hm : Moved g now d l) {id : Nat} (hid : id < g.loader.nextLoad)
    (hne : d.load? ≠ some id) :
    l.tasks.get? id = g.loader.tasks.get? id ∧ l.endings.get? id = g.loader.endings.get? id := by
  have hi : ∀ i, d.load? = some i → i ≠ id := by
    rintro i hd rfl
    exact hne hd
  cases hm with
  | still => exact ⟨rfl,rfl⟩
  | looked hk =>
    cases hk with
    | attached => exact ⟨rfl,rfl⟩
    | hit => exact ⟨rfl,rfl⟩
    | started => exact ⟨(Loader.start_tasks ..).trans (if_neg (Nat.ne_of_gt hid)),rfl⟩
    | refused _ _ hstart => cases hstart
  | evicted => exact ⟨rfl,rfl⟩
  | begun => exact ⟨(Loader.reach_tasks ..).trans (if_neg (hi _ rfl)),rfl⟩
  | finished hr hc =>
    exact ⟨(hc.tasks id).trans (if_neg (hi _ rfl)),(hc.endings id).trans (if_neg (hi _ rfl))⟩
  | abandoned hr hc =>
    exact ⟨(hc.tasks id).trans (if_neg (hi _ rfl)),(hc.endings id).trans (if_neg (hi _ rfl))⟩

end Moved

/-- After a deed that is about a load, its task has run or is gone. -/
theorem begun_of_act (hs : g.Sound) {d : Deed} (hd : g.Fits d) {id : Nat}
    (hl : d.load? = some id) {t : LoadTask Nat Token TokenError}
    (ht : (g.act now d).loader.tasks.get? id = some t) : t.begun = true := by
  cases d with
  | begin i =>
    cases hl
    exact Loader.begun_of_begin ht
  | finish i p result =>
    cases hl
    obtain ⟨t₀,ht₀,rfl,hu⟩ := hd
    simp only [act] at ht
    rw [(hs.loader.finish_concluded ht₀ hu _ result).tasks, if_pos rfl] at ht
    cases ht
  | abandon i =>
    cases hl
    simp only [act] at ht
    cases ht₀ : g.loader.tasks.get? id with
    | none =>
      rw [Loader.abandon_of_gone ht₀, ht₀] at ht
      cases ht
    | some t₀ =>
      rw [(hs.loader.abandon_concluded ht₀ (hs.live id t₀ ht₀)).tasks, if_pos rfl] at ht
      cases ht
  | _ => cases hl

theorem act_ttl (g : Manager) (now : Nat) (d : Deed) : (g.act now d).marks.ttl = g.marks.ttl := by
  cases d with
  | lookup p =>
    simp only [act]
    split <;> exact g.marks.refresh_ttl now p
  | check p => exact g.marks.refresh_ttl now p
  | finish id p result =>
    simp only [act]
    split <;> rfl
  | _ => rfl

theorem Sound.holds (hs : g.Sound) (p : Nat) : g.Holds p (g.about p) := by
  obtain ⟨s,h⟩ := hs.exclusive p
  rwa [h.about_eq]

/-- What there is for a peer changes as its automaton says. -/
theorem act_about (hs : g.Sound) {d : Deed} (hd : g.Fits d) (p : Nat) :
    (g.act now d).about p = (g.about p).next g.config now g.loader.nextLoad p d :=
  (act_holds hs hd (hs.holds p)).about_eq

theorem Sound.about_eq_pending (hs : g.Sound) {id : Nat} :
    g.about p = .pending id ↔ g.loader.Running id p := by
  rw [← PeerState.load?_eq_some, ← (hs.holds p).load, hs.loader.registered]

theorem act_sound (hs : g.Sound) {d : Deed} (hd : g.Fits d) : (g.act now d).Sound where
  loader := (act_moved hs hd).sound hs.loader
  live id t ht := by
    rcases (act_moved hs hd).task ht with h | ⟨_,hp,_⟩ | ⟨_,hp,_⟩
    · exact hs.live id t h
    · rw [hp]
      rfl
    · rw [hp]
      rfl
  ttl := by rw [act_ttl, act_config, hs.ttl]
  exclusive p := by
    exact ⟨_,act_holds hs hd (hs.holds p)⟩

theorem new_sound (c : TokenConfig) : (new c).Sound where
  loader := .empty
  live := by simp [new]
  ttl := rfl
  exclusive p := ⟨.unknown,⟨rfl,rfl,rfl⟩⟩

end Manager
end ChatToken
