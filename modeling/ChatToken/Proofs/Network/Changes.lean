import ChatToken.Proofs.Network.Direct

/-! # What acts do to listeners

An act begins one exchange at most, or ends one, or closes a connection. An exchange that ends takes
its own listener away, whichever way it ends, and an exchange that cannot begin leaves none behind.
-/
namespace ChatToken.Network

/-- The act ends the exchange of `h`, if there is one: a look resolves it, or it is dropped. -/
def Leaves (n : Network) (h : Holder) : Act → Prop
  | .event (.turn ref) => h = .load ref ∧ (n.pollExchange h).1.isSome = true
  | .event (.look c) | .lookRequest c => h = .caller c ∧ (n.pollExchange h).1.isSome = true
  | .event (.die ref) => h = .load ref
  | .event (.hangUp c) => h = .caller c
  | _ => False

structure Own (n : Network) (h : Holder) (a : Act) : Prop where
  ended : ∀ x, n.exchanges.get? h = some x → n.Leaves h a → Ended h x n (n.act a)
  kept : ∀ x, n.exchanges.get? h = some x → ¬ n.Leaves h a → Kept h x n (n.act a)
  new : n.exchanges.get? h = none → Tried h n (n.act a) ∨ ∃ x, Began h x n (n.act a)

section
variable {n n' : Network} {h : Holder} {x : Exchange Matcher}

theorem Stays.kept (hs : Stays n n') (hx : n.exchanges.get? h = some x) : Kept h x n n' :=
  ⟨hs.others h,⟨x,by rw [hs.exchanges, hx],rfl,rfl⟩,hs.registered,hs.inbox⟩

theorem Stays.tried (hs : Stays n n') (hno : n.exchanges.get? h = none) : Tried h n n' :=
  ⟨hs.others h,by rw [hs.exchanges, hno],hs.registered,fun _ _ _ _ _ => hs.inbox _ _⟩

theorem pollExchange_of_none (hno : n.exchanges.get? h = none) : n.pollExchange h = (none, n) := by
  rw [pollExchange, hno]

theorem pollRequest_of_none (hno : n.exchanges.get? h = none) : n.pollRequest h = (none, n) := by
  rw [pollRequest, pollExchange_of_none hno]

/-! ## Looks and requests -/

theorem own_of_look {a : Act} (hl : n.Leaves h a ↔ (n.pollExchange h).1.isSome = true)
    (ha : n.act a = (n.pollRequest h).2 ∨ n.act a = (n.pollExchange h).2) : n.Own h a := by
  have hlook : ∀ x, n.exchanges.get? h = some x →
      if (n.pollExchange h).1.isSome then Ended h x n (n.act a) else Kept h x n (n.act a) := by
    intro x hx
    rcases ha with ha | ha <;> rw [ha]
    · exact pollRequest_listening hx
    · exact pollExchange_listening hx
  refine ⟨?_,?_,?_⟩
  · intro x hx hleaves
    have h' := hlook x hx
    rwa [if_pos (hl.mp hleaves)] at h'
  · intro x hx hstays
    have h' := hlook x hx
    rwa [if_neg (fun hc => hstays (hl.mpr hc))] at h'
  · intro hno
    have hsame : n.act a = n := by
      rcases ha with ha | ha <;> rw [ha]
      · rw [pollRequest_of_none hno]
      · rw [pollExchange_of_none hno]
    rw [hsame]
    exact .inl ((Stays.refl n).tried hno)

theorem own_of_drop {a : Act} (hl : n.Leaves h a) (ha : Stays (n.closeExchange h) (n.act a)) :
    n.Own h a := by
  refine ⟨fun x hx _ => (ended_closeExchange hx).then_stays ha,fun x hx hno => absurd hl hno,?_⟩
  intro hno
  rw [closeExchange_of_none hno] at ha
  exact .inl (ha.tried hno)

theorem began_openRequest (ho : n.Owned) (hno : n.exchanges.get? h = none) (p : Nat)
    (service : Option String) (timeout : Span) :
    Began h (Exchange.listen (n.peer p) p .extjwt timeout n.now).1 n
      (n.openRequest h p service timeout).2 := by
  have hb := began_openExchange h p .extjwt timeout ho
  have hc := carries_openExchange ho.tidy h p .extjwt timeout
  exact hb.then_stays (stays_send (ho.began hno hb hc.tidy hc.length).heard p _ _)

theorem Began.closed (ho : n.Owned) (hb : Began h x n n') : Tried h n (n'.closeExchange h) :=
  hb.then_ended ho (ended_closeExchange hb.exchange)

/-- A request that could not be sent leaves no listener behind. -/
theorem Began.failed (ho : n.Owned) (hb : Began h x n n') (cause : String) :
    Tried h n (n'.failRequest h cause).2 :=
  (hb.then_stays (.of_inner (inner_note n' _))).closed ho

theorem Began.looked (ho : n.Owned) (hb : Began h x n n') :
    Tried h n (n'.pollRequest h).2 ∨ ∃ x', Began h x' n (n'.pollRequest h).2 := by
  have hl := pollRequest_listening hb.exchange
  split at hl
  · exact .inl (hb.then_ended ho hl)
  · exact .inr (hb.then_kept hl)

theorem startRequest_listening (ho : n.Owned) {c : Nat}
    (hno : n.exchanges.get? (.caller c) = none) (p : Nat) (service : Option String)
    (timeout : Span) :
    Tried (.caller c) n (n.startRequest c p service timeout).2 ∨
    ∃ x, Began (.caller c) x n (n.startRequest c p service timeout).2 := by
  have hb := began_openRequest ho hno p service timeout
  unfold startRequest
  rcases hs : n.openRequest (.caller c) p service timeout with ⟨_ | cause | line,n'⟩ <;>
    rw [hs] at hb
  · exact hb.looked ho
  · exact .inl (hb.failed ho cause)
  · exact .inl (hb.closed ho)

/-! ## Turns -/

/-- Nobody begins or ceases to listen when the result of a look is written down. -/
theorem stays_record_inquire (n : Network) (ref : LoadRef) (p : Nat) :
    Stays (n.pollRequest (.load ref)).2 ((n.inquire ref).2.record ref p (n.inquire ref).1) := by
  unfold inquire
  rcases n.pollRequest (.load ref) with ⟨_ | result,n'⟩
  · exact .refl n'
  · exact .of_inner (n'.inner_concludeLoad ref p result)

theorem stays_dropLoad (n : Network) (ref : LoadRef) :
    Stays (n.closeExchange (.load ref)) (n.dropLoad ref) := by
  have hi := (n.closeExchange (.load ref)).inner_onManager ref.manager
    fun g => { g with loader := g.loader.abandon ref.load }
  exact .of_inner ⟨hi.peers,hi.exchanges,hi.now,hi.length⟩

theorem inner_called (n : Network) (ref : LoadRef) : Inner n (n.called ref) := ⟨rfl,rfl,rfl,rfl⟩

theorem Owned.inner (ho : n.Owned) (hi : Inner n n') : n'.Owned :=
  ho.stays (.of_inner hi) (Carries.of_inner ho.tidy hi).tidy (congrArg _ hi.peers)

/-- The turn of a load whose request was sent is a look at its exchange. -/
theorem turn_eq_look (hs : n.Sane) {ref : LoadRef}
    (hx : n.exchanges.get? (.load ref) = some x) :
    ∃ p, n.step (.turn ref) = ((n.called ref).inquire ref).2.record ref p
      ((n.called ref).inquire ref).1 := by
  obtain ⟨t,ht,hb,_⟩ := hs.requests ref x hx
  exact ⟨t.key,by rw [step_turn n ht, work, hb, if_pos rfl]⟩

theorem turn_listening (hs : n.Sane) {ref : LoadRef}
    (hx : n.exchanges.get? (.load ref) = some x) :
    if (n.pollExchange (.load ref)).1.isSome then Ended (.load ref) x n (n.step (.turn ref))
    else Kept (.load ref) x n (n.step (.turn ref)) := by
  have hl := pollRequest_listening (n := n.called ref) hx
  have hsome : ((n.called ref).pollExchange (.load ref)).1 = (n.pollExchange (.load ref)).1 := by
    rw [pollExchange_eq hx, pollExchange_eq (n := n.called ref) hx]
    rfl
  obtain ⟨p,hp⟩ := turn_eq_look hs hx
  have hr := (n.called ref).stays_record_inquire ref p
  rw [hsome] at hl
  rw [hp]
  cases hs : (n.pollExchange (.load ref)).1.isSome with
  | true =>
    rw [hs, if_pos rfl] at hl
    exact (Ended.then_stays hl hr).of_inner (n.inner_called ref)
  | false =>
    rw [hs, if_neg (by simp)] at hl
    exact (Kept.then_stays hl hr).of_inner (n.inner_called ref)

/-- The first turn of a load sends its request, and looks for the response if that was possible. -/
theorem first_turn_listening (hn : n.Orderly) (ho : n.Owned) {ref : LoadRef}
    (hno : n.exchanges.get? (.load ref) = none) :
    Tried (.load ref) n (n.step (.turn ref)) ∨ ∃ x, Began (.load ref) x n (n.step (.turn ref)) := by
  let c := n.called ref
  have hc : Inner n c := n.inner_called ref
  cases ht : (n.manager ref.manager).loader.tasks.get? ref.load with
  | none =>
    have hgone : n.step (.turn ref) = c := runLoad_of_gone _ ht
    rw [hgone]
    exact .inl ((Stays.of_inner hc).tried hno)
  | some t =>
    have hgoes := (arrive_of_sound (n := c) (hn _) ht).1
    have ha : Inner n (c.arrive ref t.key).2 := hc.trans (c.inner_arrive ref t.key)
    have hb := (began_openRequest (h := .load ref) (ho.inner ha) (by rwa [ha.exchanges]) t.key
      (c.manager ref.manager).config.service (c.manager ref.manager).config.requestTimeout).of_inner
        ha
    have hw := c.work_worked ref t
    rw [step_turn n ht]
    generalize (n.called ref).work ref t = r at hw
    obtain ⟨w,n'⟩ := r
    dsimp only at hw ⊢
    cases hw with
    | withheld _ harrive => rw [hgoes] at harrive; cases harrive
    | resumed hbegun =>
      have hr := c.stays_record_inquire ref t.key
      rw [pollRequest_of_none (show c.exchanges.get? (.load ref) = none from hno)] at hr
      exact .inl (((Stays.of_inner hc).trans hr).tried hno)
    | sent =>
      have hr := (c.ask ref t.key).2.stays_record_inquire ref t.key
      exact (hb.looked ho).imp (·.then_stays hr) fun ⟨x,hx⟩ => ⟨x,hx.then_stays hr⟩
    | failed cause =>
      have hr := inner_concludeLoad ((c.ask ref t.key).2.failRequest (.load ref) cause).2 ref t.key
        (.error (.sendFailed cause))
      exact .inl ((hb.failed ho cause).then_stays (.of_inner hr))
    | broken line => exact .inl ((hb.closed ho).then_stays (stays_dropLoad _ ref))

/-! ## Acts -/

/-- Who has an exchange begins no other. -/
theorem own_of_begin {a : Act} {c : Nat} (hl : ¬ n.Leaves (.caller c) a)
    (ha : n.act a = if n.exchanges.contains (.caller c) then n else n')
    (hnew : n.exchanges.get? (.caller c) = none →
      Tried (.caller c) n n' ∨ ∃ x, Began (.caller c) x n n') : n.Own (.caller c) a := by
  refine ⟨fun x _ h => absurd h hl,?_,?_⟩
  · intro x hx _
    have hc : n.exchanges.contains (.caller c) = true := Option.isSome_of_mem hx
    rw [ha, if_pos hc]
    exact (Stays.refl n).kept hx
  · intro hno
    have hc : ¬ n.exchanges.contains (.caller c) = true := by simp [Table.contains, hno]
    rw [ha, if_neg hc]
    exact hnew hno

theorem own_act (hn : n.Orderly) (hs : n.Sane) (ho : n.Owned) {a : Act}
    (ha : a.holder? = some h) : n.Own h a := by
  cases a with
  | event e =>
    cases e with
    | turn ref =>
      cases ha
      refine ⟨?_,?_,first_turn_listening hn ho⟩
      · intro x hx hl
        have h' := turn_listening hs hx
        rwa [if_pos hl.2] at h'
      · intro x hx hl
        have h' := turn_listening hs hx
        rwa [if_neg fun hc => hl ⟨rfl,hc⟩] at h'
    | die ref =>
      cases ha
      exact own_of_drop rfl (n.stays_dropLoad ref)
    | listen c p matcher timeout =>
      cases ha
      exact own_of_begin id rfl fun _ => .inr ⟨_,began_openExchange _ p matcher timeout ho⟩
    | look c =>
      cases ha
      exact own_of_look (by simp [Leaves]) (.inr rfl)
    | hangUp c =>
      cases ha
      exact own_of_drop rfl (.refl _)
    | _ => cases ha
  | request c p service timeout =>
    cases ha
    exact own_of_begin id rfl fun hno => startRequest_listening ho hno p service timeout
  | lookRequest c =>
    cases ha
    exact own_of_look (by simp [Leaves]) (.inl rfl)

/-- An act that is about no exchange closes a connection, or changes nobody's listening. -/
theorem elsewhere_act (ho : n.Owned) {a : Act} (ha : a.holder? = none) :
    Stays n (n.act a) ∨ ∃ p, Closes n p (n.act a) ∧ (a = .event (.disconnect p) ∨
      ((n.peer p).isReading = true ∧
        (p < n.peers.length → ((n.act a).peer p).link = .stream false))) := by
  cases a with
  | event e =>
    cases e with
    | lookup m p => exact .inl (.of_inner (n.inner_lookup m p))
    | isUnsupported m p => exact .inl (.of_inner (n.inner_checkMark m p))
    | forget m p => exact .inl (.of_inner (n.inner_forget m p))
    | observe ref => exact .inl (.of_inner (n.inner_observe ref))
    | send p command args => exact .inl (stays_send ho.heard p command args)
    | deliver p m => exact .inl (stays_deliver ho.heard p m)
    | disconnect p => exact .inr ⟨p,closes_disconnect n p,.inl rfl⟩
    | receive p r =>
      rcases receive_listening ho.heard p r with hs | hs
      · exact .inl hs
      · exact .inr ⟨p,hs.2.1,.inr ⟨hs.1,hs.2.2⟩⟩
    | finishStream p =>
      simp only [act, step, finishStream]
      split
      · next hreading =>
        exact .inr ⟨p,closes_endStream n p,.inr ⟨hreading,endStream_link⟩⟩
      · exact .inl (.refl n)
    | failWriting p reason => exact .inl (stays_failWriting n p reason)
    | prepare p replies => exact .inl (.listeners n p rfl)
    | advertise p name value => exact .inl (.listeners n p rfl)
    | pass nanos => exact .inl ⟨rfl,fun _ => rfl,fun _ _ => rfl⟩
    | sound =>
      have hs : Inner n { n with sounded := Clock.tick n.now } := ⟨rfl,rfl,rfl,rfl⟩
      exact .inl (.of_inner (hs.trans (inner_wakeAll ..)))
    | _ => cases ha
  | _ => cases ha

inductive Change (n : Network) (a : Act) : Prop where
  | stays : Stays n (n.act a) → Change n a
  | closed {p : Nat} : Closes n p (n.act a) → a = .event (.disconnect p) ∨
      (p < n.peers.length → ((n.act a).peer p).link = .stream false) → Change n a
  | ended {h : Holder} {x : Exchange Matcher} : n.exchanges.get? h = some x → n.Leaves h a →
      Ended h x n (n.act a) → Change n a
  | kept {h : Holder} {x : Exchange Matcher} : n.exchanges.get? h = some x → ¬ n.Leaves h a →
      Kept h x n (n.act a) → Change n a
  | began {h : Holder} {x : Exchange Matcher} : n.exchanges.get? h = none →
      Began h x n (n.act a) → Change n a
  | tried {h : Holder} : n.exchanges.get? h = none → Tried h n (n.act a) → Change n a

theorem act_change (hn : n.Orderly) (hs : n.Sane) (ho : n.Owned) (a : Act) : n.Change a := by
  cases ha : a.holder? with
  | none =>
    rcases elsewhere_act ho ha with hs | ⟨p,hc,hwhy⟩
    · exact .stays hs
    · exact .closed hc (hwhy.imp_right And.right)
  | some h =>
    have hown := own_act hn hs ho ha
    cases hx : n.exchanges.get? h with
    | none =>
      rcases hown.new hx with hr | ⟨x,hb⟩
      · exact .tried hx hr
      · exact .began hx hb
    | some x =>
      by_cases hl : n.Leaves h a
      · exact .ended hx hl (hown.ended x hx hl)
      · exact .kept hx hl (hown.kept x hx hl)

theorem Owned.act (hn : n.Orderly) (hs : n.Sane) (ho : n.Owned) (a : Act) : (n.act a).Owned := by
  have ht := (act_carries hn ho.tidy a).tidy
  have hlen := n.act_peers_length a
  cases act_change hn hs ho a with
  | stays hs => exact ho.stays hs ht hlen
  | closed hc _ => exact ho.closes hc ht hlen
  | ended hx _ he => exact ho.ended hx he ht hlen
  | kept hx _ hk => exact ho.kept hx hk ht hlen
  | began hx hb => exact ho.began hx hb ht hlen
  | tried hx hr => exact ho.tried hx hr ht hlen

theorem Owned.play (hn : n.Orderly) (hs : n.Sane) (ho : n.Owned) (as : List Act) :
    (n.play as).Owned := by
  induction as generalizing n with
  | nil => exact ho
  | cons a as ih => exact ih (hn.act a) (hs.act hn a) (ho.act hn hs a)

theorem Leaves.holder {a : Act} (hl : n.Leaves h a) : a.holder? = some h := by
  cases a with
  | event e => cases e <;> simp_all [Leaves, Act.holder?, Event.holder?]
  | request => cases hl
  | lookRequest c => exact congrArg some hl.1.symm

/-- An exchange goes on unless the act ends it. -/
theorem exchange_kept (hn : n.Orderly) (hs : n.Sane) (ho : n.Owned) {a : Act}
    (hx : n.exchanges.get? h = some x) (hl : ¬ n.Leaves h a) :
    ∃ x', (n.act a).exchanges.get? h = some x' ∧ x'.peer = x.peer ∧ x'.listener = x.listener := by
  by_cases ha : a.holder? = some h
  · exact ((own_act hn hs ho ha).kept x hx hl).exchange
  · exact ⟨x,((act_carries hn ho.tidy a).exchanges h ha).trans hx,rfl,rfl⟩

/-- An exchange that goes on after an act has gone on before, or has just begun. -/
theorem exchange_act (hn : n.Orderly) (hs : n.Sane) (ho : n.Owned) {a : Act}
    {x' : Exchange Matcher} (hx' : (n.act a).exchanges.get? h = some x') :
    (∃ x, n.exchanges.get? h = some x ∧ ¬ n.Leaves h a ∧ x'.peer = x.peer ∧
      x'.listener = x.listener) ∨
    (n.exchanges.get? h = none ∧ Began h x' n (n.act a)) := by
  cases hx : n.exchanges.get? h with
  | some x =>
    have hl : ¬ n.Leaves h a := by
      intro hl
      rw [((own_act hn hs ho hl.holder).ended x hx hl).exchange] at hx'
      cases hx'
    obtain ⟨x₁,hx₁,hplace⟩ := exchange_kept hn hs ho hx hl
    rw [hx'] at hx₁
    cases hx₁
    exact .inl ⟨x,rfl,hl,hplace⟩
  | none =>
    by_cases ha : a.holder? = some h
    · rcases (own_act hn hs ho ha).new hx with hr | ⟨x,hb⟩
      · rw [hr.exchange] at hx'
        cases hx'
      · have hx₁ := hb.exchange
        rw [hx'] at hx₁
        cases hx₁
        exact .inr ⟨rfl,hb⟩
    · rw [(act_carries hn ho.tidy a).exchanges h ha, hx] at hx'
      cases hx'

/-- An exchange that goes on keeps its listener, unless its connection is closed. -/
theorem still_registered (hn : n.Orderly) (hs : n.Sane) (ho : n.Owned) {a : Act}
    (hx : n.exchanges.get? h = some x) (hl : ¬ n.Leaves h a)
    (hopen : a ≠ .event (.disconnect x.peer))
    (hlink : (n.peer x.peer).isReading = true → ((n.act a).peer x.peer).link ≠ .stream false)
    (hr : x.listener ∈ n.registered x.peer) : x.listener ∈ (n.act a).registered x.peer := by
  have hp := lt_of_registered hr
  cases ha : a.holder? with
  | none =>
    rcases elsewhere_act ho ha with hs | ⟨p,hc,hwhy⟩
    · rwa [hs.registered]
    · rw [hc.registered]
      split
      · next hpx =>
        subst hpx
        rcases hwhy with hd | ⟨hreading,hd⟩
        · exact absurd hd hopen
        · exact absurd (hd hp) (hlink hreading)
      · exact hr
  | some h₀ =>
    have hown := own_act hn hs ho ha
    cases hx₀ : n.exchanges.get? h₀ with
    | none =>
      rcases hown.new hx₀ with ht | ⟨_,hb⟩
      · rwa [ht.registered]
      · rw [hb.registered]
        exact List.mem_append_left _ hr
    | some x₀ =>
      by_cases hl₀ : n.Leaves h₀ a
      · have hne : h₀ ≠ h := by
          rintro rfl
          exact hl hl₀
        rw [(hown.ended x₀ hx₀ hl₀).registered]
        split
        · next hpx =>
          have hother := ho.tidy.apart h₀ h x₀ x hx₀ hx hne hpx (hpx ▸ hp)
          exact List.mem_filter.mpr ⟨hr,by simpa using Ne.symm hother⟩
        · exact hr
      · rwa [(hown.kept x₀ hx₀ hl₀).registered]

end

/-- Nobody listens to connections that are new. -/
theorem owned_start {peers : List Peer} (hfresh : ∀ q ∈ peers, q.listeners = {})
    (configs : List TokenConfig) : (start peers configs).Owned := by
  have hnone : ∀ p, (start peers configs).registered p = [] := by
    intro p
    by_cases hp : p < peers.length
    · rw [registered, peer, List.getD_eq_getElem?_getD, start, List.getElem?_eq_getElem hp,
        Option.getD_some, hfresh _ (List.getElem_mem hp)]
    · exact registered_of_not_lt hp
  refine ⟨(sane_start peers configs).tidy,?_,?_,?_⟩
  · intro h x hx
    cases hx
  · intro p id hid
    rw [hnone] at hid
    cases hid
  · intro p
    rw [hnone]
    exact List.nodup_nil

end ChatToken.Network
