import ChatToken.Network.Quotes
import ChatToken.Proofs.Network.Reporting

/-! # What can be told from the log of a stream

Of two runs that differ in token texts, the streams log the same events at the same places, but for
the lines that they quote. A quote is logged at the finest level only: at all others the logs are
the same, and there they differ as soon as the lines do.
-/
namespace ChatToken

/-! ## Notices -/

namespace Notice

def quoted? : Notice → Option String
  | lineReceived _ line => some line
  | _ => none

/-- The same notice, or one that quotes a line with another text in it. -/
inductive Requoted : Notice → Notice → Prop where
  | same (x : Notice) : Requoted x x
  | line (p : Nat) {line line' : String} (h : Message.LineReworded line line') :
      Requoted (lineReceived p line) (lineReceived p line')

theorem quoted?_of_isOwn {x : Notice} (h : x.isOwn = true) : x.quoted? = none := by
  cases x <;> first | rfl | cases h

theorem filterMap_quoted?_of_own {own : List Notice} (h : ∀ x ∈ own, x.isOwn = true) :
    own.filterMap quoted? = [] := by
  rw [List.filterMap_eq_nil_iff]
  exact fun x hx => quoted?_of_isOwn (h x hx)

end Notice

namespace LogEvent

theorem quote_inj {address line line' : String} :
    quote address line' = quote address line ↔ line' = line := by
  constructor
  · intro h
    have hmessage := congrArg LogEvent.message h
    exact (String.append_right_inj _).mp hmessage
  · rintro rfl
    rfl

end LogEvent

/-! ## Events -/

section
variable (shown name : Nat → String)

def streamEvents (xs : List Notice) : List LogEvent :=
  (xs.filterMap (LogEvent.ofNotice shown name)).filter (·.target = LogEvent.streamTarget)

theorem streamEvents_cons (x : Notice) (xs : List Notice) :
    streamEvents shown name (x :: xs) =
      streamEvents shown name [x] ++ streamEvents shown name xs := by
  unfold streamEvents
  rw [← List.filter_append, ← List.filterMap_append, List.singleton_append]

theorem streamEvents_line (p : Nat) (line : String) :
    streamEvents shown name [.lineReceived p line] = [LogEvent.quote (name p) line] := by
  apply List.filter_eq_self.mpr
  intro e he
  rw [List.mem_singleton.mp he]
  exact decide_eq_true rfl

theorem streamEvents_requoted {xs xs' : List Notice} (h : List.Forall₂ Notice.Requoted xs xs') :
    List.Forall₂ LogEvent.Requoted (streamEvents shown name xs) (streamEvents shown name xs') ∧
    (streamEvents shown name xs' = streamEvents shown name xs ↔
      xs'.filterMap Notice.quoted? = xs.filterMap Notice.quoted?) := by
  induction h with
  | nil => exact ⟨.nil,by simp⟩
  | @cons x x' xs xs' hx _ ih =>
    obtain ⟨hall,hiff⟩ := ih
    rw [streamEvents_cons shown name x xs, streamEvents_cons shown name x' xs']
    cases hx with
    | same =>
      rw [List.append_cancel_left_eq, hiff]
      refine ⟨List.rel_append (List.forall₂_same.mpr fun e _ => .inl rfl) hall,?_⟩
      cases hq : x.quoted? with
      | none => rw [List.filterMap_cons_none hq, List.filterMap_cons_none hq]
      | some line => simp [hq]
    | @line p line line' hl =>
      rw [streamEvents_line, streamEvents_line]
      refine ⟨.cons (.inr ⟨name p,line,line',hl,rfl,rfl⟩) hall,?_⟩
      simp [Notice.quoted?, LogEvent.quote_inj, hiff]

end

/-! ## Filters -/

namespace LogDirective

theorem passes_quote {directives : List LogDirective} {address line : String}
    (h : levelFor directives LogEvent.streamTarget ≠ .trace) :
    passes directives (LogEvent.quote address line) = false := by
  change (levelFor directives LogEvent.streamTarget).passes .trace = false
  cases hl : levelFor directives LogEvent.streamTarget with
  | trace => exact absurd hl h
  | _ => rfl

/-- The finest level lets everything pass. -/
theorem passes_of_trace {directives : List LogDirective} {e : LogEvent}
    (h : levelFor directives LogEvent.streamTarget = .trace)
    (he : e.target = LogEvent.streamTarget) : passes directives e = true := by
  rw [passes, he, h]
  cases e.level <;> rfl

/-- The configured level is that of the streams. -/
theorem levelFor_configured (level : LogFilter) :
    levelFor (ofText (ofLevel level)) LogEvent.streamTarget = level := by
  cases level <;> decide +kernel

end LogDirective

namespace Network

/-! ## Two runs side by side -/

/-- Two networks that are the same but for the texts of tokens, and have reported the same but for
the lines that are quoted. -/
structure Echoes (n n' : Network) : Prop where
  veils : n.Veils n'
  notices : List.Forall₂ Notice.Requoted n.notices n'.notices

namespace Echoes

variable {n n' k k' : Network}

theorem refl (n : Network) : n.Echoes n :=
  ⟨.refl n,List.forall₂_same.mpr fun x _ => .same x⟩

/-- What is reported without a quote is the same on both sides. -/
theorem grow (h : n.Echoes n') (hk : n.Adds k) (hk' : n'.Adds k') (hv : k.Veils k') :
    k.Echoes k' := by
  obtain ⟨own,hown,hall⟩ := hk
  obtain ⟨own',hown',hall'⟩ := hk'
  have hsame : own' = own := by
    have hfilter := hv.notices
    rw [hown, hown', List.filter_append, List.filter_append, h.veils.notices,
      List.append_cancel_left_eq, List.filter_eq_self.mpr hall, List.filter_eq_self.mpr hall']
      at hfilter
    exact hfilter
  refine ⟨hv,?_⟩
  rw [hown, hown', hsame]
  exact List.rel_append h.notices (List.forall₂_same.mpr fun x _ => .same x)

theorem note (h : n.Echoes n') (x : Notice) (hx : x.isOwn = true) :
    (n.note [x]).Echoes (n'.note [x]) :=
  h.grow (n.adds_one hx) (n'.adds_one hx) (h.veils.report [x])

/-- A line is quoted on both sides, and what follows is the same. -/
theorem receive (h : n.Echoes n') (p : Nat) {line line' : String}
    (hl : Message.LineReworded line line') :
    (n.receive p (.line line)).Echoes (n'.receive p (.line line')) := by
  have hreading := (h.veils.peer p).isReading
  by_cases hr : (n.peer p).isReading = true
  · have hquoted : (n.note [.lineReceived p line]).Echoes (n'.note [.lineReceived p line']) :=
      ⟨h.veils.note rfl,List.rel_append h.notices (.cons (.line p hl) .nil)⟩
    exact hquoted.grow (n.adds_receive hr line) (n'.adds_receive (hreading.trans hr) line')
      (h.veils.receive p hl)
  · have hn : n.receive p (.line line) = n := if_neg hr
    have hn' : n'.receive p (.line line') = n' := if_neg (hreading ▸ hr)
    rwa [hn, hn']

theorem act (h : n.Echoes n') {a a' : Act} (ha : a.Reworded a') :
    (n.act a).Echoes (n'.act a') := by
  have hv : (n.act a).Veils (n'.act a') := by
    cases ha with
    | same => exact h.veils.act a
    | event he => exact h.veils.step he
  have hother : (∀ p line, a ≠ .event (.receive p (.line line))) →
      (∀ p line, a' ≠ .event (.receive p (.line line))) → (n.act a).Echoes (n'.act a') :=
    fun ha ha' => h.grow (n.adds_act ha) (n'.adds_act ha') hv
  have hsame : a' = a → (n.act a).Echoes (n'.act a') := by
    rintro rfl
    by_cases hread : ∃ p line, a' = .event (.receive p (.line line))
    · obtain ⟨p,line,rfl⟩ := hread
      exact h.receive p (.inl rfl)
    · have hne : ∀ p line, a' ≠ .event (.receive p (.line line)) :=
        fun p line he => hread ⟨p,line,he⟩
      exact hother hne hne
  cases ha with
  | same => exact hsame rfl
  | event he =>
    cases he with
    | same => exact hsame rfl
    | receive p hl => exact h.receive p hl
    | deliver p hm => exact hother (by simp) (by simp)
    | prepare p hr => exact hother (by simp) (by simp)

theorem play (h : n.Echoes n') {as as' : List Act} (ha : List.Forall₂ Act.Reworded as as') :
    (n.play as).Echoes (n'.play as') := by
  induction ha generalizing n n' with
  | nil => exact h
  | cons ha _ ih => exact ih (h.act ha)

theorem confirm (h : n.Echoes n') (c p : Nat) (nick : String) :
    (n.confirm c p nick).Echoes (n'.confirm c p nick) := by
  obtain ⟨hresult,hv⟩ := h.veils.pollExchange (.caller c)
  have hpolled := h.grow (n.adds_pollExchange (.caller c)) (n'.adds_pollExchange (.caller c)) hv
  unfold Network.confirm
  generalize n.pollExchange (.caller c) = r at hresult hpolled
  generalize n'.pollExchange (.caller c) = r' at hresult hpolled
  obtain ⟨result,k⟩ := r
  obtain ⟨result',k'⟩ := r'
  obtain ⟨rfl,rfl⟩ | ⟨a,a',rfl,rfl,ha⟩ := option_cases hresult
  · exact hpolled
  · obtain ⟨e,rfl,rfl⟩ | ⟨s,s',rfl,rfl,_⟩ := result_cases ha
    · exact hpolled
    · exact hpolled.note (.registered p nick) rfl

/-! ## The logs -/

/-- The streams log the same events at the same places, but for the lines that they quote. -/
theorem streamLog (h : n.Echoes n') :
    List.Forall₂ LogEvent.Requoted n.streamLog n'.streamLog ∧
    (n'.streamLog = n.streamLog ↔
      n'.notices.filterMap Notice.quoted? = n.notices.filterMap Notice.quoted?) := by
  have hshown : (fun p => (n'.peer p).shown) = fun p => (n.peer p).shown :=
    funext fun p => (h.veils.peer p).shown
  have hname : (fun p => (n'.peer p).name) = fun p => (n.peer p).name :=
    funext fun p => (h.veils.peer p).name
  unfold Network.streamLog
  rw [hshown, hname]
  exact streamEvents_requoted _ _ h.notices

end Echoes

/-! ## Which lines are quoted -/

theorem quoted_of_adds {n n' : Network} (h : n.Adds n') :
    n'.notices.filterMap Notice.quoted? = n.notices.filterMap Notice.quoted? := by
  obtain ⟨own,hown,hall⟩ := h
  rw [hown, List.filterMap_append, Notice.filterMap_quoted?_of_own hall, List.append_nil]

theorem quoted_act (n : Network) (a : Act) :
    (n.act a).notices.filterMap Notice.quoted? =
      n.notices.filterMap Notice.quoted? ++ n.reads a := by
  by_cases hread : ∃ p line, a = .event (.receive p (.line line))
  · obtain ⟨p,line,rfl⟩ := hread
    change (n.receive p (.line line)).notices.filterMap Notice.quoted? = _
    by_cases hr : (n.peer p).isReading = true
    · rw [quoted_of_adds (n.adds_receive hr line)]
      simp [note, reads, hr, Notice.quoted?]
    · have hn : n.receive p (.line line) = n := if_neg hr
      simp [hn, reads, hr]
  · have hne : ∀ p line, a ≠ .event (.receive p (.line line)) := fun p line he => hread ⟨p,line,he⟩
    have hnone : n.reads a = [] := by
      unfold reads
      split
      · exact absurd rfl (hne _ _)
      · rfl
    rw [quoted_of_adds (n.adds_act hne), hnone, List.append_nil]

theorem quoted_play (n : Network) (as : List Act) :
    (n.play as).notices.filterMap Notice.quoted? =
      n.notices.filterMap Notice.quoted? ++ n.readIn as := by
  induction as generalizing n with
  | nil => exact (List.append_nil _).symm
  | cons a as ih =>
    refine (ih (n.act a)).trans ?_
    rw [quoted_act, readIn, List.append_assoc]

theorem quoted_confirm (n : Network) (c p : Nat) (nick : String) :
    (n.confirm c p nick).notices.filterMap Notice.quoted? =
      n.notices.filterMap Notice.quoted? := by
  have hpoll := n.adds_pollExchange (.caller c)
  apply quoted_of_adds
  unfold confirm
  split
  · next he =>
    rw [he] at hpoll
    exact hpoll.trans (adds_one _ rfl)
  · next he => rwa [he] at hpoll

theorem quoted_dial (n : Network) (address : String) (c : Nat) (nick : String) (timeout : Span) :
    (n.dial address c nick timeout).notices.filterMap Notice.quoted? =
      n.notices.filterMap Notice.quoted? := by
  have hconnect : n.Adds (n.connect address) :=
    adds_one { n with peers := n.peers ++ [Peer.overStream address] } rfl
  exact quoted_of_adds (hconnect.trans (adds_openRegistration ..))

/-- Every line that is read is quoted in the order in which they come in, and nothing else is. -/
theorem quoted_served (client : Client) (n : Network) (before after : List Act) :
    (served client n before after).notices.filterMap Notice.quoted? =
      n.notices.filterMap Notice.quoted? ++ readWhile client n before after := by
  unfold served readWhile
  rw [quoted_play, quoted_confirm, quoted_play, quoted_dial, List.append_assoc]
  rfl

/-! ## What gets through a filter -/

theorem filter_requoted {directives : List LogDirective}
    (h : LogDirective.levelFor directives LogEvent.streamTarget ≠ .trace) {es es' : List LogEvent}
    (he : List.Forall₂ LogEvent.Requoted es es') :
    es'.filter (LogDirective.passes directives) = es.filter (LogDirective.passes directives) := by
  induction he with
  | nil => rfl
  | cons he _ ih =>
    obtain rfl | ⟨address,line,line',_,rfl,rfl⟩ := he
    · rw [List.filter_cons, List.filter_cons, ih]
    · rw [List.filter_cons_of_neg (by simp [LogDirective.passes_quote h]),
        List.filter_cons_of_neg (by simp [LogDirective.passes_quote h]), ih]

theorem streamLogThrough_of_trace (n : Network) {directives : List LogDirective}
    (h : LogDirective.levelFor directives LogEvent.streamTarget = .trace) :
    n.streamLogThrough directives = n.streamLog := by
  apply List.filter_eq_self.mpr
  intro e he
  apply LogDirective.passes_of_trace h
  exact of_decide_eq_true (List.mem_filter.mp he).2

/-- Of two runs of a client that differ in the texts of tokens, the streams log the same events at
the same places, but for the lines that they quote. At every level but the finest the logs are the
same. At the finest all is logged that there is, with every line that was read: the logs are the
same only if all lines are, so no token text stays out of them. -/
theorem texts_quoted_at_trace (peers : List Peer) (configs : List TokenConfig) (client : Client)
    {before before' after after' : List Act} (hbefore : List.Forall₂ Act.Reworded before before')
    (hafter : List.Forall₂ Act.Reworded after after') :
    let n := served client (start peers configs) before after
    let n' := served client (start peers configs) before' after'
    List.Forall₂ LogEvent.Requoted n.streamLog n'.streamLog ∧
    (∀ level : LogFilter, level ≠ .trace →
      n'.streamLogThrough (LogDirective.ofText (LogDirective.ofLevel level)) =
        n.streamLogThrough (LogDirective.ofText (LogDirective.ofLevel level))) ∧
    (∀ directives, LogDirective.levelFor directives LogEvent.streamTarget ≠ .trace →
      n'.streamLogThrough directives = n.streamLogThrough directives) ∧
    (∀ directives, LogDirective.levelFor directives LogEvent.streamTarget = .trace →
      n.streamLogThrough directives = n.streamLog ∧
      (n'.streamLogThrough directives = n.streamLogThrough directives ↔
        readWhile client (start peers configs) before' after' =
          readWhile client (start peers configs) before after)) ∧
    LogDirective.levelFor (LogDirective.ofText (LogDirective.ofLevel .trace))
      LogEvent.streamTarget = .trace := by
  intro n n'
  have hechoes : n.Echoes n' := by
    have hdialled := Echoes.refl ((start peers configs).dial client.address client.caller
      client.nick client.timeout)
    exact ((hdialled.play hbefore).confirm _ _ _).play hafter
  obtain ⟨hrequoted,hiff⟩ := hechoes.streamLog
  have hcoarse : ∀ directives, LogDirective.levelFor directives LogEvent.streamTarget ≠ .trace →
      n'.streamLogThrough directives = n.streamLogThrough directives :=
    fun directives hd => filter_requoted hd hrequoted
  refine ⟨hrequoted,?_,hcoarse,?_,LogDirective.levelFor_configured .trace⟩
  · intro level hlevel
    apply hcoarse
    rwa [LogDirective.levelFor_configured]
  · intro directives hd
    have hall := n.streamLogThrough_of_trace hd
    have hall' := n'.streamLogThrough_of_trace hd
    refine ⟨hall,?_⟩
    rw [hall, hall', hiff, quoted_served, quoted_served, List.append_cancel_left_eq]

/-! ## A client that gets a token -/

def tokenLine (text : String) : String := ":s EXTJWT * * :" ++ text

def al : Client := { address := "SERVER", caller := 0, nick := "al", timeout := .ofSeconds 30 }

def greeting : List Act :=
  [.event (.receive 0 (.line ":s 001 al :Welcome")),
    .event (.receive 0 (.line ":s 376 al :End of /MOTD command."))]

def tokenExchange (text : String) : List Act :=
  [.event (.lookup 0 0), .event (.turn ⟨0,0⟩), .event (.receive 0 (.line (tokenLine text))),
    .event (.turn ⟨0,0⟩)]

/-- Two responses of the same size. -/
theorem responses_reworded :
    Message.LineReworded (tokenLine "secrettoken") (tokenLine "othersecret") :=
  .inr ⟨⟨some "s","EXTJWT",["*", "*", "secrettoken"]⟩,⟨some "s","EXTJWT",["*", "*", "othersecret"]⟩,
    by decide +kernel,by decide +kernel,
    .inr ⟨by decide +kernel,"othersecret",by decide +kernel,rfl⟩⟩

theorem exchanges_reworded :
    List.Forall₂ Act.Reworded (tokenExchange "secrettoken") (tokenExchange "othersecret") :=
  .cons (.same _) <| .cons (.same _) <|
    .cons (.event (.receive 0 responses_reworded)) <| .cons (.same _) .nil

/-- Two clients get different tokens. Their logs cannot be told apart at any level but the finest.
-/
theorem other_token_quoted :
    let n := served al (start [] [{}]) greeting (tokenExchange "secrettoken")
    let n' := served al (start [] [{}]) greeting (tokenExchange "othersecret")
    (n.manager 0).loader.cache.get? 0 = some ⟨"secrettoken",0⟩ ∧
    (n'.manager 0).loader.cache.get? 0 = some ⟨"othersecret",0⟩ ∧
    List.Forall₂ LogEvent.Requoted n.streamLog n'.streamLog ∧
    n'.streamLogThrough (LogDirective.ofText "info,fileuploader_cli=debug") =
      n.streamLogThrough (LogDirective.ofText "info,fileuploader_cli=debug") := by
  intro n n'
  have hgreeting : List.Forall₂ Act.Reworded greeting greeting :=
    List.forall₂_same.mpr fun a _ => .same a
  have hlogs := texts_quoted_at_trace [] [{}] al hgreeting exchanges_reworded
  exact ⟨by decide +kernel,by decide +kernel,hlogs.1,hlogs.2.2.1 _ (by decide +kernel)⟩

/-- At the finest level that can be configured, the tokens stand in the logs. -/
theorem token_in_log :
    let finest := LogDirective.ofText (LogDirective.ofLevel .trace)
    let n := served al (start [] [{}]) greeting (tokenExchange "secrettoken")
    let n' := served al (start [] [{}]) greeting (tokenExchange "othersecret")
    (n.streamLogThrough finest)[7]? = some (.quote "SERVER" (tokenLine "secrettoken")) ∧
    (n'.streamLogThrough finest)[7]? = some (.quote "SERVER" (tokenLine "othersecret")) ∧
    n'.streamLogThrough finest ≠ n.streamLogThrough finest := by
  intro finest n n'
  have hsecret : (n.streamLogThrough finest)[7]? =
      some (.quote "SERVER" (tokenLine "secrettoken")) := by decide +kernel
  have hother : (n'.streamLogThrough finest)[7]? =
      some (.quote "SERVER" (tokenLine "othersecret")) := by decide +kernel
  refine ⟨hsecret,hother,?_⟩
  intro hsame
  rw [hsame, hsecret, Option.some_inj, LogEvent.quote_inj] at hother
  exact absurd hother (by decide +kernel)

end Network

end ChatToken
