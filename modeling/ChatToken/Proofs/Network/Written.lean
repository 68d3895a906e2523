import ChatToken.Proofs.Message.Readback
import ChatToken.Proofs.Network.Accounts
import ChatToken.Text.Pieces

/-! # Lines on the way to the server

A command is handed over as one text, with its arguments as they are. Whoever takes lines out of the
stream finds one line more than there are line feeds in the command and in its arguments. So a
command stays one line if nobody puts a line feed into it, and only then.
-/
namespace ChatToken

def lineFeeds (s : String) : Nat := s.toList.count '\n'

theorem lineFeeds_eq_zero {s : String} : lineFeeds s = 0 ↔ '\n' ∉ s.toList :=
  List.count_eq_zero

namespace Message

theorem count_renderParams (ps : List (List Char)) :
    (renderParams ps).count '\n' = (ps.map (·.count '\n')).sum := by
  induction ps with
  | nil => rfl
  | cons p ps ih =>
    cases ps with
    | nil => by_cases hp : needsColon p = true <;> simp [renderParams, hp]
    | cons q qs =>
      rw [renderParams, List.map_cons, List.sum_cons, ← ih]
      · simp
      · simp

theorem count_upper (cs : List Char) : (upper cs).count '\n' = cs.count '\n' := by
  induction cs with
  | nil => rfl
  | cons c cs ih =>
    have hc : c.toUpper = '\n' ↔ c = '\n' := toUpper_eq_iff (by decide)
    rw [upper, List.map_cons, List.count_cons, List.count_cons, ← upper, ih]
    simp only [beq_iff_eq, hc]

/-- Nothing but the command and its arguments brings line feeds into a command. -/
theorem lineFeeds_text (command : String) (args : List String) :
    lineFeeds (Message.of command args).text =
      lineFeeds command + (args.map lineFeeds).sum := by
  simp only [lineFeeds, text, String.toList_ofList, render, Message.of, Option.map_none,
    renderSource, List.nil_append, List.count_append, upperText, count_upper, count_renderParams,
    List.map_map]
  rfl

theorem length_lines (m : Message) : m.lines.length = lineFeeds m.text + 1 := by
  rw [lines, List.length_map, Text.length_splitOn, lineFeeds, text, String.toList_ofList]

theorem lines_eq_text_iff (m : Message) : m.lines = [m.text] ↔ '\n' ∉ m.text.toList := by
  constructor
  · intro h
    have hlength := m.length_lines
    rw [h, List.length_singleton] at hlength
    apply lineFeeds_eq_zero.mp
    omega
  · intro h
    rw [text, String.toList_ofList] at h
    rw [lines, List.splitOn_eq_singleton h, List.map_singleton, text]

theorem not_mem_text_iff (command : String) (args : List String) :
    '\n' ∉ (Message.of command args).text.toList ↔
      '\n' ∉ command.toList ∧ ∀ arg ∈ args, '\n' ∉ arg.toList := by
  simp only [← lineFeeds_eq_zero, lineFeeds_text, Nat.add_eq_zero_iff, List.sum_eq_zero_iff,
    List.forall_mem_map]

/-- What becomes of a message on its way: lines without line feeds, which together are its text. -/
structure Arrives (m : Message) (ls : List String) : Prop where
  plain : ∀ line ∈ ls, '\n' ∉ line.toList
  joined : ls.flatMap (fun line => line.toList ++ ['\n']) = m.text.toList ++ ['\n']

theorem arrives_lines (m : Message) : m.Arrives m.lines := by
  constructor
  · intro line h
    obtain ⟨cs,hcs,rfl⟩ := List.mem_map.mp h
    rw [String.toList_ofList]
    exact Text.not_mem_of_mem_splitOn hcs
  · have hcut := Text.flatMap_splitOn '\n' m.render
    simpa [lines, List.flatMap_map, text] using hcut

end Message

namespace Network

variable (n : Network) (p : Nat)

def takes : Bool := decide (p < n.peers.length) && (n.peer p).connected

theorem takes_iff : n.takes p = true ↔ p < n.peers.length ∧ (n.peer p).connected = true := by
  rw [takes, Bool.and_eq_true, decide_eq_true_eq]

theorem Quiet.takes {n n' : Network} (h : Quiet n n') (p : Nat) : n'.takes p = n.takes p := by
  unfold Network.takes
  rw [h.length, h.connected]

theorem send_takes (command : String) (args : List String) :
    ((n.send p command args).2.peer p).sent =
      (n.peer p).sent ++ if n.takes p then [Message.of command args] else [] := by
  rw [send_sent]
  simp only [takes_iff, true_and]

/-- A connection takes as much after a command as before it. -/
theorem takes_send (command : String) (args : List String) :
    (n.send p command args).2.takes p = n.takes p := by
  have hline := congrArg Prod.snd (n.send_line p command args p)
  change ((n.send p command args).2.peer p).connected = (n.peer p).connected at hline
  rw [takes, takes, (n.outer_send p command args).length, hline]

/-- Only a token request is answered at once. -/
theorem send_of_takes (h : n.takes p = true) {command : String} (args : List String)
    (hne : Message.upperText command ≠ Reply.extjwt) : (n.send p command args).1 = .sent := by
  have hc := ((n.takes_iff p).mp h).2
  have hsend : (n.peer p).send command args =
      (.ok [], { n.peer p with sent := (n.peer p).sent ++ [.of command args] }) := by
    simp [Peer.send, hc, Message.of, hne]
  unfold send
  simp only [note_peer, hsend, deliverLines]

variable (h : Holder) (timeout : Span)

/-- A registration sends its two commands, if the connection takes them. -/
theorem openRegistration_sent (nick : String) :
    ((n.openRegistration h p nick timeout).2.peer p).sent = (n.peer p).sent ++
      if n.takes p then [.of "NICK" [nick], .of "USER" [nick, "0", "*", nick]] else [] := by
  have hopen := n.quiet_openExchange h p .registration timeout
  unfold openRegistration
  dsimp only
  generalize n.openExchange h p .registration timeout = listening at hopen ⊢
  have hnick := listening.send_takes p "NICK" [nick]
  have hstill := listening.takes_send p "NICK" [nick]
  have hsending := listening.send_of_takes p
  rw [hopen.sent, hopen.takes] at hnick
  rw [hopen.takes] at hstill hsending
  cases ht : n.takes p with
  | true =>
    have hsent : (listening.send p "NICK" [nick]).1 = .sent := hsending ht [nick] (by decide)
    rw [ht] at hnick hstill
    generalize listening.send p "NICK" [nick] = r at hnick hstill hsent
    obtain ⟨s,asked⟩ := r
    subst hsent
    dsimp only at hnick hstill ⊢
    rw [send_takes, hnick, hstill, List.append_assoc]
    rfl
  | false =>
    rw [ht] at hnick hstill
    generalize listening.send p "NICK" [nick] = r at hnick hstill
    obtain ⟨s,asked⟩ := r
    dsimp only at hnick hstill
    cases s with
    | sent =>
      dsimp only
      rw [send_takes, hnick, hstill, List.append_assoc]
      rfl
    | failed cause => exact hnick
    | broken line => exact hnick

theorem openRequest_sent (service : Option String) :
    ((n.openRequest h p service timeout).2.peer p).sent = (n.peer p).sent ++
      if n.takes p then [.of Reply.extjwt (Reply.anyTarget :: service.toList)] else [] := by
  have hopen := n.quiet_openExchange h p .extjwt timeout
  unfold openRequest
  rw [send_takes, hopen.sent, hopen.takes]

structure Hands (q q' : Peer) (ms : List Message) (count : Nat) : Prop where
  sent : q'.sent = q.sent ++ ms
  written : q'.written = q.written ++ ms.flatMap Message.lines
  arrives : ∀ m ∈ ms, m.Arrives m.lines
  length : (ms.flatMap Message.lines).length = count

theorem hands_of_sent {q q' : Peer} {ms : List Message} (hs : q'.sent = q.sent ++ ms) :
    Hands q q' ms (ms.map fun m => lineFeeds m.text + 1).sum := by
  refine ⟨hs,?_,fun m _ => m.arrives_lines,?_⟩
  · unfold Peer.written
    rw [hs, List.flatMap_append]
  · simp only [List.length_flatMap, Message.length_lines]

/-- Whatever is sent over a connection that takes commands goes out as one text for each command,
and the server gets one line more than there are line feeds in the command and in its arguments: a
single line if there is none, and only then. This includes the name that a registration asks for,
which it sends three times, and the service that tokens are requested for. -/
theorem lines_of_commands (ht : n.takes p = true) :
    (∀ command args,
      let m := Message.of command args
      Hands (n.peer p) ((n.send p command args).2.peer p) [m]
        (lineFeeds command + (args.map lineFeeds).sum + 1) ∧
      ('\n' ∉ m.text.toList ↔ '\n' ∉ command.toList ∧ ∀ arg ∈ args, '\n' ∉ arg.toList) ∧
      (m.lines = [m.text] ↔ '\n' ∉ command.toList ∧ ∀ arg ∈ args, '\n' ∉ arg.toList)) ∧
    (∀ nick, Hands (n.peer p) ((n.openRegistration h p nick timeout).2.peer p)
      [.of "NICK" [nick], .of "USER" [nick, "0", "*", nick]] (3 * lineFeeds nick + 2)) ∧
    (∀ service, Hands (n.peer p) ((n.openRequest h p service timeout).2.peer p)
      [.of Reply.extjwt (Reply.anyTarget :: service.toList)]
      ((service.map lineFeeds).getD 0 + 1)) := by
  refine ⟨?_,?_,?_⟩
  · intro command args m
    have hsent := n.send_takes p command args
    rw [ht] at hsent
    have hhands := hands_of_sent hsent
    have htext := Message.not_mem_text_iff command args
    refine ⟨?_,htext,m.lines_eq_text_iff.trans htext⟩
    simpa [Message.lineFeeds_text] using hhands
  · intro nick
    have hsent := n.openRegistration_sent p h timeout nick
    rw [ht] at hsent
    have hhands := hands_of_sent hsent
    have hcount : (([Message.of "NICK" [nick], .of "USER" [nick, "0", "*", nick]]).map
        fun m => lineFeeds m.text + 1).sum = 3 * lineFeeds nick + 2 := by
      have hzero : lineFeeds "0" = 0 ∧ lineFeeds "*" = 0 ∧ lineFeeds "NICK" = 0 ∧
        lineFeeds "USER" = 0 := by decide
      simp only [List.map_cons, List.map_nil, List.sum_cons, List.sum_nil, Message.lineFeeds_text,
        hzero]
      omega
    exact hcount ▸ hhands
  · intro service
    have hsent := n.openRequest_sent p h timeout service
    rw [ht] at hsent
    have hhands := hands_of_sent hsent
    have hcount : (([Message.of Reply.extjwt (Reply.anyTarget :: service.toList)]).map
        fun m => lineFeeds m.text + 1).sum = (service.map lineFeeds).getD 0 + 1 := by
      have hzero : lineFeeds Reply.extjwt = 0 ∧ lineFeeds Reply.anyTarget = 0 := by decide
      cases service <;> simp [Message.lineFeeds_text, hzero]
    exact hcount ▸ hhands

/-- What a client says in two lines reaches the server as two. -/
theorem two_lines_sent :
    let n := Network.connect {} "SERVER"
    n.takes 0 = true ∧
    Hands (n.peer 0) ((n.send 0 "PRIVMSG" ["#c", "hi\nall"]).2.peer 0)
      [.of "PRIVMSG" ["#c", "hi\nall"]] 2 ∧
    Hands (n.peer 0) ((n.openRegistration (.caller 0) 0 "al" (Span.ofSeconds 30)).2.peer 0)
      [.of "NICK" ["al"], .of "USER" ["al", "0", "*", "al"]] 2 := by
  intro n
  have ht : n.takes 0 = true := by decide +kernel
  have hlines := lines_of_commands n 0 (.caller 0) (Span.ofSeconds 30) ht
  exact ⟨ht,(hlines.1 "PRIVMSG" ["#c", "hi\nall"]).1,hlines.2.1 "al"⟩

/-- The last argument brings a line feed into the text that is queued on a registered connection,
and the server gets a second command, which ends the connection. A name and a service can do the
same. -/
theorem argument_becomes_command :
    let n := ((Network.connect {} "SERVER").openRegistration (.caller 0) 0 "al"
      (Span.ofSeconds 30)).2
    ((n.send 0 "PRIVMSG" ["#c", "hi\nQUIT"]).2.peer 0).sent.map (·.text) =
      ["NICK al", "USER al 0 * al", "PRIVMSG #c hi\nQUIT"] ∧
    ((n.send 0 "PRIVMSG" ["#c", "hi\nQUIT"]).2.peer 0).written =
      ["NICK al", "USER al 0 * al", "PRIVMSG #c hi", "QUIT"] ∧
    (((Network.connect {} "SERVER").openRegistration (.caller 0) 0 "al\nQUIT"
      (Span.ofSeconds 30)).2.peer 0).written =
      ["NICK al", "QUIT", "USER al", "QUIT 0 * al", "QUIT"] ∧
    ((n.openRequest (.caller 1) 0 (some "a\nQUIT") (Span.ofSeconds 10)).2.peer 0).written =
      ["NICK al", "USER al 0 * al", "EXTJWT * a", "QUIT"] := by
  decide +kernel

end Network

end ChatToken
