import ChatToken.Message.Parse
import ChatToken.Message.Render
import Mathlib.Data.List.Basic

/-! # Writing a message and reading it back

A line is read as a sequence of chunks: the source, the command and the parameters, each with the
space before it. A message whose chunks can be told apart is read back as it was written.
-/
namespace ChatToken.Message

structure Writable (m : Message) : Prop where
  source : ∀ s ∈ m.source, ' ' ∉ s.toList
  command : m.command.toList ≠ [] ∧ ' ' ∉ m.command.toList
  letters : upper m.command.toList = m.command.toList
  start : m.source = none →
    m.command.toList.head? ≠ some '@' ∧ m.command.toList.head? ≠ some ':'
  middle : ∀ q ∈ m.params.dropLast, q.toList ≠ [] ∧ ' ' ∉ q.toList ∧ q.toList.head? ≠ some ':'
  last : ∀ c ∈ (m.lastParam?.getD m.command).toList.getLast?, isLineEnd c = false

/-! ## Words -/

section
variable {cs rest read : List Char}

theorem word_append (h : ' ' ∉ cs) (hr : ∀ c ∈ rest.head?, c = ' ') :
    word (cs ++ rest) = cs ∧ afterWord (cs ++ rest) = rest := by
  have hcs : ∀ c ∈ cs, (c != ' ') = true := by
    intro c hc
    simpa using fun he : c = ' ' => h (he ▸ hc)
  unfold word afterWord
  rw [List.takeWhile_append_of_pos hcs, List.dropWhile_append_of_pos hcs]
  cases rest with
  | nil => simp
  | cons c rest =>
    obtain rfl := hr c rfl
    simp

theorem skipSpaces_of_head (h : cs.head? ≠ some ' ') : skipSpaces cs = cs := by
  cases cs with
  | nil => rfl
  | cons c cs =>
    have hc : c ≠ ' ' := by simpa using h
    simp [skipSpaces, hc]

theorem dropLineEnd_of_last (h : ∀ c ∈ cs.getLast?, isLineEnd c = false) : dropLineEnd cs = cs := by
  rw [← List.head?_reverse] at h
  rw [dropLineEnd]
  cases hr : cs.reverse with
  | nil => simpa using hr.symm
  | cons c rest =>
    rw [hr] at h
    rw [List.dropWhile_cons_of_neg (by simp [h c rfl]), ← hr, List.reverse_reverse]

/-! ## Parameters -/

/-- The characters of a word are read one by one. -/
theorem readParams_word (h : ' ' ∉ cs) (hstart : read = [] → cs.head? ≠ some ':') :
    readParams read (cs ++ rest) = readParams (cs.reverse ++ read) rest := by
  induction cs generalizing read with
  | nil => rfl
  | cons c cs ih =>
    rw [List.mem_cons, not_or] at h
    have hc : (c == ':' && read.isEmpty) = false := by
      cases read with
      | nil => simpa using hstart rfl
      | cons => simp
    have hspace : (c == ' ') = false := by simpa using Ne.symm h.1
    rw [List.cons_append, readParams, hspace, hc, if_neg (by simp), if_neg (by simp),
      ih h.2 (by simp)]
    simp

theorem renderParams_head (ps : List (List Char)) : ∀ c ∈ (renderParams ps).head?, c = ' ' := by
  intro c hc
  cases ps with
  | nil => cases hc
  | cons p ps =>
    cases ps with
    | nil =>
      rw [renderParams] at hc
      split at hc <;> exact (Option.some.inj hc).symm
    | cons q ps => exact (Option.some.inj hc).symm

/-- A word ends where the next space is. -/
theorem readParams_behind (hread : read ≠ []) (hrest : ∀ c ∈ rest.head?, c = ' ') :
    readParams read rest = read.reverse :: readParams [] rest := by
  have hempty : read.isEmpty = false := by simpa using hread
  cases rest with
  | nil => simp [readParams, hempty]
  | cons c rest =>
    obtain rfl := hrest c rfl
    simp [readParams, hempty]

/-- Parameters are read back as long as no one but the last needs a colon. -/
theorem readParams_render {ps : List (List Char)}
    (h : ∀ q ∈ ps.dropLast, q ≠ [] ∧ ' ' ∉ q ∧ q.head? ≠ some ':') :
    readParams [] (renderParams ps) = ps := by
  induction ps with
  | nil => rfl
  | cons p ps ih =>
    cases ps with
    | nil =>
      rw [renderParams]
      split
      · simp [readParams]
      · next hcolon =>
        obtain ⟨⟨hne,hspace⟩,hhead⟩ : (p ≠ [] ∧ ' ' ∉ p) ∧ p.head? ≠ some ':' := by
          simpa [needsColon, not_or] using hcolon
        have hword : readParams [] (p ++ []) = readParams (p.reverse ++ []) [] :=
          readParams_word hspace fun _ => hhead
        rw [List.append_nil, List.append_nil] at hword
        have hrev : p.reverse.isEmpty = false := by simpa using hne
        simp [readParams, hword, hrev]
    | cons q ps =>
      obtain ⟨hne,hspace,hhead⟩ := h p (by simp)
      have hrest := ih fun q' hq' => h q' (by simp [hq'])
      have hbegin : readParams [] (renderParams (p :: q :: ps)) =
          readParams [] (p ++ renderParams (q :: ps)) := by
        simp [renderParams, readParams]
      rw [hbegin, readParams_word hspace fun _ => hhead, List.append_nil,
        readParams_behind (by simpa using hne) (renderParams_head _), List.reverse_reverse, hrest]

end

/-! ## Lines -/

theorem renderParams_ne_nil {ps : List (List Char)} (h : ps ≠ []) : renderParams ps ≠ [] := by
  cases ps with
  | nil => exact absurd rfl h
  | cons p ps =>
    cases ps with
    | nil =>
      rw [renderParams]
      split <;> simp
    | cons q ps => simp [renderParams]

/-- A line ends with its last parameter, or with the colon before an empty one. -/
theorem renderParams_last {ps : List (List Char)} {last : List Char} (h : ps.getLast? = some last) :
    (renderParams ps).getLast? = some (last.getLast?.getD ':') := by
  induction ps with
  | nil => cases h
  | cons p ps ih =>
    cases ps with
    | nil =>
      cases h
      cases p with
      | nil => rfl
      | cons d ds =>
        rw [renderParams]
        split <;> simp [List.getLast?_cons]
    | cons q ps =>
      have hrest : renderParams (q :: ps) ≠ [] := renderParams_ne_nil (by simp)
      rw [renderParams, List.getLast?_append_of_ne_nil _ hrest]
      · exact ih (by simpa using h)
      · simp

/-- A message without parameters ends with its command, any other one with its last parameter. -/
theorem render_last {m : Message} (hc : m.command.toList ≠ []) :
    m.render.getLast? = some ((m.lastParam?.getD m.command).toList.getLast?.getD ':') := by
  rw [render]
  cases hp : m.lastParam? with
  | none =>
    rw [lastParam?, List.getLast?_eq_none_iff] at hp
    rw [hp, List.map_nil, renderParams, List.append_nil, List.getLast?_append_of_ne_nil _ hc]
    simp [List.getLast?_eq_some_getLast hc]
  | some last =>
    have hps : (m.params.map String.toList).getLast? = some last.toList := by
      rw [List.getLast?_map, ← lastParam?, hp]
      rfl
    have hne : m.params.map String.toList ≠ [] := by
      intro he
      rw [he] at hps
      cases hps
    rw [List.getLast?_append_of_ne_nil _ (renderParams_ne_nil hne)]
    exact renderParams_last hps

theorem skipTags_of_head {cs : List Char} (h : cs.head? ≠ some '@') : skipTags cs = some cs := by
  unfold skipTags
  split
  · simp at h
  · rfl

theorem takeSource_of_head {cs : List Char} (h : cs.head? ≠ some ':') :
    takeSource cs = some (none, cs) := by
  unfold takeSource
  split
  · simp at h
  · rfl

namespace Writable

variable {m : Message}

theorem keeps_last (h : m.Writable) : ∀ c ∈ m.render.getLast?, isLineEnd c = false := by
  intro c hc
  have hlast := h.last
  rw [render_last h.command.1] at hc
  cases hl : (m.lastParam?.getD m.command).toList.getLast? with
  | none =>
    rw [hl] at hc
    cases hc
    rfl
  | some d =>
    rw [hl] at hc hlast
    cases hc
    exact hlast d rfl

/-- The command is not taken for anything else. -/
theorem command_head (h : m.Writable) (rest : List Char) {c : Char}
    (hc : m.command.toList.head? ≠ some c) : (m.command.toList ++ rest).head? ≠ some c := by
  obtain ⟨hne,_⟩ := h.command
  cases hl : m.command.toList with
  | nil => exact absurd hl hne
  | cons d ds => simpa [hl] using hc

theorem command_head_space (h : m.Writable) : m.command.toList.head? ≠ some ' ' :=
  fun hc => h.command.2 (List.mem_of_mem_head? hc)

/-- What is left of the line behind the source is read as the command and the parameters. -/
theorem read_rest (h : m.Writable) :
    let rest := m.command.toList ++ renderParams (m.params.map String.toList)
    word rest = m.command.toList ∧
    (readParams [] (afterWord rest)).map String.ofList = m.params := by
  intro rest
  obtain ⟨hw,ha⟩ := word_append h.command.2 (renderParams_head (m.params.map String.toList))
  refine ⟨hw,?_⟩
  rw [ha, readParams_render, List.map_map]
  · simp
  · intro q hq
    rw [← List.map_dropLast, List.mem_map] at hq
    obtain ⟨s,hs,rfl⟩ := hq
    exact h.middle s hs

theorem ofChars?_render (h : m.Writable) : ofChars? m.render = some m := by
  obtain ⟨hword,hparams⟩ := h.read_rest
  obtain ⟨source,command,params⟩ := m
  rw [ofChars?, dropLineEnd_of_last h.keeps_last, render]
  cases source with
  | none =>
    obtain ⟨hat,hcolon⟩ := h.start rfl
    rw [Option.map_none, renderSource, List.nil_append,
      skipSpaces_of_head (h.command_head _ h.command_head_space),
      skipTags_of_head (h.command_head _ hat)]
    simp [takeSource_of_head (h.command_head _ hcolon), hword, hparams, h.letters, h.command.1]
  | some s =>
    have hspace := h.command_head (renderParams (params.map String.toList)) h.command_head_space
    have hbehind : ∀ c ∈ (' ' :: (command.toList ++
        renderParams (params.map String.toList))).head?, c = ' ' := by simp
    obtain ⟨hs,hrest⟩ := word_append (h.source s rfl) hbehind
    have hskip : skipSpaces (' ' :: (command.toList ++ renderParams (params.map String.toList))) =
        command.toList ++ renderParams (params.map String.toList) :=
      skipSpaces_of_head hspace
    simp only [Option.map_some, renderSource, List.append_assoc, List.cons_append, List.nil_append]
    rw [skipSpaces_of_head (by simp), skipTags_of_head (by simp)]
    simp [takeSource, hs, hrest, hskip, hword, hparams, h.letters, h.command.1]

end Writable

/-- A message that can be told from its line is read back from it. -/
theorem parse_text {m : Message} (h : m.Writable) : parse? m.text = some m := by
  rw [parse?, text, String.toList_ofList, h.ofChars?_render]

end ChatToken.Message
