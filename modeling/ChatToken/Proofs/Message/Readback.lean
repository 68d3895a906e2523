import ChatToken.Proofs.Message.Grammar
import Mathlib

/-! # Which messages are read back

Writing a message that was read never gives more than the line that it was read from, and it gives
less if the line has tags, spaces at its head or line ends at its tail. So a text that is read back
has none of these, and all conditions on a message that is read back can be told from its text.
-/
namespace ChatToken.Message

/-! ## Nothing grows -/

section
variable {line body text rest : List Char}

theorem Trimmed.of_length (h : Trimmed line body) (hle : line.length ≤ body.length) :
    body = line ∧ ∀ c ∈ line.getLast?, c ≠ '\r' ∧ c ≠ '\n' := by
  cases h with
  | @mk blanks body ends hblanks hends hhead hlast =>
    simp only [List.length_append] at hle
    obtain rfl : blanks = [] := List.eq_nil_of_length_eq_zero (by omega)
    obtain rfl : ends = [] := List.eq_nil_of_length_eq_zero (by omega)
    simpa using hlast

theorem Untagged.length_le (h : Untagged body text) : text.length ≤ body.length := by
  cases h with
  | plain => exact Nat.le_refl _
  | tagged =>
    simp only [List.length_append]
    omega

theorem Untagged.of_length (h : Untagged body text) (hle : body.length ≤ text.length) :
    text = body ∧ body.head? ≠ some '@' := by
  cases h with
  | plain hhead => exact ⟨rfl,hhead⟩
  | tagged =>
    simp only [List.cons_append, List.length_cons, List.length_append] at hle
    omega

theorem Sourced.length_le {source : Option (List Char)} (h : Sourced text source rest) :
    (renderSource source).length + rest.length ≤ text.length := by
  cases h with
  | plain => simp [renderSource]
  | named _ hgap =>
    have hpos := List.length_pos_of_ne_nil hgap.1
    simp only [renderSource, List.cons_append, List.length_cons, List.length_append,
      List.length_nil]
    omega

theorem Params.length_le {params : List (List Char)} (h : Params rest params) :
    (renderParams params).length ≤ rest.length := by
  induction h with
  | done => exact Nat.zero_le _
  | trailing hgap =>
    have hpos := List.length_pos_of_ne_nil hgap.1
    rw [renderParams]
    split <;> simp only [List.length_cons, List.length_append] <;> omega
  | @word gap param rest params hgap hparam hhead _ ih =>
    have hpos := List.length_pos_of_ne_nil hgap.1
    have hplain : renderParams (param :: params) = ' ' :: param ++ renderParams params := by
      have hcolon : needsColon param = false := by
        simp [needsColon, hparam.1, hparam.2, hhead]
      cases params with
      | nil => simp [renderParams, hcolon]
      | cons q qs => rfl
    rw [hplain]
    simp only [List.cons_append, List.length_cons, List.length_append]
    omega

end

/-! ## What a line can spell -/

section
variable {line rest : List Char} {params : List (List Char)}

theorem Sourced.not_mem {text : List Char} {source : Option (List Char)}
    (h : Sourced text source rest) : ∀ s ∈ source, ' ' ∉ s := by
  cases h with
  | plain => simp
  | named hsource => simpa using hsource

/-- Only the last parameter can be empty, hold spaces or start with a colon. -/
theorem Params.middle (h : Params rest params) :
    ∀ q ∈ params.dropLast, q ≠ [] ∧ ' ' ∉ q ∧ q.head? ≠ some ':' := by
  induction h with
  | done | trailing => simp
  | @word gap param rest params hgap hparam hhead _ ih =>
    cases params with
    | nil => simp
    | cons p ps =>
      rw [List.dropLast_cons_cons, List.forall_mem_cons]
      exact ⟨⟨hparam.1,hparam.2,hhead⟩,ih⟩

theorem upper_eq_self_iff {cs : List Char} : upper cs = cs ↔ ∀ c ∈ cs, c.isLower = false := by
  constructor
  · intro h c hc
    rw [← h, upper, List.mem_map] at hc
    obtain ⟨d,_,rfl⟩ := hc
    exact Char.isLower_toUpper_eq_false d
  · intro h
    refine (List.map_congr_left fun c hc => ?_).trans (List.map_id cs)
    exact Char.toUpper_eq_of_not_isLower (by simp [h c hc])

theorem upper_upper (cs : List Char) : upper (upper cs) = upper cs := by
  simp [upper]

/-- No other character becomes one that is not a letter. -/
theorem toUpper_eq_iff {c d : Char} (hd : d.isAlpha = false) : c.toUpper = d ↔ c = d := by
  by_cases hlower : c.isLower = true
  · have halpha : c.isAlpha = true := by simp [Char.isAlpha, hlower]
    constructor
    · rintro rfl
      rw [Char.isAlpha_toUpper_eq_isAlpha, halpha] at hd
      cases hd
    · rintro rfl
      rw [halpha] at hd
      cases hd
  · rw [Char.toUpper_eq_of_not_isLower hlower]

theorem upper_word {cs : List Char} (h : Word cs) : Word (upper cs) := by
  refine ⟨by simpa [upper] using h.1,?_⟩
  intro hmem
  obtain ⟨c,hc,hup⟩ := List.mem_map.mp hmem
  rw [toUpper_eq_iff (by decide)] at hup
  exact h.2 (hup ▸ hc)

end

/-! ## Reading back -/

variable {m : Message}

theorem render_length (m : Message) :
    m.render.length = (renderSource (m.source.map String.toList)).length +
      m.command.toList.length + (renderParams (m.params.map String.toList)).length := by
  simp only [render, List.length_append]

/-- A message whose own text spells it can be told from the text. -/
theorem writable_of_spells (h : Spells m.render m) : m.Writable := by
  generalize hline : m.render = line at h
  cases h with
  | @mk body text command rest source params htrim htags hsource hcommand hparams =>
    have hrender := render_length
      ⟨source.map String.ofList,String.ofList (upper command),params.map String.ofList⟩
    simp only [hline, Option.map_map, List.map_map, Function.comp_def, String.toList_ofList,
      Option.map_id', List.map_id'] at hrender
    -- what is written is as long as what was read, so nothing was taken away
    have hlen : line.length ≤ text.length := by
      have hs := hsource.length_le
      have hp := hparams.length_le
      rw [hrender, upper, List.length_map]
      rw [List.length_append] at hs
      omega
    obtain ⟨rfl,hends⟩ := htrim.of_length (hlen.trans htags.length_le)
    obtain ⟨rfl,hat⟩ := htags.of_length hlen
    have hupper := upper_word hcommand
    refine ⟨?source,?command,?letters,?start,?middle,?last⟩
    case source =>
      rintro s hs
      obtain ⟨cs,hcs,rfl⟩ := Option.map_eq_some_iff.mp hs
      simpa using hsource.not_mem cs hcs
    case command => rwa [String.toList_ofList]
    case letters => simpa using upper_upper command
    case start =>
      intro hnone
      obtain rfl : source = none := by simpa using hnone
      have hhead : text.head? = (upper command).head? := by
        rw [← hline, render]
        simp [renderSource, List.head?_append_of_ne_nil _ hupper.1]
      rw [String.toList_ofList, ← hhead]
      cases hsource with
      | plain hcolon => exact ⟨hat,hcolon⟩
    case middle =>
      intro q hq
      rw [← List.map_dropLast] at hq
      obtain ⟨cs,hcs,rfl⟩ := List.mem_map.mp hq
      simpa using hparams.middle cs hcs
    case last =>
      intro c hc
      have hlast := render_last (m := ⟨source.map String.ofList,String.ofList (upper command),
        params.map String.ofList⟩) (by simpa using hupper.1)
      rw [hline, hc] at hlast
      simpa [isLineEnd] using hends c hlast

/-- A message is read back from its text exactly if its source, if it has one, holds no space; its
command is not empty, holds no space and no letter from `a` to `z`, and without a source does not
start with `@` or `:`; no parameter but the last is empty, holds a space or starts with `:`; and the
last parameter, or the command if there is none, does not end with a line end. -/
theorem parse_text_iff (m : Message) :
    parse? m.text = some m ↔
      (∀ s, m.source = some s → ' ' ∉ s.toList) ∧
      (m.command ≠ "" ∧ (∀ c ∈ m.command.toList, c ≠ ' ' ∧ c.isLower = false) ∧
        (m.source = none →
          m.command.toList.head? ≠ some '@' ∧ m.command.toList.head? ≠ some ':')) ∧
      (∀ q ∈ m.params.dropLast, q ≠ "" ∧ ' ' ∉ q.toList ∧ q.toList.head? ≠ some ':') ∧
      ∀ c, (m.lastParam?.getD m.command).toList.getLast? = some c → c ≠ '\r' ∧ c ≠ '\n' := by
  constructor
  · intro h
    rw [parse?, text, String.toList_ofList, ← spells_iff] at h
    have hw := writable_of_spells h
    have hletters := upper_eq_self_iff.mp hw.letters
    refine ⟨hw.source,⟨?_,?_,hw.start⟩,?_,?_⟩
    · simpa using hw.command.1
    · exact fun c hc => ⟨fun he => hw.command.2 (he ▸ hc),hletters c hc⟩
    · simpa using hw.middle
    · simpa [isLineEnd] using hw.last
  · rintro ⟨hsource,⟨hne,hletters,hstart⟩,hmiddle,hlast⟩
    refine parse_text ⟨hsource,⟨?_,?_⟩,?_,hstart,?_,?_⟩
    · simpa using hne
    · exact fun hspace => (hletters ' ' hspace).1 rfl
    · exact upper_eq_self_iff.mpr fun c hc => (hletters c hc).2
    · simpa using hmiddle
    · simpa [isLineEnd] using hlast

/-- A command that starts with `@` is taken for tags, unless there is a source before it. -/
example :
    parse? (text ⟨none,"@A",["B", ""]⟩) = some ⟨none,"B",[""]⟩ ∧
    parse? (text ⟨some "","@A",["B", ""]⟩) = some ⟨some "","@A",["B", ""]⟩ := by
  decide +kernel

end ChatToken.Message
