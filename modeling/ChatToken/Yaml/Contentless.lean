import ChatToken.Text.Blank
import ChatToken.Yaml.Cursor

/-! # Texts without content

A text has no content if each of its lines is white space or a comment. What counts as white space
is wider than what YAML passes over: it knows spaces, and tabs where no key may start, and takes any
other white space for text.
-/
namespace ChatToken.Yaml

def isBareLine (white indent : Char → Bool) (line : List Char) : Bool :=
  line.all white || (line.dropWhile indent).head? == some '#'

def isBare (white indent : Char → Bool) (text : List Char) : Bool :=
  (text.splitOnP isBreak).all (isBareLine white indent)

def isContentless (text : List Char) : Bool := isBare Text.isBlank isBlank text

def isSpaced (text : List Char) : Bool := isBare (· == ' ') (· == ' ') text

def behindLine (text : List Char) : List Char := text.dropWhile fun c => !isBreak c

theorem isBlank_of_isBreak {c : Char} (h : isBreak c) : Text.isBlank c := by
  simp only [isBreak, Bool.or_eq_true, beq_iff_eq] at h
  rcases h with (((rfl | rfl) | rfl) | rfl) | rfl <;> decide

theorem text_isBlank_of_isBlank {c : Char} (h : isBlank c) : Text.isBlank c := by
  simp only [isBlank, Bool.or_eq_true, beq_iff_eq] at h
  rcases h with rfl | rfl <;> decide

/-! ## Line by line -/

section Lines

variable {white indent : Char → Bool} {x : Char} {rest : List Char}

/-- A character that ends no line belongs to the first one. -/
theorem exists_line (hx : isBreak x = false) (rest : List Char) :
    ∃ line more, rest.splitOnP isBreak = line :: more ∧
      (x :: rest).splitOnP isBreak = (x :: line) :: more := by
  obtain ⟨line,more,hlines⟩ := List.exists_cons_of_ne_nil (List.splitOnP_ne_nil isBreak rest)
  refine ⟨line,more,hlines,?_⟩
  rw [List.splitOnP_cons_eq_if_modifyHead, hx, hlines]
  rfl

theorem isBare_break (hx : isBreak x) :
    isBare white indent (x :: rest) = isBare white indent rest := by
  simp [isBare, List.splitOnP_cons_eq_if_modifyHead, hx, isBareLine]

theorem isBare_indent (hx : isBreak x = false) (hindent : indent x) (hwhite : white x) :
    isBare white indent (x :: rest) = isBare white indent rest := by
  obtain ⟨line,more,hrest,hlines⟩ := exists_line hx rest
  simp [isBare, hrest, hlines, isBareLine, hindent, hwhite]

theorem splitOnP_behindLine (text : List Char) :
    (behindLine text).splitOnP isBreak = [] :: (text.splitOnP isBreak).tail := by
  induction text with
  | nil => rfl
  | cons x rest ih =>
    cases hx : isBreak x with
    | true => simp [behindLine, List.splitOnP_cons_eq_if_modifyHead, hx]
    | false =>
      obtain ⟨line,more,hrest,hlines⟩ := exists_line hx rest
      rw [hlines, List.tail_cons]
      rw [hrest, List.tail_cons] at ih
      simpa [behindLine, hx] using ih

/-- Behind its sign a comment may hold anything. -/
theorem isBare_comment (hindent : indent '#' = false) :
    isBare white indent ('#' :: rest) = isBare white indent (behindLine rest) := by
  obtain ⟨line,more,hrest,hlines⟩ := exists_line (x := '#') (by decide) rest
  have hbehind := splitOnP_behindLine rest
  rw [hrest, List.tail_cons] at hbehind
  simp [isBare, hlines, hbehind, isBareLine, hindent]

/-- White space that does not indent leaves no room for a comment. -/
theorem isBare_white (hx : isBreak x = false) (hindent : indent x = false) (hsign : x ≠ '#')
    (h : isBare white indent (x :: rest)) :
    white x ∧ isBare white indent rest ∧ (white '#' = false → rest.head? ≠ some '#') := by
  obtain ⟨line,more,hrest,hlines⟩ := exists_line hx rest
  rw [isBare, hlines, List.all_cons, Bool.and_eq_true] at h
  have hline : white x ∧ line.all white := by simpa [isBareLine, hindent, hsign] using h.1
  refine ⟨hline.1,?_,?_⟩
  · rw [isBare, hrest, List.all_cons, Bool.and_eq_true]
    exact ⟨by rw [isBareLine, hline.2, Bool.true_or],h.2⟩
  · intro hwhite hhead
    obtain ⟨behind,rfl⟩ : ∃ behind, rest = '#' :: behind := by
      cases rest with
      | nil => simp at hhead
      | cons y ys => exact ⟨ys,by simpa using hhead⟩
    obtain ⟨first,others,_,hsplit⟩ := exists_line (x := '#') (by decide) behind
    obtain ⟨rfl,rfl⟩ := List.cons_eq_cons.mp (hrest.symm.trans hsplit)
    simp [hwhite] at hline

end Lines

/-! ## Texts without content -/

section Contentless

variable {x : Char} {rest : List Char}

theorem isContentless_head (h : isContentless (x :: rest)) : x = '#' ∨ Text.isBlank x := by
  by_cases hsign : x = '#'
  · exact .inl hsign
  right
  cases hbreak : isBreak x with
  | true => exact isBlank_of_isBreak hbreak
  | false =>
    cases hblank : isBlank x with
    | true => exact text_isBlank_of_isBlank hblank
    | false => exact (isBare_white hbreak hblank hsign h).1

theorem isContentless_tail (h : isContentless (x :: rest)) (hsign : x ≠ '#') :
    isContentless rest := by
  unfold isContentless at h ⊢
  cases hbreak : isBreak x with
  | true => rwa [isBare_break hbreak] at h
  | false =>
    cases hblank : isBlank x with
    | true => rwa [isBare_indent hbreak hblank (text_isBlank_of_isBlank hblank)] at h
    | false => exact (isBare_white hbreak hblank hsign h).2.1

theorem isContentless_comment : isContentless ('#' :: rest) = isContentless (behindLine rest) :=
  isBare_comment (by decide)

/-- White space that YAML takes for text. -/
def isOdd (x : Char) : Bool := Text.isBlank x && !isBlank x && !isBreak x

/-- No comment stands right behind white space that YAML takes for text. -/
theorem isContentless_odd (h : isContentless (x :: rest)) (hx : isOdd x) :
    rest.head? ≠ some '#' := by
  obtain ⟨⟨hwhite,hblank⟩,hbreak⟩ : (Text.isBlank x ∧ isBlank x = false) ∧ isBreak x = false := by
    simpa [isOdd] using hx
  have hsign : x ≠ '#' := by
    rintro rfl
    exact absurd hwhite (by decide)
  exact (isBare_white hbreak hblank hsign h).2.2 (by decide)

theorem isSpaced_break (hx : isBreak x) : isSpaced (x :: rest) = isSpaced rest := isBare_break hx

theorem isSpaced_space : isSpaced (' ' :: rest) = isSpaced rest :=
  isBare_indent (by decide) (by decide) (by decide)

theorem isSpaced_comment : isSpaced ('#' :: rest) = isSpaced (behindLine rest) :=
  isBare_comment (by decide)

theorem isSpaced_other (hbreak : isBreak x = false) (hspace : x ≠ ' ') (hsign : x ≠ '#') :
    isSpaced (x :: rest) = false := by
  rw [Bool.eq_false_iff]
  intro h
  have hindent : (x == ' ') = false := beq_false_of_ne hspace
  exact hspace (beq_iff_eq.mp (isBare_white hbreak hindent hsign h).1)

end Contentless

end ChatToken.Yaml
