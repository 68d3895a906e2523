import ChatToken.Yaml.Contentless

/-! # Passing over white space

In front of a lexeme the spaces, the comments and the line ends are passed, and tabs too where no
key may start. What is left of a text without content has none either. If it was spaced, nothing is
left.
-/
namespace ChatToken.Yaml

section Rest

variable {text : List Char} {p : Char → Bool}

theorem isContentless_dropWhile (hp : p '#' = false) (h : isContentless text) :
    isContentless (text.dropWhile p) := by
  induction text with
  | nil => exact h
  | cons x rest ih =>
    cases hx : p x with
    | true =>
      have hsign : x ≠ '#' := by
        rintro rfl
        exact Bool.false_ne_true (hp.symm.trans hx)
      simpa [hx] using ih (isContentless_tail h hsign)
    | false => simpa [hx] using h

theorem isContentless_behindLine (h : isContentless text) : isContentless (behindLine text) := by
  induction text with
  | nil => exact h
  | cons x rest ih =>
    cases hx : isBreak x with
    | true => simpa [behindLine, hx] using h
    | false =>
      have hline : behindLine (x :: rest) = behindLine rest := by simp [behindLine, hx]
      rw [hline]
      by_cases hsign : x = '#'
      · rwa [hsign, isContentless_comment] at h
      · exact ih (isContentless_tail h hsign)

theorem isSpaced_dropWhile (hp : ∀ x, p x → x = ' ') (text : List Char) :
    isSpaced (text.dropWhile p) = isSpaced text := by
  induction text with
  | nil => rfl
  | cons x rest ih =>
    cases hx : p x with
    | true =>
      rw [List.dropWhile_cons, if_pos hx, ih, hp x hx, isSpaced_space]
    | false => simp [hx]

theorem head?_dropWhile {x : Char} (h : (text.dropWhile p).head? = some x) : p x = false := by
  have hhead := List.head?_dropWhile_not p text
  rw [h] at hhead
  simpa using hhead

def behindSpace (tabs : Bool) (text : List Char) : List Char :=
  let rest := text.dropWhile fun x => x == ' ' || tabs && x == '\t'
  if rest.head? = some '#' then behindLine rest else rest

theorem length_behindSpace (tabs : Bool) (text : List Char) :
    (behindSpace tabs text).length ≤ text.length := by
  have hspace := (List.dropWhile_suffix (fun x => x == ' ' || tabs && x == '\t')
    (l := text)).length_le
  unfold behindSpace
  dsimp only
  split
  · exact Nat.le_trans (List.dropWhile_suffix _).length_le hspace
  · exact hspace

theorem isContentless_behindSpace (tabs : Bool) (h : isContentless text) :
    isContentless (behindSpace tabs text) := by
  have hspace : isContentless (text.dropWhile fun x => x == ' ' || tabs && x == '\t') :=
    isContentless_dropWhile (by cases tabs <;> decide) h
  unfold behindSpace
  dsimp only
  split
  · exact isContentless_behindLine hspace
  · exact hspace

theorem isSpaced_behindSpace (text : List Char) :
    isSpaced (behindSpace false text) = isSpaced text := by
  have hspace : isSpaced (text.dropWhile fun x => x == ' ' || false && x == '\t') = isSpaced text :=
    isSpaced_dropWhile (by simp) text
  rw [← hspace]
  unfold behindSpace
  dsimp only
  generalize (text.dropWhile fun x => x == ' ' || false && x == '\t') = rest
  split
  · rename_i hsign
    cases rest with
    | nil => rfl
    | cons x rest =>
      obtain rfl : x = '#' := by simpa using hsign
      rw [isSpaced_comment]
      rfl
  · rfl

/-- A line ends there, or something starts that is neither a space nor a comment. -/
theorem head?_behindSpace {tabs : Bool} {x : Char} (h : (behindSpace tabs text).head? = some x) :
    isBreak x ∨ x ≠ ' ' ∧ x ≠ '#' := by
  unfold behindSpace at h
  dsimp only at h
  split at h
  · left
    simpa using head?_dropWhile h
  · rename_i hsign
    have hspace := head?_dropWhile h
    refine .inr ⟨?_,?_⟩
    · rintro rfl
      simp at hspace
    · rintro rfl
      exact hsign h

/-- From `text` to `rest` spaces and a comment are passed, and tabs too if they count as spaces. -/
structure Passed (tabs : Bool) (text rest : List Char) : Prop where
  length : rest.length ≤ text.length
  contentless : isContentless text → isContentless rest
  spaced : tabs = false → isSpaced rest = isSpaced text
  stops : ∀ x, rest.head? = some x → isBreak x ∨ x ≠ ' ' ∧ x ≠ '#'

theorem passed_behindSpace (tabs : Bool) (text : List Char) :
    Passed tabs text (behindSpace tabs text) := by
  refine ⟨length_behindSpace tabs text,isContentless_behindSpace tabs,?_,?_⟩
  · rintro rfl
    exact isSpaced_behindSpace text
  · intro x hx
    exact head?_behindSpace hx

end Rest

namespace Cursor

variable (c : Cursor)

theorem skipWhile_rest (p : Char → Bool) : (c.skipWhile p).rest = c.rest.dropWhile p := by
  have hsplit : c.rest.takeWhile p ++ c.rest.dropWhile p = c.rest := List.takeWhile_append_dropWhile
  calc c.rest.drop (c.rest.takeWhile p).length
      = (c.rest.takeWhile p ++ c.rest.dropWhile p).drop (c.rest.takeWhile p).length := by
        rw [hsplit]
    _ = c.rest.dropWhile p := List.drop_left

theorem skipComment_rest :
    c.skipComment.rest = if c.rest.head? = some '#' then behindLine c.rest else c.rest := by
  unfold skipComment looksAt peek
  by_cases h : c.rest.head? = some '#'
  · simp [h, skipWhile_rest, behindLine]
  · simp [h]

theorem exists_of_atBreak (h : c.atBreak) : ∃ x rest, c.rest = x :: rest ∧ isBreak x := by
  unfold atBreak peek at h
  cases hrest : c.rest with
  | nil => simp [hrest] at h
  | cons x rest => exact ⟨x,rest,rfl,by simpa [hrest] using h⟩

structure Ended (text rest : List Char) : Prop where
  length : rest.length < text.length
  contentless : isContentless text → isContentless rest
  spaced : isSpaced rest = isSpaced text

theorem ended_cons {x : Char} (rest : List Char) (hx : isBreak x) : Ended (x :: rest) rest := by
  have hsign : x ≠ '#' := by
    rintro rfl
    exact absurd hx (by decide)
  exact ⟨by simp,fun h => isContentless_tail h hsign,(isSpaced_break hx).symm⟩

/-- A line end is one sign, or two that each would be one. -/
theorem skipBreak_rest {x : Char} {rest : List Char} (h : c.rest = x :: rest) (hx : isBreak x) :
    Ended c.rest c.skipBreak.rest := by
  have hone := ended_cons rest hx
  unfold skipBreak takeBreak
  rw [h]
  split
  · rename_i behind heq
    obtain ⟨rfl,rfl⟩ := List.cons_eq_cons.mp heq
    have htwo : Ended ('\n' :: behind) behind := ended_cons behind (by decide)
    exact ⟨Nat.lt_trans htwo.length hone.length,htwo.contentless ∘ hone.contentless,
      htwo.spaced.trans hone.spaced⟩
  · exact hone
  · exact hone
  · rename_i heq
    obtain ⟨rfl,rfl⟩ := List.cons_eq_cons.mp heq
    rw [if_pos hx]
    exact hone
  · rename_i heq
    exact absurd heq (List.cons_ne_nil _ _)

theorem passed_skip (tabs : Bool) :
    Passed tabs c.rest (c.skipWhile fun x => x == ' ' || tabs && x == '\t').skipComment.rest := by
  rw [skipComment_rest, skipWhile_rest]
  exact passed_behindSpace tabs c.rest

end Cursor

end ChatToken.Yaml
