/-! # White space

The characters with the Unicode property `White_Space`.
-/
namespace ChatToken.Text

def isBlank (c : Char) : Bool :=
  '\t' ≤ c && c ≤ '\r' || c == ' ' || c == '\u0085' || c == '\u00a0' || c == '\u1680' ||
    '\u2000' ≤ c && c ≤ '\u200a' || c == '\u2028' || c == '\u2029' || c == '\u202f' ||
    c == '\u205f' || c == '\u3000'

theorem isBlank_of_isWhitespace {c : Char} (h : c.isWhitespace) : isBlank c := by
  simp only [Char.isWhitespace, Bool.or_eq_true, decide_eq_true_eq] at h
  rcases h with ((rfl | rfl) | rfl) | rfl <;> decide

def isBlankText (cs : List Char) : Bool := cs.all isBlank

end ChatToken.Text
