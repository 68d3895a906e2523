import ChatToken.Proofs.Yaml.Space
import ChatToken.Yaml.Lexing
import Mathlib.Data.List.TakeWhile

/-! # Lexemes of a text without content

Spaces and comments give no lexemes. At the first other character the text is not taken for an empty
one any more: a tab cannot start a lexeme, and any other white space starts a plain scalar.
-/
namespace ChatToken.Yaml

/-! ## White space as text -/

/-- White space is none of the signs that mean something. -/
theorem beq_of_isBlank {x y : Char} (hx : Text.isBlank x) (hy : Text.isBlank y = false) :
    (x == y) = false := by
  apply beq_false_of_ne
  rintro rfl
  exact Bool.false_ne_true (hy.symm.trans hx)

theorem atMarker_of_isContentless {c : Cursor} (h : isContentless c.rest) {y : Char}
    (hy : Text.isBlank y = false) (hsign : y ≠ '#') : c.atMarker y = false := by
  unfold Cursor.atMarker
  cases hrest : c.rest with
  | nil => simp
  | cons x rest =>
    rw [hrest] at h
    have hx : x ≠ y := by
      rintro rfl
      rcases isContentless_head h with rfl | hwhite
      · exact hsign rfl
      · exact Bool.false_ne_true (hy.symm.trans hwhite)
    simp [hx]

/-- A word of white space ends before a blank or with its line. -/
theorem plainWord_of_isContentless {text : List Char} (h : isContentless text)
    (hsign : text.head? ≠ some '#') :
    ∃ word, plainWord false text = some word ∧ isContentless (text.drop word.length) ∧
      (∀ x, text.head? = some x → isOdd x → word ≠ []) := by
  induction text with
  | nil => exact ⟨[],rfl,h,by simp⟩
  | cons x rest ih =>
    have hx : x ≠ '#' := by simpa using hsign
    have hwhite : Text.isBlank x := (isContentless_head h).resolve_left hx
    by_cases hends : isBlank x || isBreak x
    · refine ⟨[],by simp [plainWord, hends],h,?_⟩
      intro y hy hodd
      obtain rfl : x = y := by simpa using hy
      simp only [isOdd, Bool.and_eq_true, Bool.not_eq_true'] at hodd
      simp [hodd] at hends
    · have hodd : isOdd x := by
        simp only [Bool.or_eq_true, not_or, Bool.not_eq_true] at hends
        simp [isOdd, hwhite, hends]
      obtain ⟨word,hword,hrest,_⟩ := ih (isContentless_tail h hx) (isContentless_odd h hodd)
      have hcolon : (x == ':') = false := beq_of_isBlank hwhite (by decide)
      refine ⟨x :: word,?_,by simpa using hrest,by simp⟩
      simp [plainWord, hends, hcolon, hword]

theorem gap_of_isContentless (during : Activity) (start : Mark) (room : Nat) (g : Gap) {c : Cursor}
    (h : isContentless c.rest) :
    ∃ g' c', gap 0 during start room g c = .ok (g', c') ∧ isContentless c'.rest := by
  induction room generalizing g c with
  | zero => exact ⟨g,c,rfl,h⟩
  | succ room ih =>
    unfold gap
    cases hpeek : c.peek with
    | none => exact ⟨g,c,rfl,h⟩
    | some x =>
      obtain ⟨rest,hrest⟩ := List.head?_eq_some_iff.mp hpeek
      cases hblank : isBlank x with
      | true =>
        have hsign : x ≠ '#' := by
          rintro rfl
          exact absurd hblank (by decide)
        have hnext : isContentless (c.advance 1).rest := by
          rw [hrest] at h
          simpa [Cursor.advance, hrest] using isContentless_tail h hsign
        simpa [hblank] using ih _ hnext
      | false =>
        cases hbreak : isBreak x with
        | true =>
          have hnext := (c.skipBreak_rest hrest hbreak).contentless h
          simpa [hblank, hbreak, Cursor.skipBreak] using ih _ hnext
        | false => exact ⟨g,c,by simp [hblank, hbreak],h⟩

/-- In one round a word is read and the white space behind it, if there is a word at all. -/
theorem plainWords_round (start : Mark) (room : Nat) {e : PlainEnd} (g : Gap)
    (h : isContentless e.next.rest) :
    ∃ e', isContentless e'.next.rest ∧
      (e.text ≠ [] ∨ (∃ x, e.next.rest.head? = some x ∧ isOdd x) → e'.text ≠ []) ∧
      (plainWords false 0 start (room + 1) e g = .ok e' ∨
        ∃ g', plainWords false 0 start (room + 1) e g = plainWords false 0 start room e' g') := by
  have hdash := atMarker_of_isContentless h (y := '-') (by decide) (by decide)
  have hdot := atMarker_of_isContentless h (y := '.') (by decide) (by decide)
  rw [plainWords]
  dsimp only
  rw [Cursor.atDocumentMarker, hdash, hdot, Bool.or_self, Bool.false_or]
  by_cases hsign : e.next.looksAt '#'
  · rw [if_pos hsign]
    refine ⟨e,h,?_,.inl rfl⟩
    rintro (htext | ⟨x,hx,hodd⟩)
    · exact htext
    · obtain rfl : x = '#' := by simpa [Cursor.looksAt, Cursor.peek, hx] using hsign
      exact absurd hodd (by decide)
  · rw [if_neg hsign]
    obtain ⟨word,hword,hrest,hodd⟩ := plainWord_of_isContentless h (by
      simpa [Cursor.looksAt, Cursor.peek] using hsign)
    rw [hword]
    dsimp only
    -- what has been read up to the end of the word
    generalize hread : (if word.isEmpty = true then e else _) = read
    have hnext : isContentless read.next.rest := by
      rw [← hread]
      split
      · exact h
      · exact hrest
    have htext : e.text ≠ [] ∨ (∃ x, e.next.rest.head? = some x ∧ isOdd x) → read.text ≠ [] := by
      intro hstart
      rw [← hread]
      split
      · rename_i hempty
        rcases hstart with htext | ⟨x,hx,hx'⟩
        · exact htext
        · exact absurd (by simpa using hempty) (hodd x hx hx')
      · rename_i hempty
        simp [show word ≠ [] by simpa using hempty]
    split
    · obtain ⟨g',c',hgap,hc'⟩ := gap_of_isContentless .plain start
        (e.next.advance word.length).rest.length {} (c := e.next.advance word.length) hrest
      rw [hgap]
      exact ⟨{ read with next := c', broken := g'.broken },hc',htext,.inr ⟨g',rfl⟩⟩
    · exact ⟨read,hnext,htext,.inl rfl⟩

theorem plainWords_of_isContentless (start : Mark) (room : Nat) {e : PlainEnd} (g : Gap)
    (h : isContentless e.next.rest) (htext : e.text ≠ []) :
    ∃ e', plainWords false 0 start room e g = .ok e' ∧ isContentless e'.next.rest ∧
      e'.text ≠ [] := by
  induction room generalizing e g with
  | zero => exact ⟨e,rfl,h,htext⟩
  | succ room ih =>
    obtain ⟨e',hrest,hstill,hdone | ⟨g',hmore⟩⟩ := plainWords_round start room g h
    · exact ⟨e',hdone,hrest,hstill (.inl htext)⟩
    · rw [hmore]
      exact ih g' hrest (hstill (.inl htext))

theorem plainScalar_of_isContentless {c : Cursor} (h : isContentless c.rest) {x : Char}
    (hx : c.rest.head? = some x) (hodd : isOdd x) :
    ∃ e, plainScalar false 0 c = .ok e ∧ isContentless e.next.rest ∧ e.text ≠ [] := by
  unfold plainScalar
  obtain ⟨e,hrest,hstart,hdone | ⟨g,hmore⟩⟩ := plainWords_round c.mark c.rest.length
    (e := ⟨[],c.mark,c,false⟩) {} h
  · exact ⟨e,hdone,hrest,hstart (.inr ⟨x,hx,hodd⟩)⟩
  · rw [hmore]
    exact plainWords_of_isContentless c.mark c.rest.length g hrest (hstart (.inr ⟨x,hx,hodd⟩))

/-! ## One lexeme -/

def Piece.IsText (p : Piece) : Prop := ∃ text, p.lexeme = .scalar text .plain ∧ text ≠ []

/-- Lexemes that no value can be read from: there are none in front of a fault, or text comes
first. -/
def Lexemes.Useless (l : Lexemes) : Prop :=
  (l.pieces = [] ∧ ∃ f, l.ending = .error f) ∨ ∃ p rest, l.pieces = p :: rest ∧ p.IsText

namespace Lexing

/-- No collection is open, nothing has to be a key, and what is left has no content. -/
structure Loose (s : Lexing) : Prop where
  columns : s.columns = []
  outer : s.outer = []
  candidate : ∀ k, s.candidate = some k → k.required = false
  contentless : isContentless s.cursor.rest

structure Skipped (s s' : Lexing) : Prop where
  loose : Loose s'
  pieces : s'.pieces = s.pieces
  stops : ∀ x, s'.cursor.rest.head? = some x → x ≠ ' ' ∧ x ≠ '#' ∧ isBreak x = false
  spaced : s.keyAllowed → s'.keyAllowed ∧ isSpaced s.cursor.rest = s'.cursor.rest.isEmpty

variable {s : Lexing}

theorem Loose.inFlow (h : Loose s) : s.inFlow = false := by
  simp [Lexing.inFlow, h.outer]

theorem skipped_skipSpace (room : Nat) (h : Loose s) (hroom : s.cursor.rest.length < room) :
    Skipped s (skipSpace room s) := by
  induction room generalizing s with
  | zero => omega
  | succ room ih =>
    have hpassed := s.cursor.passed_skip (s.inFlow || !s.keyAllowed)
    unfold skipSpace
    dsimp only
    generalize (s.cursor.skipWhile _).skipComment = c at hpassed ⊢
    have hlength := hpassed.length
    have hcontentless := hpassed.contentless h.contentless
    have hspaced : s.keyAllowed → isSpaced c.rest = isSpaced s.cursor.rest := by
      intro hkey
      exact hpassed.spaced (by rw [h.inFlow, hkey, Bool.not_true, Bool.or_false])
    by_cases hbreak : c.atBreak
    · -- the next line
      obtain ⟨x,rest,hrest,hx⟩ := c.exists_of_atBreak hbreak
      have hended := c.skipBreak_rest hrest hx
      have hshort : c.skipBreak.rest.length < room := by
        have hline := hended.length
        omega
      rw [if_pos hbreak]
      have hnext := ih (s := { s with
          cursor := c.skipBreak, keyAllowed := s.keyAllowed || !s.inFlow })
        ⟨h.columns,h.outer,h.candidate,hended.contentless hcontentless⟩ hshort
      refine ⟨hnext.loose,hnext.pieces,hnext.stops,?_⟩
      intro hkey
      obtain ⟨hstill,hempty⟩ := hnext.spaced (by simp [hkey])
      exact ⟨hstill,(hspaced hkey).symm.trans (hended.spaced.symm.trans hempty)⟩
    · -- nothing, or what starts a lexeme
      rw [if_neg hbreak]
      have hstops : ∀ x, c.rest.head? = some x → x ≠ ' ' ∧ x ≠ '#' ∧ isBreak x = false := by
        intro x hx
        have hnone : isBreak x = false := by
          simpa [Cursor.atBreak, Cursor.peek, hx] using hbreak
        have hother := (hpassed.stops x hx).resolve_left (by simp [hnone])
        exact ⟨hother.1,hother.2,hnone⟩
      refine ⟨⟨h.columns,h.outer,h.candidate,hcontentless⟩,rfl,hstops,?_⟩
      intro hkey
      refine ⟨hkey,?_⟩
      rw [← hspaced hkey]
      change isSpaced c.rest = c.rest.isEmpty
      cases hrest : c.rest with
      | nil => rfl
      | cons x rest =>
        obtain ⟨hspace,hsign,hline⟩ := hstops x (by rw [hrest, List.head?_cons])
        rw [isSpaced_other hline hspace hsign]
        rfl

theorem Loose.renew (h : Loose s) {k : Option Candidate}
    (hk : ∀ k', k = some k' → k'.required = false) : Loose { s with candidate := k } :=
  ⟨h.columns,h.outer,hk,h.contentless⟩

theorem Loose.dropCandidate (h : Loose s) : s.dropCandidate = .ok { s with candidate := none } := by
  unfold Lexing.dropCandidate
  split
  · rename_i k hk
    rw [if_neg (by simp [h.candidate k hk])]
  · rename_i hnone
    rw [← hnone]

theorem Loose.remember (h : Loose s) :
    ∃ k, s.remember = .ok { s with candidate := k } ∧ Loose { s with candidate := k } := by
  unfold Lexing.remember
  by_cases hkey : s.keyAllowed
  · rw [if_pos hkey, h.dropCandidate]
    refine ⟨_,rfl,h.renew ?_⟩
    rintro k ⟨⟩
    simp [margin, h.columns]
  · rw [if_neg hkey]
    exact ⟨s.candidate,rfl,h⟩

theorem Loose.refreshAll (h : Loose s) :
    ∃ k, s.refreshAll = .ok { s with candidate := k } ∧ Loose { s with candidate := k } := by
  have hfresh : ∃ k, s.refresh s.candidate = .ok k ∧ ∀ k', k = some k' → k'.required = false := by
    unfold refresh
    split
    · rename_i k hk
      by_cases hstale : s.isStale k
      · exact ⟨none,by simp [hstale, h.candidate k hk],by simp⟩
      · exact ⟨some k,by simp [hstale],hk ▸ h.candidate⟩
    · exact ⟨none,rfl,by simp⟩
  obtain ⟨k,hk,hfalse⟩ := hfresh
  refine ⟨k,?_,h.renew hfalse⟩
  unfold Lexing.refreshAll
  rw [h.outer, hk]
  rfl

theorem Loose.closeBlocks (h : Loose s) (open_ : Nat → Bool) : s.closeBlocks open_ = s := by
  unfold Lexing.closeBlocks
  rw [h.inFlow, h.columns]
  obtain ⟨cursor,pieces,columns,keyAllowed,candidate,outer⟩ := s
  obtain rfl : columns = [] := h.columns
  simp

theorem Loose.readPlain (h : Loose s) {x : Char} (hx : s.cursor.rest.head? = some x)
    (hodd : isOdd x) :
    ∃ s' p, s.readPlain = .ok s' ∧ Loose s' ∧ s'.pieces = s.pieces ++ [p] ∧ p.IsText := by
  obtain ⟨k,hk,hloose⟩ := h.remember
  obtain ⟨e,he,hrest,htext⟩ := plainScalar_of_isContentless h.contentless hx hodd
  let p : Piece := ⟨.scalar e.text .plain, s.mark, e.stop⟩
  let s' : Lexing := { s with
    cursor := e.next, pieces := s.pieces ++ [p], keyAllowed := e.broken, candidate := k }
  refine ⟨s',p,?_,⟨h.columns,h.outer,hloose.candidate,hrest⟩,rfl,e.text,rfl,htext⟩
  have hplain : plainScalar s.inFlow s.margin s.cursor = .ok e := by
    rw [h.inFlow, margin, h.columns]
    exact he
  unfold Lexing.readPlain
  rw [hk]
  change (plainScalar s.inFlow s.margin s.cursor >>= _) = _
  rw [hplain]
  rfl

/-- A tab cannot start a lexeme, other white space starts a plain scalar. -/
theorem Loose.readLexeme (h : Loose s) {x : Char} (hx : Text.isBlank x) :
    s.readLexeme x =
      if isOdd x then s.readPlain else fault .noToken .token s.cursor.mark s.cursor := by
  have hflow := h.inFlow
  have hdash := atMarker_of_isContentless h.contentless (y := '-') (by decide) (by decide)
  have hdot := atMarker_of_isContentless h.contentless (y := '.') (by decide) (by decide)
  have hsigns : isIndicator x = false := by
    have hnone : "-?:,[]\x7b\x7d#&*!|>'\"%@`".toList.any Text.isBlank = false := by decide
    rw [isIndicator, Bool.eq_false_iff]
    intro hmem
    exact List.any_eq_false.mp hnone x (by simpa using hmem) hx
  unfold Lexing.readLexeme
  simp (disch := decide) [hdash, hdot, beq_of_isBlank hx, startsPlain, hsigns, hflow, endsWord]
  simp [isOdd, hx]

theorem Loose.readEnd (h : Loose s) :
    ∃ s' m, s.readEnd = .ok (s', m) ∧ s'.pieces = s.pieces := by
  unfold Lexing.readEnd
  dsimp only
  generalize (if s.mark.column = 0 then s.mark else _) = m
  have hended : Loose { s with cursor := { s.cursor with mark := m } } :=
    ⟨h.columns,h.outer,h.candidate,h.contentless⟩
  rw [closeAll, hended.closeBlocks, hended.dropCandidate]
  exact ⟨_,m,rfl,rfl⟩

inductive Stepped (s : Lexing) : Except Fault (Lexing × Option Mark) → Prop
  | failed (f : Fault) (spaced : s.keyAllowed → isSpaced s.cursor.rest = false) :
    Stepped s (.error f)
  | ended {s' : Lexing} {m : Mark} (pieces : s'.pieces = s.pieces)
      (spaced : s.keyAllowed → isSpaced s.cursor.rest) : Stepped s (.ok (s', some m))
  | passed {s' : Lexing} {p : Piece} (loose : Loose s') (pieces : s'.pieces = s.pieces ++ [p])
      (text : p.IsText) (spaced : s.keyAllowed → isSpaced s.cursor.rest = false) :
    Stepped s (.ok (s', none))

theorem stepped (h : Loose s) : Stepped s s.step := by
  have hskipped := skipped_skipSpace (s.cursor.rest.length + 1) h (by omega)
  unfold step
  generalize skipSpace (s.cursor.rest.length + 1) s = skipped at hskipped ⊢
  obtain ⟨k,hk,hloose⟩ := hskipped.loose.refreshAll
  rw [hk]
  simp only [bind, Except.bind, closeRightOf, hloose.closeBlocks]
  cases hpeek : skipped.cursor.rest with
  | nil =>
    obtain ⟨s',m,hend,hpieces⟩ := hloose.readEnd
    rw [Cursor.peek, hpeek, List.head?_nil]
    dsimp only
    rw [hend]
    refine .ended (hpieces.trans hskipped.pieces) ?_
    intro hkey
    rw [(hskipped.spaced hkey).2, hpeek]
    rfl
  | cons x rest =>
    have hhead : skipped.cursor.rest.head? = some x := by rw [hpeek, List.head?_cons]
    have hspaced : s.keyAllowed → isSpaced s.cursor.rest = false := by
      intro hkey
      rw [(hskipped.spaced hkey).2, hpeek]
      rfl
    have hcontentless := hskipped.loose.contentless
    rw [hpeek] at hcontentless
    have hwhite : Text.isBlank x :=
      (isContentless_head hcontentless).resolve_left (hskipped.stops x hhead).2.1
    rw [Cursor.peek, hhead]
    dsimp only
    rw [hloose.readLexeme hwhite]
    cases hodd : isOdd x with
    | false => exact .failed _ hspaced
    | true =>
      obtain ⟨s',p,hread,hloose',hpieces,htext⟩ := hloose.readPlain hhead hodd
      rw [if_pos rfl, hread]
      refine .passed hloose' ?_ htext hspaced
      rw [hpieces]
      exact congrArg (· ++ [p]) hskipped.pieces

/-! ## All lexemes -/

/-- Text that comes first stays there, unless a fault is noticed before it is settled. -/
theorem useless_of_text (room : Nat) {p : Piece} {rest : List Piece} (h : Loose s)
    (hpieces : s.pieces = p :: rest) (hp : p.IsText) : (run room s).Useless := by
  induction room generalizing s rest with
  | zero => exact .inr ⟨p,rest,hpieces,hp⟩
  | succ room ih =>
    have hstep := stepped h
    unfold run
    generalize s.step = r at hstep
    cases hstep with
    | failed f =>
      change Lexemes.Useless ⟨s.pieces.take _, .error f⟩
      generalize ((s.candidate :: s.outer).filterMap _).foldl min s.pieces.length = count
      rw [hpieces]
      cases count with
      | zero => exact .inl ⟨rfl,f,rfl⟩
      | succ count => exact .inr ⟨p,rest.take count,rfl,hp⟩
    | ended hkept => exact .inr ⟨p,rest,hkept.trans hpieces,hp⟩
    | passed hloose hadded =>
      rw [hpieces] at hadded
      exact ih hloose hadded

theorem run_of_isContentless (h : Loose s) (hpieces : s.pieces = []) (hkey : s.keyAllowed)
    (room : Nat) :
    (isSpaced s.cursor.rest → ∃ m, run (room + 1) s = ⟨[], .ok m⟩) ∧
    (isSpaced s.cursor.rest = false → (run (room + 1) s).Useless) := by
  have hstep := stepped h
  unfold run
  generalize s.step = r at hstep
  cases hstep with
  | failed f hspaced =>
    refine ⟨?_,?_⟩
    · intro h
      simp [hspaced hkey] at h
    · intro _
      refine .inl ⟨?_,f,rfl⟩
      simp [settled, hpieces]
  | ended hkept hspaced =>
    refine ⟨?_,?_⟩
    · intro _
      exact ⟨_,congrArg (Lexemes.mk · _) (hkept.trans hpieces)⟩
    · intro h
      simp [hspaced hkey] at h
  | passed hloose hadded htext hspaced =>
    refine ⟨?_,?_⟩
    · intro h
      simp [hspaced hkey] at h
    · intro _
      rw [hpieces, List.nil_append] at hadded
      exact useless_of_text room hloose hadded htext

end Lexing

/-- Without a character that may not stand in a text, and with no other white space than spaces and
line ends outside its comments, a text without content has no lexemes at all. -/
theorem Lexemes.ofChars_of_isContentless {text : List Char} (h : isContentless text) :
    (isSpaced text ∧ text.all isPrintable → ∃ m, ofChars text = ⟨[], .ok m⟩) ∧
    (¬ (isSpaced text ∧ text.all isPrintable) → (ofChars text).Useless) := by
  by_cases hprintable : text.all isPrintable
  · have hnone : text.dropWhile isPrintable = [] :=
      List.dropWhile_eq_nil_iff.mpr (List.all_eq_true.mp hprintable)
    have hmark : ({ rest := text } : Cursor).looksAt '\ufeff' = false := by
      unfold Cursor.looksAt Cursor.peek
      cases text with
      | nil => rfl
      | cons x rest =>
        rcases isContentless_head h with rfl | hwhite
        · rfl
        · simpa using beq_of_isBlank hwhite (y := '\ufeff') (by decide)
    have hstart : Lexing.Loose { cursor := { rest := text } } := ⟨rfl,rfl,by simp,h⟩
    have hrun := Lexing.run_of_isContentless hstart rfl rfl text.length
    unfold ofChars
    rw [hnone]
    dsimp only
    rw [hmark]
    simpa [hprintable] using hrun
  · refine ⟨fun hboth => absurd hboth.2 hprintable,fun _ => ?_⟩
    unfold ofChars
    split
    · rename_i hnone
      exact absurd (List.all_eq_true.mpr (List.dropWhile_eq_nil_iff.mp hnone)) hprintable
    · exact .inl ⟨rfl,_,rfl⟩

end ChatToken.Yaml
