import ChatToken.Message.Grammar
import ChatToken.Proofs.Message.RoundTrip
import Mathlib.Data.List.DropRight

/-! # Lines are read by their grammar

Every step of the reading cuts a line in one way, and that is the way in which the grammar cuts it.
So a line is read as a message exactly if it spells it, and its tags do not matter.
-/
namespace ChatToken.Message

/-! ## Spaces and words -/

section
variable {cs rest : List Char}

theorem Gap.head? (h : Gap cs) : cs.head? = some ' ' := by
  obtain ⟨hne,hblank⟩ := h
  cases cs with
  | nil => exact absurd rfl hne
  | cons c cs => rw [hblank c List.mem_cons_self]; rfl

theorem gap_cons (h : Blank cs) : Gap (' ' :: cs) :=
  ⟨List.cons_ne_nil _ _,List.forall_mem_cons.mpr ⟨rfl,h⟩⟩

theorem blank_takeWhile (cs : List Char) : Blank (cs.takeWhile (· == ' ')) := by
  intro c hc
  simpa using List.mem_takeWhile_imp hc

theorem skipSpaces_append (h : Blank cs) (hr : rest.head? ≠ some ' ') :
    skipSpaces (cs ++ rest) = rest := by
  have hcs : ∀ c ∈ cs, (c == ' ') = true := fun c hc => beq_iff_eq.mpr (h c hc)
  rw [skipSpaces, List.dropWhile_append_of_pos hcs]
  exact skipSpaces_of_head hr

theorem skipSpaces_head (cs : List Char) : (skipSpaces cs).head? ≠ some ' ' := by
  intro h
  have hnot := List.head?_dropWhile_not (· == ' ') cs
  rw [← skipSpaces, h] at hnot
  simp at hnot

theorem takeWhile_append_skipSpaces (cs : List Char) :
    cs.takeWhile (· == ' ') ++ skipSpaces cs = cs := List.takeWhile_append_dropWhile

theorem not_mem_word (cs : List Char) : ' ' ∉ word cs := by
  intro h
  simpa using List.mem_takeWhile_imp h

theorem afterWord_head (cs : List Char) : ∀ c ∈ (afterWord cs).head?, c = ' ' := by
  intro c hc
  have hnot := List.head?_dropWhile_not (· != ' ') cs
  rw [← afterWord, hc] at hnot
  simpa using hnot

theorem word_append_afterWord (cs : List Char) : word cs ++ afterWord cs = cs :=
  List.takeWhile_append_dropWhile

/-- What is left behind a word starts with the spaces that end it. -/
theorem exists_gap_afterWord (h : afterWord cs ≠ []) :
    ∃ gap, Gap gap ∧ afterWord cs = gap ++ skipSpaces (afterWord cs) := by
  refine ⟨(afterWord cs).takeWhile (· == ' '),⟨?_,blank_takeWhile _⟩,
    (takeWhile_append_skipSpaces _).symm⟩
  have hhead := afterWord_head cs
  cases ha : afterWord cs with
  | nil => exact absurd ha h
  | cons c tail =>
    rw [ha] at hhead
    obtain rfl := hhead c rfl
    simp

/-- A word is cut off in front of the spaces that end it. -/
theorem word_append_gap {gap : List Char} (h : ' ' ∉ cs) (hgap : Gap gap)
    (hr : rest.head? ≠ some ' ') :
    word (cs ++ gap ++ rest) = cs ∧ afterWord (cs ++ gap ++ rest) = gap ++ rest ∧
      gap ++ rest ≠ [] ∧ skipSpaces (gap ++ rest) = rest := by
  have hne : gap ++ rest ≠ [] := by simp [hgap.1]
  have hhead : ∀ c ∈ (gap ++ rest).head?, c = ' ' := by
    rw [List.head?_append_of_ne_nil _ hgap.1, hgap.head?]
    simp
  obtain ⟨hw,ha⟩ := word_append h hhead
  rw [List.append_assoc]
  exact ⟨hw,ha,hne,skipSpaces_append hgap.2 hr⟩

end

/-! ## One step each -/

section
variable {line body text rest : List Char}

theorem isLineEnd_iff {c : Char} : isLineEnd c = true ↔ c = '\r' ∨ c = '\n' := by
  simp [isLineEnd]

theorem trimmed_iff : Trimmed line body ↔ skipSpaces (dropLineEnd line) = body := by
  constructor
  · rintro ⟨hblanks,hends,hhead,hlast⟩
    rename_i blanks ends
    have hdrop : dropLineEnd (blanks ++ body ++ ends) = dropLineEnd (blanks ++ body) := by
      have hrev : ∀ c ∈ ends.reverse, isLineEnd c = true :=
        fun c hc => isLineEnd_iff.mpr (hends c (List.mem_reverse.mp hc))
      rw [dropLineEnd, List.reverse_append, List.dropWhile_append_of_pos hrev, dropLineEnd]
    have hkeep : dropLineEnd (blanks ++ body) = blanks ++ body :=
      dropLineEnd_of_last fun c hc => by simpa [isLineEnd] using hlast c hc
    rw [hdrop, hkeep, skipSpaces_append hblanks hhead]
  · rintro rfl
    have hcut : dropLineEnd line ++ line.rtakeWhile isLineEnd = line :=
      List.rdropWhile_append_rtakeWhile ..
    have hsplit := takeWhile_append_skipSpaces (dropLineEnd line)
    have htrim : Trimmed ((dropLineEnd line).takeWhile (· == ' ') ++
        skipSpaces (dropLineEnd line) ++ line.rtakeWhile isLineEnd)
        (skipSpaces (dropLineEnd line)) := by
      refine .mk (blank_takeWhile _) ?_ (skipSpaces_head _) ?_
      · exact fun c hc => isLineEnd_iff.mp (List.mem_rtakeWhile_imp hc)
      · rw [hsplit]
        intro c hc
        have hne : dropLineEnd line ≠ [] := by
          intro he
          simp [he] at hc
        have hnot : ¬ isLineEnd ((dropLineEnd line).getLast hne) :=
          List.rdropWhile_last_not isLineEnd line hne
        rw [List.getLast?_eq_some_getLast hne, Option.mem_some] at hc
        rw [hc, isLineEnd_iff, not_or] at hnot
        exact hnot
    rwa [hsplit, hcut] at htrim

/-- A text either starts with the character `c`, or it does not. -/
theorem head?_ne_of_forall {c : Char} (h : ∀ cs, text = c :: cs → False) :
    text.head? ≠ some c := by
  intro he
  cases text with
  | nil => cases he
  | cons d cs =>
    cases he
    exact h cs rfl

theorem untagged_iff : Untagged body text ↔ skipTags body = some text := by
  constructor
  · rintro (⟨hhead⟩ | ⟨htags,hgap,hrest⟩)
    · exact skipTags_of_head hhead
    · obtain ⟨_,ha,hne,hskip⟩ := word_append_gap htags hgap hrest
      rw [List.append_assoc, List.cons_append, ← List.append_assoc, skipTags, ha]
      split
      · contradiction
      · rw [hskip]
  · intro h
    unfold skipTags at h
    split at h
    · next tags =>
      split at h
      · cases h
      · next hne =>
        cases h
        obtain ⟨gap,hgap,hcut⟩ := exists_gap_afterWord hne
        have hbody : '@' :: tags = '@' :: word tags ++ gap ++ skipSpaces (afterWord tags) := by
          rw [List.append_assoc, ← hcut, List.cons_append, word_append_afterWord]
        rw [hbody]
        exact .tagged (not_mem_word tags) hgap (skipSpaces_head _)
    · next hhead =>
      cases h
      exact .plain (head?_ne_of_forall hhead)

theorem sourced_iff {source : Option (List Char)} :
    Sourced text source rest ↔ takeSource text = some (source, rest) := by
  constructor
  · rintro (⟨hhead⟩ | ⟨hsource,hgap,hrest⟩)
    · exact takeSource_of_head hhead
    · obtain ⟨hw,ha,hne,hskip⟩ := word_append_gap hsource hgap hrest
      rw [List.append_assoc, List.cons_append, ← List.append_assoc, takeSource, ha, hw]
      split
      · contradiction
      · rw [hskip]
  · intro h
    unfold takeSource at h
    split at h
    · next named =>
      split at h
      · cases h
      · next hne =>
        cases h
        obtain ⟨gap,hgap,hcut⟩ := exists_gap_afterWord hne
        have htext : ':' :: named = ':' :: word named ++ gap ++ skipSpaces (afterWord named) := by
          rw [List.append_assoc, ← hcut, List.cons_append, word_append_afterWord]
        rw [htext]
        exact .named (not_mem_word named) hgap (skipSpaces_head _)
    · next hhead =>
      cases h
      exact .plain (head?_ne_of_forall hhead)

end

/-! ## Parameters -/

section
variable {cs rest : List Char} {params : List (List Char)}

theorem readParams_blank (h : Blank cs) : readParams [] (cs ++ rest) = readParams [] rest := by
  induction cs with
  | nil => rfl
  | cons c cs ih =>
    obtain ⟨rfl,hcs⟩ := List.forall_mem_cons.mp h
    simpa [readParams] using ih hcs

/-- The text behind a command is empty, or starts with a space. -/
theorem Params.head? (h : Params rest params) : ∀ c ∈ rest.head?, c = ' ' := by
  intro c hc
  cases h with
  | done hblank => exact hblank c (List.mem_of_mem_head? hc)
  | trailing hgap =>
    rw [List.head?_append_of_ne_nil _ hgap.1, hgap.head?] at hc
    exact (Option.some.inj hc).symm
  | word hgap =>
    rw [List.append_assoc, List.head?_append_of_ne_nil _ hgap.1, hgap.head?] at hc
    exact (Option.some.inj hc).symm

theorem Params.read (h : Params rest params) : readParams [] rest = params := by
  induction h with
  | @done blanks hblank =>
    rw [← List.append_nil blanks, readParams_blank hblank]
    rfl
  | trailing hgap =>
    rw [readParams_blank hgap.2]
    simp [readParams]
  | word hgap hparam hhead hrest ih =>
    rw [List.append_assoc, readParams_blank hgap.2, readParams_word hparam.2 fun _ => hhead,
      List.append_nil, readParams_behind (by simpa using hparam.1) hrest.head?,
      List.reverse_reverse, ih]

/-- Whatever stands behind a command can be cut into parameters. -/
theorem params_readParams (h : ∀ c ∈ rest.head?, c = ' ') : Params rest (readParams [] rest) := by
  -- every parameter makes the text shorter
  induction hn : rest.length using Nat.strong_induction_on generalizing rest with
  | _ n ih =>
    subst hn
    have hcut := takeWhile_append_skipSpaces rest
    have hblank := blank_takeWhile rest
    have hhead := skipSpaces_head rest
    generalize rest.takeWhile (· == ' ') = gap at hcut hblank
    cases hcs : skipSpaces rest with
    | nil =>
      rw [hcs, List.append_nil] at hcut
      subst hcut
      have hread : readParams [] (gap ++ []) = [] := readParams_blank hblank
      rw [List.append_nil] at hread
      rw [hread]
      exact .done hblank
    | cons c cs =>
      rw [hcs] at hcut hhead
      have hgap : Gap gap := by
        refine ⟨?_,hblank⟩
        rintro rfl
        subst hcut
        exact hhead (congrArg some (h c rfl))
      subst hcut
      rw [readParams_blank hblank]
      by_cases hc : c = ':'
      · subst hc
        have hread : readParams [] (':' :: cs) = [cs] := by simp [readParams]
        rw [hread]
        exact .trailing hgap
      · have hne : c ≠ ' ' := by simpa using hhead
        have hw : Word (word (c :: cs)) := ⟨by simp [word, hne],not_mem_word _⟩
        have hstart : (word (c :: cs)).head? ≠ some ':' := by simpa [word, hne] using hc
        have hlt : (afterWord (c :: cs)).length < (gap ++ c :: cs).length := by
          have hlen := congrArg List.length (word_append_afterWord (c :: cs))
          have hpos := List.length_pos_of_ne_nil hw.1
          simp only [List.length_append] at hlen ⊢
          omega
        have hrest := ih _ hlt (afterWord_head _) rfl
        rw [← word_append_afterWord (c :: cs), readParams_word hw.2 fun _ => hstart,
          List.append_nil, readParams_behind (by simpa using hw.1) (afterWord_head _),
          List.reverse_reverse, ← List.append_assoc]
        exact .word hgap hw hstart hrest

end

/-! ## Lines -/

variable {line : List Char} {m : Message}

theorem spells_iff : Spells line m ↔ ofChars? line = some m := by
  constructor
  · rintro ⟨htrim,htags,hsource,hcommand,hparams⟩
    obtain ⟨hw,ha⟩ := word_append hcommand.2 hparams.head?
    rw [ofChars?, trimmed_iff.mp htrim, untagged_iff.mp htags]
    simp [sourced_iff.mp hsource, hw, ha, hcommand.1, hparams.read]
  · intro h
    rw [ofChars?] at h
    cases htags : skipTags (skipSpaces (dropLineEnd line)) with
    | none => simp [htags] at h
    | some text =>
      cases hsource : takeSource text with
      | none => simp [htags, hsource] at h
      | some cut =>
        obtain ⟨source,rest⟩ := cut
        have hword : word rest ≠ [] := by
          intro he
          simp [htags, hsource, he] at h
        simp only [htags, hsource, Option.bind_eq_bind, Option.bind_some, List.isEmpty_iff, hword,
          if_false, Option.some.injEq] at h
        subst h
        refine .mk (trimmed_iff.mpr rfl) (untagged_iff.mpr htags) ?_ ⟨hword,not_mem_word rest⟩
          (params_readParams (afterWord_head rest))
        rw [word_append_afterWord]
        exact sourced_iff.mpr hsource

/-- Only what stands behind the tags counts. -/
theorem ofChars?_congr {line' : List Char}
    (h : skipTags (skipSpaces (dropLineEnd line)) = skipTags (skipSpaces (dropLineEnd line'))) :
    ofChars? line = ofChars? line' := by
  rw [ofChars?, ofChars?, h]

/-- Line ends are cut off behind the last space. -/
theorem dropLineEnd_append_space (cs rest : List Char) :
    dropLineEnd (cs ++ ' ' :: rest) = cs ++ ' ' :: dropLineEnd rest := by
  have hrev : (cs ++ ' ' :: rest).reverse = rest.reverse ++ ' ' :: cs.reverse := by simp
  have hspace : (' ' :: cs.reverse).dropWhile isLineEnd = ' ' :: cs.reverse :=
    List.dropWhile_cons_of_neg (by decide)
  rw [dropLineEnd, dropLineEnd, hrev, List.dropWhile_append, hspace]
  split
  · next hempty => simp [List.isEmpty_iff.mp hempty]
  · simp

theorem skipTags_tagged {blanks tags : List Char} (hblanks : Blank blanks) (htags : ' ' ∉ tags)
    (rest : List Char) :
    skipTags (skipSpaces (dropLineEnd (blanks ++ '@' :: tags ++ ' ' :: rest))) =
      some (skipSpaces (dropLineEnd rest)) := by
  have hcut := takeWhile_append_skipSpaces (dropLineEnd rest)
  have htagged : Untagged ('@' :: tags ++ ' ' :: dropLineEnd rest)
      (skipSpaces (dropLineEnd rest)) := by
    have h := Untagged.tagged htags (gap_cons (blank_takeWhile (dropLineEnd rest)))
      (skipSpaces_head (dropLineEnd rest))
    rwa [List.append_assoc, List.cons_append (a := ' '), hcut] at h
  rw [dropLineEnd_append_space, List.append_assoc, skipSpaces_append hblanks (by simp)]
  exact untagged_iff.mp htagged

/-- A line is read as the message that it spells, and only a line that spells no message is not
read. Whatever tags stand before a line, it is read in the same way; and it is read as it is without
them, unless other tags follow, which would be skipped then. -/
theorem parse_iff_spells :
    (∀ line m, parse? line = some m ↔ Spells line.toList m) ∧
    (∀ line, parse? line = none ↔ ∀ m, ¬ Spells line.toList m) ∧
    (∀ blanks tags tags' rest, Blank blanks → ' ' ∉ tags → ' ' ∉ tags' →
      parse? (String.ofList (blanks ++ '@' :: tags ++ ' ' :: rest)) =
        parse? (String.ofList (blanks ++ '@' :: tags' ++ ' ' :: rest))) ∧
    ∀ blanks tags rest text, Blank blanks → ' ' ∉ tags → Trimmed rest text →
      text.head? ≠ some '@' →
      parse? (String.ofList (blanks ++ '@' :: tags ++ ' ' :: rest)) =
        parse? (String.ofList rest) := by
  have hspells : ∀ line m, parse? line = some m ↔ Spells line.toList m :=
    fun line m => spells_iff.symm
  refine ⟨hspells,?_,?_,?_⟩
  · intro line
    simp only [← hspells, ← Option.eq_none_iff_forall_ne_some]
  · intro blanks tags tags' rest hblanks htags htags'
    rw [parse?, parse?, String.toList_ofList, String.toList_ofList]
    apply ofChars?_congr
    rw [skipTags_tagged hblanks htags, skipTags_tagged hblanks htags']
  · intro blanks tags rest text hblanks htags htext hhead
    rw [parse?, parse?, String.toList_ofList, String.toList_ofList]
    apply ofChars?_congr
    rw [skipTags_tagged hblanks htags, trimmed_iff.mp htext, skipTags_of_head hhead]

/-- Tags, an empty source, blank runs, a line end inside and others at the tail. -/
example : parse? "@a=:b  : fail  x :\ry :z \r\n\n" = some ⟨some "","FAIL",["x", "\ry :z "]⟩ := by
  decide +kernel

end ChatToken.Message
