import ChatToken.Proofs.Message.Readback
import ChatToken.Proofs.Stream.Loop
import ChatToken.Stream.Advertisement

/-! # What is known of advertised capabilities

Every token says one thing. A capability is kept and looked up under its name in upper case, but a
withdrawal takes the name as it is written. So the last token about a name decides, where the
withdrawals of names that have small letters are passed over.
-/
namespace ChatToken

open Network (Call)

namespace Advertisement

variable {text key value : List Char} {token : String} {a : Advertisement}

/-! ## The form of a token -/

theorem Keyed.key_eq (h : Keyed text key value) : text.takeWhile (· != '=') = key := by
  cases h with
  | bare hkey =>
    refine List.takeWhile_eq_self_iff.mpr fun c hc => ?_
    simpa using ne_of_mem_of_not_mem hc hkey
  | valued hkey =>
    rw [List.takeWhile_append_of_pos, List.takeWhile_cons_of_neg (by simp), List.append_nil]
    intro c hc
    simpa using ne_of_mem_of_not_mem hc hkey

theorem Keyed.value_eq (h : Keyed text key value) : (text.drop key.length).drop 1 = value := by
  cases h with
  | bare => simp
  | valued => rw [List.drop_left, List.drop_one, List.tail_cons]

theorem Keyed.split_eq (h : Keyed token.toList key value) :
    Capabilities.split token = (String.ofList key, String.ofList value) := by
  rw [Capabilities.split, h.key_eq, h.value_eq]

theorem exists_keyed (text : List Char) : ∃ key value, Keyed text key value := by
  by_cases h : '=' ∈ text
  · obtain ⟨key,value,rfl,hkey⟩ := List.eq_append_cons_of_mem h
    exact ⟨key,value,.valued hkey⟩
  · exact ⟨text,[],.bare h⟩

theorem withdrawn?_hyphen (name : List Char) :
    Capabilities.withdrawn? (String.ofList ('-' :: name)) = some (String.ofList name) := by
  simp [Capabilities.withdrawn?]

theorem withdrawn?_eq_none (h : key.head? ≠ some '-') :
    Capabilities.withdrawn? (String.ofList key) = none := by
  rw [Capabilities.withdrawn?, String.toList_ofList]
  split
  · exact absurd rfl h
  · rfl

/-- Every token says one thing. -/
theorem isSaidBy_iff : IsSaidBy token a ↔ a = ofToken token := by
  constructor
  · rintro (⟨hkeyed,hhead⟩ | ⟨hkeyed⟩)
    · rw [ofToken, hkeyed.split_eq, withdrawn?_eq_none hhead]
    · rw [ofToken, hkeyed.split_eq, withdrawn?_hyphen]
  · rintro rfl
    obtain ⟨key,value,hkeyed⟩ := exists_keyed token.toList
    rw [ofToken, hkeyed.split_eq]
    by_cases hhead : key.head? = some '-'
    · obtain ⟨name,rfl⟩ := List.head?_eq_some_iff.mp hhead
      rw [withdrawn?_hyphen]
      exact .withdrawn hkeyed
    · rw [withdrawn?_eq_none hhead]
      exact .advertised hkeyed hhead

end Advertisement

namespace Capabilities

open Advertisement

variable {ms : List Message} {ads : List Advertisement}

theorem said_iff : Said ms ads ↔ ads = (tokensOf ms).map ofToken := by
  have heq : IsSaidBy = fun token a => a = ofToken token :=
    funext₂ fun _ _ => propext isSaidBy_iff
  rw [Said, heq, eq_comm, ← List.forall₂_eq_eq_eq, List.forall₂_map_left_iff]
  simp only [eq_comm]

/-! ## One token -/

theorem apply_eq (known : Table String String) (token : String) :
    apply known token = if (ofToken token).withdrawn then known.erase (ofToken token).name
      else known.insert (Message.upperText (ofToken token).name) (ofToken token).value := by
  rw [apply, ofToken]
  dsimp only
  cases withdrawn? (split token).1 <;> rfl

theorem isAbout_iff {name : String} {a : Advertisement} :
    a.isAbout name = true ↔ Message.upperText a.name = Message.upperText name := by
  rw [isAbout, Message.sameLetters, beq_iff_eq, Message.upperText, Message.upperText,
    String.ofList_inj]

theorem upperText_upperText (s : String) :
    Message.upperText (Message.upperText s) = Message.upperText s := by
  simp only [Message.upperText, String.toList_ofList, Message.upper_upper]

/-- A token decides about the names that it is about, if it counts, and about no others. -/
theorem get?_apply (known : Table String String) (token name : String) :
    (apply known token).get? (Message.upperText name) =
      if (ofToken token).counts && (ofToken token).isAbout name then (ofToken token).answer
      else known.get? (Message.upperText name) := by
  rw [apply_eq]
  generalize ofToken token = a
  cases hw : a.withdrawn with
  | false =>
    simp only [counts, answer, hw, Bool.not_false, Bool.true_or, Bool.true_and, isAbout_iff,
      Bool.false_eq_true, if_false, Table.get?_insert]
  | true =>
    rw [if_pos rfl, Table.get?_erase]
    have hiff : a.name = Message.upperText name ↔ (a.counts && a.isAbout name) = true := by
      rw [Bool.and_eq_true, isAbout_iff, counts, hw, Bool.not_true, Bool.false_or, beq_iff_eq]
      constructor
      · intro h
        rw [h, upperText_upperText]
        exact ⟨rfl,rfl⟩
      · rintro ⟨h,hname⟩
        exact h.trans hname
    simp only [hiff, answer, hw, if_true]

/-! ## Runs -/

theorem tokens_eq (m : Message) : tokens m = m.params.tail.dropLast := by
  rw [tokens, List.dropLast_eq_take, List.length_tail, List.drop_one, Nat.sub_sub]

theorem foldl_note (known : Table String String) (ms : List Message) :
    ms.foldl note known = (tokensOf ms).foldl apply known := by
  induction ms generalizing known with
  | nil => rfl
  | cons m ms ih =>
    rw [List.foldl_cons, ih, note, tokensOf, tokensOf, List.filter_cons]
    by_cases hm : m.command = command
    · rw [if_pos hm, if_pos (beq_iff_eq.mpr hm), List.flatMap_cons, List.foldl_append, applyAll,
        tokens_eq]
    · rw [if_neg hm, if_neg (by simpa using hm)]

theorem get?_foldl_apply (known : Table String String) (tokens : List String) (name : String) :
    (tokens.foldl apply known).get? (Message.upperText name) =
      (((tokens.map ofToken).filter counts).filter (·.isAbout name)).getLast?.elim
        (known.get? (Message.upperText name)) answer := by
  induction tokens generalizing known with
  | nil => rfl
  | cons token tokens ih =>
    rw [List.foldl_cons, ih, get?_apply, List.filter_filter, List.filter_filter, List.map_cons,
      List.filter_cons, Bool.and_comm (isAbout name _)]
    split
    · rw [List.getLast?_cons]
      cases List.getLast? _ <;> rfl
    · rfl

end Capabilities

namespace Network

open Advertisement Capabilities

/-- Over a stream, names are looked up in upper case. -/
theorem Streams.capability? {n : Network} {p : Nat} (h : n.Streams p) (name : String) :
    (n.peer p).capability? name = (n.peer p).capabilities.get? (Message.upperText name) := by
  rw [Peer.capability?]
  cases hl : (n.peer p).link with
  | memory => exact absurd hl h.streaming.link
  | stream reading => rfl

/-- What is advertised under a name is what the last token about it says, where the withdrawals of
names with small letters are passed over. -/
theorem capability_last_said (n : Network) (address name : String) (cs : List Call) :
    let p := n.peers.length
    let opened := n.connect address
    let known := ((opened.calls p cs).peer p).capability? name
    ∃ ads, (∀ ads', Said (opened.taken p cs) ads' ↔ ads' = ads) ∧
      known = lastSaid name (ads.filter counts) ∧
      ((∀ a ∈ ads, a.isAbout name = true → a.counts = true) → known = lastSaid name ads) := by
  intro p opened known
  obtain ⟨hq,h⟩ := n.streams_connect address
  let ads := (tokensOf (opened.taken p cs)).map ofToken
  have hknown : known = lastSaid name (ads.filter counts) := by
    have hnone : (opened.peer p).capabilities = {} := by rw [hq]; rfl
    refine ((h.calls cs).capability? name).trans ?_
    rw [calls_capabilities h, hnone, foldl_note, get?_foldl_apply, Table.get?_empty]
    rw [lastSaid]
    cases List.getLast? _ <;> rfl
  refine ⟨ads,fun ads' => said_iff,hknown,fun hall => hknown.trans ?_⟩
  rw [lastSaid, lastSaid, List.filter_filter, List.filter_congr]
  intro a ha
  cases habout : a.isAbout name with
  | false => rfl
  | true => rw [hall a ha habout]; rfl

/-- A name is withdrawn in capitals and looked up in small letters. -/
theorem withdrawal_last_said :
    let cs : List Call := [.receive (.line ":s 005 al ExtJwt=1 NETWORK=a=b :are supported"),
      .receive (.line ":s 005 al -EXTJWT=2 :are supported")]
    let ads : List Advertisement := [⟨false,"ExtJwt","1"⟩, ⟨false,"NETWORK","a=b"⟩,
      ⟨true,"EXTJWT","2"⟩]
    let opened := Network.connect {} "irc"
    Said (opened.taken 0 cs) ads ∧
    ((opened.calls 0 cs).peer 0).capability? "extjwt" = lastSaid "extjwt" ads ∧
    lastSaid "extjwt" ads = none := by
  intro cs ads opened
  obtain ⟨ads',hsaid,_,hlast⟩ := capability_last_said {} "irc" "extjwt" cs
  have hads : Said (opened.taken 0 cs) ads := said_iff.mpr (by decide +kernel)
  obtain rfl : ads = ads' := (hsaid ads).mp hads
  exact ⟨hads,hlast (by decide +kernel),by decide +kernel⟩

/-- A name that is withdrawn in small letters is still advertised. -/
theorem small_letters_withdraw_nothing :
    let cs : List Call := [.receive (.line ":s 005 al EXTJWT=1 :are supported"),
      .receive (.line ":s 005 al -extjwt :are supported")]
    let ads : List Advertisement := [⟨false,"EXTJWT","1"⟩, ⟨true,"extjwt",""⟩]
    let opened := Network.connect {} "irc"
    Said (opened.taken 0 cs) ads ∧ lastSaid "EXTJWT" ads = none ∧
    ((opened.calls 0 cs).peer 0).capability? "EXTJWT" = some "1" :=
  ⟨said_iff.mpr (by decide +kernel),by decide +kernel,by decide +kernel⟩

end Network

end ChatToken
