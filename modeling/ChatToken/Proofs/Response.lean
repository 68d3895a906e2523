import ChatToken.Proofs.Exchange.Verdicts
import ChatToken.Token.Response

/-! # Reading responses

What is left of a sequence of responses when somebody begins to read it: the rest of one response,
and complete ones behind it. Whoever reads from there on takes that rest for a response.
-/
namespace ChatToken

theorem Message.unrelated_iff {m : Message} : m.Unrelated ↔ Reply.classify m = .skip := by
  have h₁ : Reply.unknownCommand ≠ Reply.extjwt := by decide
  have h₂ : Reply.fail ≠ Reply.extjwt := by decide
  have h₃ : Reply.fail ≠ Reply.unknownCommand := by decide
  unfold Message.Unrelated Reply.classify
  by_cases hx : m.command = Reply.extjwt
  · simp only [hx, h₁.symm, h₂.symm, forall_const, false_implies, and_true, if_true]
    split
    · next h => simp only [h, ne_eq, not_true_eq_false, false_iff]; split <;> simp
    · next h => simpa using h
  · by_cases hu : m.command = Reply.unknownCommand
    · simp only [hu, h₁, h₃.symm, false_implies, forall_const, true_and, and_true, if_false, if_true]
      cases Reply.namesExtjwt m 1 <;> simp
    · by_cases hf : m.command = Reply.fail
      · simp only [hf, h₂, h₃, false_implies, forall_const, true_and, if_false, if_true]
        cases Reply.namesExtjwt m 0 <;> simp
      · simp [hx, hu, hf]

namespace Reply

theorem classify_piece {m : Message} {piece : String}
    (h : classify m = .fragment piece ∨ classify m = .complete piece) : piece = m.lastParam := by
  unfold classify at h
  split at h
  · split at h
    · split at h <;> simp_all
    · simp at h
  · split at h
    · split at h <;> simp at h
    · split at h
      · split at h <;> simp at h
      · simp at h

/-- Unrelated messages do not change the response. -/
theorem response_related (ms : List Message) :
    Verdict.response ((ms.filter fun m => ¬ m.Unrelated).map classify) =
      Verdict.response (ms.map classify) := by
  rw [← Verdict.response_filter_skip (ms.map classify), List.filter_map]
  congr 3
  funext m
  simp [Message.unrelated_iff]

/-- Messages with more to follow and a last one are a response. -/
theorem response_of_pieces {ms : List Message} {last : Message}
    (hms : ∀ m ∈ ms, ∃ piece, classify m = .fragment piece)
    (hlast : ∃ piece, classify last = .complete piece) :
    Verdict.response ((ms ++ [last]).map classify) =
      some (.ok (String.join ((ms ++ [last]).map Message.lastParam))) := by
  induction ms with
  | nil =>
    obtain ⟨piece,h⟩ := hlast
    obtain rfl := classify_piece (.inr h)
    simp [h, String.join_cons, String.join_nil]
  | cons m ms ih =>
    obtain ⟨piece,h⟩ := hms m (by simp)
    obtain rfl := classify_piece (.inl h)
    rw [List.cons_append, List.map_cons, h, Verdict.response_fragment,
      ih fun m' hm' => hms m' (by simp [hm']), List.map_cons, String.join_cons]
    rfl

end Reply

namespace Response

variable {answer : Nat → Response} {ms ms' : List Message} {j k i : Nat}

theorem messages_ne_nil (r : Response) : 0 < r.messages.length := by simp [messages]

theorem drop_messages (r : Response) (h : i < r.messages.length) :
    r.messages.drop i = r.continued.drop i ++ [r.last] := by
  have hi : i ≤ r.continued.length := by
    rw [messages, List.length_append, List.length_singleton] at h
    omega
  exact List.drop_append_of_le_length hi

/-- The rest of a response is taken for a response. -/
theorem response_drop (r : Response) (h : i < r.messages.length) :
    Verdict.response ((r.messages.drop i).map Reply.classify) = some (.ok (r.tail i)) := by
  rw [tail, r.drop_messages h]
  exact Reply.response_of_pieces (fun m hm => r.continues m (List.mem_of_mem_drop hm)) r.completes

theorem first_succ (answer : Nat → Response) (k : Nat) :
    first answer (k + 1) = first answer k ++ (answer k).messages := by
  simp [first, List.range_succ]

theorem first_mono (answer : Nat → Response) (h : j ≤ k) : first answer j <+: first answer k := by
  induction h with
  | refl => exact List.prefix_refl _
  | @step k _ ih =>
    rw [first_succ]
    exact ih.trans (List.prefix_append ..)

/-- A beginning of some responses is made of complete responses and a part of the next one. -/
theorem split_of_prefix (h : ms <+: first answer k) :
    ∃ j i, j ≤ k ∧ i < (answer j).messages.length ∧
      ms = first answer j ++ (answer j).messages.take i := by
  induction k with
  | zero =>
    obtain rfl := List.prefix_nil.mp h
    exact ⟨0,0,Nat.le_refl 0,messages_ne_nil _,rfl⟩
  | succ k ih =>
    rw [first_succ] at h
    rcases Nat.le_total ms.length (first answer k).length with hle | hle
    · obtain ⟨j,i,hj,hi,he⟩ := ih (List.prefix_of_prefix_length_le h (List.prefix_append ..) hle)
      exact ⟨j,i,Nat.le_succ_of_le hj,hi,he⟩
    · obtain ⟨part,rfl⟩ := List.prefix_of_prefix_length_le (List.prefix_append ..) h hle
      have hpart : part <+: (answer k).messages := (List.prefix_append_right_inj _).mp h
      rcases Nat.lt_or_ge part.length (answer k).messages.length with hlt | hge
      · exact ⟨k,part.length,Nat.le_succ k,hlt,by rw [← List.prefix_iff_eq_take.mp hpart]⟩
      · refine ⟨k + 1,0,Nat.le_refl _,messages_ne_nil _,?_⟩
        rw [hpart.eq_of_length_le hge, List.take_zero, List.append_nil, first_succ]

/-- Who reads on behind a part of a response takes the rest of it for a response. -/
theorem tail_of_response {text : String}
    (h : (first answer j ++ (answer j).messages.take i) ++ ms <+: first answer k)
    (hi : i < (answer j).messages.length)
    (hr : Verdict.response (ms.map Reply.classify) = some (.ok text)) :
    text = (answer j).tail i := by
  -- the rest of the response and what was read begin the same sequence
  have hrest : (first answer j ++ (answer j).messages.take i) ++ (answer j).messages.drop i <+:
      first answer (max k (j + 1)) := by
    rw [List.append_assoc, List.take_append_drop, ← first_succ]
    exact first_mono answer (Nat.le_max_right ..)
  obtain ⟨after,hafter⟩ := h.trans (first_mono answer (Nat.le_max_left k (j + 1)))
  obtain ⟨after',hafter'⟩ := hrest
  rw [← hafter', List.append_assoc, List.append_assoc _ _ after', List.append_cancel_left_eq]
    at hafter
  have hread := Verdict.response_append_of_some hr (after.map Reply.classify)
  rw [← List.map_append, hafter, List.map_append,
    Verdict.response_append_of_some ((answer j).response_drop hi)] at hread
  exact (Except.ok.inj (Option.some.inj hread)).symm

end Response

end ChatToken
