-- Lines of a text, and the pieces of a text in general. A text is one piece, or a
-- piece with the character that ends it and a shorter text behind it, and what is
-- said of all pieces is proved along that.
import DocPages.Proofs.Text.Trim
import Mathlib.Data.List.Basic

namespace DocPages.Text

/-! ## Pieces -/

variable {p : Char → Bool} {piece text : List Char}

theorem splitBy_eq_splitOnP (p : Char → Bool) (text : List Char) :
    splitBy p text = text.splitOnP p := by
  induction text with
  | nil => rw [List.splitOnP_nil, splitBy]
  | cons c text ih =>
    obtain ⟨first, rest, htext⟩ := List.exists_cons_of_ne_nil (List.splitOnP_ne_nil p text)
    rw [splitBy, ih, List.splitOnP_cons_eq_if_modifyHead, htext]
    rfl

theorem splitBy_ne_nil (p : Char → Bool) (text : List Char) : splitBy p text ≠ [] := by
  rw [splitBy_eq_splitOnP]
  exact List.splitOnP_ne_nil p text

theorem splitBy_of_forall (h : ∀ c ∈ piece, p c = false) : splitBy p piece = [piece] := by
  rw [splitBy_eq_splitOnP, List.splitOnP_eq_singleton h]

/-- Where a text is cut at the end of a piece, its halves have their pieces each. -/
theorem splitBy_append_cons {c : Char} (hc : p c = true) (front back : List Char) :
    splitBy p (front ++ c :: back) = splitBy p front ++ splitBy p back := by
  simp only [splitBy_eq_splitOnP, List.splitOnP_append_cons front back hc]

/-- Pieces that are joined by the character between them make the text again. -/
theorem joinWith_splitBy (c : Char) (text : List Char) :
    joinWith [c] (splitBy (· == c) text) = text := by
  rw [joinWith_eq_intercalate, splitBy_eq_splitOnP, ← List.splitOn_eq_splitOnP]
  exact List.intercalate_splitOn c

/-- A text is a single piece, or a piece with the character behind it and a shorter text behind
that. -/
@[elab_as_elim]
theorem piece_induction {motive : List Char → Prop} (p : Char → Bool)
    (last : ∀ piece, (∀ c ∈ piece, p c = false) → motive piece)
    (more : ∀ piece c rest, (∀ d ∈ piece, p d = false) → p c = true → motive rest →
      motive (piece ++ c :: rest))
    (text : List Char) : motive text := by
  cases hback : text.dropWhile fun c => !p c with
  | nil =>
    rw [List.dropWhile_eq_nil_iff] at hback
    exact last text fun c hc => by simpa using hback c hc
  | cons c rest =>
    have htext : text.takeWhile (fun c => !p c) ++ c :: rest = text := by
      rw [← hback, List.takeWhile_append_dropWhile]
    have hc : p c = true := by
      have hnot := List.head?_dropWhile_not (fun c => !p c) text
      rw [hback] at hnot
      simpa using hnot
    have hshort : rest.length < text.length := by
      rw [← htext, List.length_append, List.length_cons]
      omega
    rw [← htext]
    refine more _ c rest (fun d hd => ?_) hc (piece_induction p last more rest)
    simpa using List.mem_takeWhile_imp hd
termination_by text.length

/-- The pieces of a text stand between the characters that end one, or at the ends of the text, and
hold none of these characters themselves. -/
theorem mem_splitBy_iff : piece ∈ splitBy p text ↔ (∀ c ∈ piece, p c = false) ∧
    ∃ front back, text = front ++ (piece ++ back) ∧ (∀ c ∈ front.getLast?, p c = true) ∧
      ∀ c ∈ back.head?, p c = true := by
  constructor
  · intro h
    induction text using piece_induction p with
    | last line hline =>
      rw [splitBy_of_forall hline] at h
      obtain rfl := List.mem_singleton.mp h
      exact ⟨hline, [], [], by simp, by simp, by simp⟩
    | more line c rest hline hc ih =>
      rw [splitBy_append_cons hc, splitBy_of_forall hline] at h
      rcases List.mem_cons.mp h with rfl | h
      · exact ⟨hline, [], c :: rest, rfl, by simp, by simpa using hc⟩
      · obtain ⟨hpiece, front, back, rfl, hfront, hback⟩ := ih h
        refine ⟨hpiece, line ++ c :: front, back, by simp, fun d hd => ?_, hback⟩
        cases hlast : front.getLast? with
        | none =>
          obtain rfl := List.getLast?_eq_none_iff.mp hlast
          obtain rfl : c = d := by simpa using hd
          exact hc
        | some e =>
          obtain rfl : e = d := by simpa [List.getLast?_cons, hlast] using hd
          exact hfront e hlast
  · rintro ⟨hpiece, front, back, rfl, hfront, hback⟩
    -- A cut in front of the piece and one behind it leave the piece by itself.
    have hfirst : piece ∈ splitBy p (piece ++ back) := by
      cases back with
      | nil =>
        rw [List.append_nil, splitBy_of_forall hpiece]
        exact List.mem_singleton_self piece
      | cons c back =>
        rw [splitBy_append_cons (hback c rfl), splitBy_of_forall hpiece]
        exact List.mem_cons_self
    rcases List.eq_nil_or_concat' front with rfl | ⟨front, c, rfl⟩
    · exact hfirst
    · have hc : p c = true := hfront c (by simp)
      rw [List.append_assoc, List.singleton_append, splitBy_append_cons hc]
      exact List.mem_append_right _ hfirst

theorem infix_of_mem_splitBy (h : piece ∈ splitBy p text) : piece <:+: text := by
  obtain ⟨-, front, back, rfl, -, -⟩ := mem_splitBy_iff.mp h
  exact List.infix_append' front piece back

/-- No piece holds a character that ends one. -/
theorem forall_mem_of_mem_splitBy (h : piece ∈ splitBy p text) : ∀ c ∈ piece, p c = false :=
  (mem_splitBy_iff.mp h).1

/-! ## Lines -/

/-- A text is a single line, or a line with its line feed and a shorter text behind it. -/
@[elab_as_elim]
theorem line_induction {motive : List Char → Prop} (last : ∀ line, '\n' ∉ line → motive line)
    (more : ∀ line rest, '\n' ∉ line → motive rest → motive (line ++ '\n' :: rest))
    (text : List Char) : motive text := by
  have hline : ∀ line : List Char, (∀ c ∈ line, (c == '\n') = false) → '\n' ∉ line :=
    fun line h hmem => absurd (h '\n' hmem) (by decide)
  induction text using piece_induction (· == '\n') with
  | last line h => exact last line (hline line h)
  | more line c rest h hc ih =>
    obtain rfl := beq_iff_eq.mp hc
    exact more line rest (hline line h) ih

theorem splitBy_of_not_mem {line : List Char} (h : '\n' ∉ line) :
    splitBy (· == '\n') line = [line] := by
  refine splitBy_of_forall fun c hc => beq_false_of_ne ?_
  rintro rfl
  exact h hc

theorem splitBy_break {line : List Char} (h : '\n' ∉ line) (rest : List Char) :
    splitBy (· == '\n') (line ++ '\n' :: rest) = line :: splitBy (· == '\n') rest := by
  have hsplit := splitBy_append_cons (p := (· == '\n')) (beq_self_eq_true '\n') line rest
  rw [hsplit, splitBy_of_not_mem h]
  rfl

end DocPages.Text
