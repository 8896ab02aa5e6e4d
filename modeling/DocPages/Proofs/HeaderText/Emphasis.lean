-- Emphasised text. A text between two equal marks ends at the next place of the
-- mark that has no backslash in front of it, and that within its line. So texts
-- between marks lose exactly their marks, whatever stands next to them.
import DocPages.HeaderText
import DocPages.Proofs.Text.Search
import Mathlib.Data.List.Chain

namespace DocPages.HeaderText

/-! ## The text that a mark follows -/

/-- The character stands only behind backslashes, but perhaps at the front. -/
def Blocked (m : Char) (cs : List Char) : Prop := cs.IsChain fun b c => c = m → b = '\\'

theorem blocked_of_not_mem {m : Char} {cs : List Char} (h : m ∉ cs) : Blocked m cs := by
  induction cs with
  | nil => exact List.IsChain.nil
  | cons c cs ih =>
    rw [List.mem_cons, not_or] at h
    refine List.isChain_cons.mpr ⟨?_, ih h.2⟩
    intro d hd hm
    subst hm
    exact absurd (List.mem_of_mem_head? hd) h.2

theorem Blocked.append {m : Char} {a b : List Char} (ha : Blocked m a) (hb : Blocked m b)
    (hseam : b.head? = some m → ∀ c ∈ a.getLast?, c = '\\') : Blocked m (a ++ b) := by
  refine List.isChain_append.mpr ⟨ha, hb, ?_⟩
  intro c hc d hd hm
  subst hm
  exact hseam hd c hc

section Body

variable {m : Char} {more cs : List Char}

/-- A mark does not follow a backslash. -/
theorem not_closes {c : Char} (h : Blocked m (c :: cs)) :
    (c != '\\' && Text.startsWith (m :: more) cs) = false := by
  rw [Bool.and_eq_false_imp, bne_iff_ne, ← Bool.not_eq_true, Text.startsWith_iff]
  rintro hc ⟨back, rfl⟩
  exact hc ((List.isChain_cons_cons.mp h).1 rfl)

/-- No text is followed by a mark that stands only behind backslashes. -/
theorem bodyLength?_eq_none (h : Blocked m cs) : bodyLength? (m :: more) cs = none := by
  induction cs with
  | nil => rfl
  | cons c cs ih =>
    rw [bodyLength?, not_closes h, ih (List.isChain_cons.mp h).2]
    simp

/-- No text is followed by a mark that does not occur. -/
theorem bodyLength?_of_not_infix {mark : List Char} (h : ¬ mark <:+: cs) :
    bodyLength? mark cs = none := by
  induction cs with
  | nil => rfl
  | cons c cs ih =>
    rw [List.infix_cons_iff, not_or] at h
    have hstart : Text.startsWith mark cs = false := by
      rw [← Bool.not_eq_true, Text.startsWith_iff]
      intro hstart
      exact h.2 hstart.isInfix
    simp [bodyLength?, hstart, ih h.2]

variable {body : List Char}

theorem blocked_cons {c : Char} (h : Blocked m (c :: body)) : Blocked m body :=
  (List.isChain_cons.mp h).2

/-- In a text that goes on, its first character is not the last one. -/
theorem bodyLength?_cons {c : Char} (h : Blocked m (c :: body)) (hne : body ≠ []) (hc : c ≠ '\n')
    (back : List Char) :
    bodyLength? (m :: more) (c :: (body ++ back)) =
      (bodyLength? (m :: more) (body ++ back)).map (· + 1) := by
  have hopen : (c != '\\' && Text.startsWith (m :: more) (body ++ back)) = false := by
    rw [Bool.and_eq_false_imp, bne_iff_ne, ← Bool.not_eq_true, Text.startsWith_iff]
    intro hne' hstart
    cases body with
    | nil => exact hne rfl
    | cons d body =>
      obtain ⟨rfl, -⟩ := List.cons_prefix_cons.mp hstart
      exact hne' ((List.isChain_cons_cons.mp h).1 rfl)
  simp [bodyLength?, hopen, hc]

/-- The text up to the first mark without a backslash in front of it, if it is in one line. -/
theorem bodyLength?_append (h : Blocked m body) (hne : body ≠ []) (hline : '\n' ∉ body.dropLast)
    (hend : body.getLast? ≠ some '\\') (back : List Char) :
    bodyLength? (m :: more) (body ++ (m :: more ++ back)) = some body.length := by
  induction body with
  | nil => exact absurd rfl hne
  | cons c body ih =>
    by_cases hlast : body = []
    · subst hlast
      have hc : c ≠ '\\' := by simpa using hend
      have hstart : Text.startsWith (m :: more) (m :: more ++ back) = true :=
        Text.startsWith_iff.mpr (List.prefix_append _ _)
      rw [List.singleton_append, bodyLength?, hstart]
      simp [hc]
    · rw [List.dropLast_cons_of_ne_nil hlast, List.mem_cons, not_or] at hline
      rw [List.getLast?_cons_of_ne_nil hlast] at hend
      rw [List.cons_append, bodyLength?_cons h hlast (Ne.symm hline.1),
        ih (blocked_cons h) hlast hline.2 hend]
      simp

/-- No text reaches over a line feed. -/
theorem bodyLength?_line (h : Blocked m body) (hline : '\n' ∈ body.dropLast) (back : List Char) :
    bodyLength? (m :: more) (body ++ back) = none := by
  induction body with
  | nil => simp at hline
  | cons c body ih =>
    by_cases hlast : body = []
    · simp [hlast] at hline
    · rw [List.dropLast_cons_of_ne_nil hlast, List.mem_cons] at hline
      by_cases hc : c = '\n'
      · subst hc
        cases body with
        | nil => exact absurd rfl hlast
        | cons d body =>
          have hd : d ≠ m := by
            rintro rfl
            exact absurd ((List.isChain_cons_cons.mp h).1 rfl) (by decide)
          simp [bodyLength?, Text.startsWith, Ne.symm hd]
      · rw [List.cons_append, bodyLength?_cons h hlast hc,
          ih (blocked_cons h) (hline.resolve_left (Ne.symm hc))]
        simp

end Body

/-! ## Marks at the front of a text -/

/-- What is taken off its marks at the front of a text. -/
def emphasisAt (cs : List Char) : Option Text.Replacement :=
  marks.findSome? fun mark => markedAt mark cs

/-- A text that is taken off its marks stands for all that it takes up. -/
theorem unwrapEmphasis_of_some {c : Char} {q back shown : List Char}
    (h : emphasisAt (c :: (q ++ back)) = some ⟨q.length, shown⟩) :
    unwrapEmphasis (c :: (q ++ back)) = shown ++ unwrapEmphasis back :=
  Text.replaceBy_of_some (fun _ => rfl) h

theorem unwrapEmphasis_cons {c : Char} {back : List Char} (h : emphasisAt (c :: back) = none) :
    unwrapEmphasis (c :: back) = c :: unwrapEmphasis back :=
  Text.replaceBy_cons (fun _ => rfl) h

/-- A text is kept where nothing is taken off. -/
theorem unwrapEmphasis_keep {q back : List Char}
    (h : ∀ c rest, c :: rest <:+ q → emphasisAt (c :: (rest ++ back)) = none) :
    unwrapEmphasis (q ++ back) = q ++ unwrapEmphasis back :=
  Text.replaceBy_keep (fun _ => rfl) h

/-- The characters that marks are made of. -/
def markChars : List Char := ['\x60', '*', '_']

theorem mem_markChars : ∀ mark ∈ marks, ∀ c ∈ mark, c ∈ markChars := by
  have hchars : ∀ mark ∈ marks, mark.all fun c => c ∈ markChars := by decide
  simpa only [List.all_eq_true, decide_eq_true_eq] using hchars

theorem exists_of_mem_marks {mark : List Char} (h : mark ∈ marks) :
    ∃ m more, mark = m :: more ∧ m ∈ markChars := by
  cases mark with
  | nil => exact absurd h (by decide)
  | cons m more => exact ⟨m, more, rfl, mem_markChars _ h m List.mem_cons_self⟩

theorem markedAt_of_not_prefix {mark cs : List Char} (h : ¬ mark <+: cs) :
    markedAt mark cs = none := by
  unfold markedAt
  rw [if_neg]
  rwa [Text.startsWith_iff]

/-- Where no mark begins nothing is taken off. -/
theorem emphasisAt_of_not_mem {c : Char} (hc : c ∉ markChars) (cs : List Char) :
    emphasisAt (c :: cs) = none := by
  unfold emphasisAt
  rw [List.findSome?_eq_none_iff]
  intro mark hmark
  obtain ⟨m, more, rfl, hm⟩ := exists_of_mem_marks hmark
  apply markedAt_of_not_prefix
  intro h
  obtain ⟨rfl, -⟩ := List.cons_prefix_cons.mp h
  exact hc hm

/-- Nothing is taken off where the character of the mark stands only behind backslashes. -/
theorem emphasisAt_of_blocked {m : Char} {cs : List Char} (h : Blocked m cs) :
    emphasisAt (m :: cs) = none := by
  unfold emphasisAt
  rw [List.findSome?_eq_none_iff]
  intro mark hmark
  obtain ⟨d, more, rfl, -⟩ := exists_of_mem_marks hmark
  by_cases hd : d = m
  · subst hd
    have hinside : Blocked d (cs.drop more.length) := List.IsChain.suffix h (List.drop_suffix _ _)
    simp [markedAt, bodyLength?_eq_none hinside]
  · apply markedAt_of_not_prefix
    intro hstart
    exact hd (List.cons_prefix_cons.mp hstart).1

/-- Where one star stands alone, only the mark of one star is tried. -/
theorem emphasisAt_star {cs : List Char} (h : cs.head? ≠ some '*') :
    emphasisAt ('*' :: cs) = (bodyLength? ['*'] cs).map fun n => ⟨n + 1, cs.take n⟩ := by
  have hpair : ¬ ['*'] <+: cs := by
    intro hstart
    cases cs with
    | nil => simp at hstart
    | cons c cs => exact h (congrArg some (List.cons_prefix_cons.mp hstart).1.symm)
  have hlonger : ∀ more, ¬ '*' :: '*' :: more <+: '*' :: cs := by
    intro more hstart
    exact hpair ((List.prefix_append ['*'] more).trans ((List.prefix_cons_inj _).mp hstart))
  have hthree := markedAt_of_not_prefix (hlonger ['*'])
  have htwo := markedAt_of_not_prefix (hlonger [])
  have hstar : markedAt ['*'] ('*' :: cs) =
      (bodyLength? ['*'] cs).map fun n => ⟨n + 1, cs.take n⟩ := by
    simp [markedAt, Text.startsWith, Nat.add_comm]
  have hother : ∀ m ≠ '*', markedAt [m] ('*' :: cs) = none := by
    intro m hm
    apply markedAt_of_not_prefix
    simpa using hm
  simp only [emphasisAt, marks, List.findSome?_cons, hthree, htwo, hstar, hother '\x60' (by decide),
    hother '_' (by decide)]
  cases bodyLength? ['*'] cs <;> rfl

/-- A text between two equal marks loses them. -/
theorem markedAt_append {mark body back : List Char}
    (h : bodyLength? mark (body ++ (mark ++ back)) = some body.length) :
    markedAt mark (mark ++ (body ++ (mark ++ back))) =
      some ⟨2 * mark.length + body.length - 1, body⟩ := by
  have hstart : Text.startsWith mark (mark ++ (body ++ (mark ++ back))) = true :=
    Text.startsWith_iff.mpr (List.prefix_append _ _)
  unfold markedAt
  rw [if_pos hstart]
  simp [h]

/-- A mark is tried only after those that it begins. -/
theorem marks_in_order : marks.Pairwise fun a b => ¬ a <+: b := by decide

/-- The text that a mark takes in is the one that counts, if no longer mark takes in one. -/
theorem emphasisAt_of_mark {mark cs : List Char} {r : Text.Replacement} (hmark : mark ∈ marks)
    (hlonger : ∀ other ∈ marks, ¬ other <+: mark → markedAt other cs = none)
    (h : markedAt mark cs = some r) : emphasisAt cs = some r := by
  obtain ⟨earlier, later, hsplit⟩ := List.append_of_mem hmark
  have horder := marks_in_order
  rw [hsplit, List.pairwise_append] at horder
  have hearlier : earlier.findSome? (fun other => markedAt other cs) = none := by
    rw [List.findSome?_eq_none_iff]
    intro other hother
    apply hlonger other
    · simp [hsplit, hother]
    · exact horder.2.2 other hother mark List.mem_cons_self
  unfold emphasisAt
  rw [hsplit, List.findSome?_append, hearlier, Option.none_or, List.findSome?_cons_of_isSome]
  · exact h
  · simp [h]

/-! ## Texts between marks -/

theorem mark_uniform : ∀ mark ∈ marks, ∀ c ∈ mark, ∀ d ∈ mark, c = d := by
  have hsame : ∀ mark ∈ marks, mark.all fun c => mark.all fun d => c = d := by decide
  simpa only [List.all_eq_true, decide_eq_true_eq] using hsame

/-- In front of another character a mark is not the beginning of a longer one. -/
theorem prefix_mark {mark other back : List Char} (hmark : mark ∈ marks) (hother : other ∈ marks)
    (hback : ∀ c ∈ back.head?, c ∉ mark) (h : other <+: mark ++ back) : other <+: mark := by
  rcases List.prefix_or_prefix_of_prefix h (List.prefix_append _ _) with hshort | ⟨more, rfl⟩
  · exact hshort
  rw [List.prefix_append_right_inj] at h
  cases more with
  | nil => simp
  | cons c more =>
    obtain ⟨m, rest, rfl, -⟩ := exists_of_mem_marks hmark
    have hc : c = m := mark_uniform _ hother c (by simp) m (by simp)
    obtain ⟨after, rfl⟩ := h
    exact absurd (hc ▸ List.mem_cons_self) (hback c rfl)

/-- A text that two equal marks around it take in: it is not empty and in one line, the mark does
not stand in it, no longer row of its character stands at its ends, and no backslash in front of the
second mark. -/
structure Between (mark body : List Char) : Prop where
  known : mark ∈ marks
  filled : body ≠ []
  line : '\n' ∉ body
  free : ¬ mark <:+: body
  first : ∀ c ∈ body.head?, c ∉ mark
  last : ∀ c ∈ body.getLast?, c ∉ mark
  closes : body.getLast? ≠ some '\\'

/-- The text up to the first place of a mark. -/
theorem bodyLength?_of_free {mark body : List Char} (hne : body ≠ []) (hline : '\n' ∉ body)
    (hfree : ¬ mark <:+: body) (hlast : ∀ c ∈ body.getLast?, c ∉ mark)
    (hend : body.getLast? ≠ some '\\') (back : List Char) :
    bodyLength? mark (body ++ (mark ++ back)) = some body.length := by
  induction body with
  | nil => exact absurd rfl hne
  | cons c body ih =>
    rw [List.mem_cons, not_or] at hline
    rw [List.infix_cons_iff, not_or] at hfree
    cases hbody : body with
    | nil =>
      have hc : c ≠ '\\' := by simpa [hbody] using hend
      have hstart : Text.startsWith mark (mark ++ back) = true :=
        Text.startsWith_iff.mpr (List.prefix_append _ _)
      simp [bodyLength?, hstart, hc]
    | cons d rest =>
      have hne' : body ≠ [] := by simp [hbody]
      rw [List.getLast?_cons_of_ne_nil hne'] at hlast hend
      have hopen : Text.startsWith mark (body ++ (mark ++ back)) = false := by
        rw [← Bool.not_eq_true, Text.startsWith_iff]
        intro hstart
        rcases List.prefix_or_prefix_of_prefix hstart (List.prefix_append _ _) with h | h
        · exact hfree.2 h.isInfix
        · -- The mark would reach over the end of the text, and so hold its last character.
          have hmem := h.subset (List.getLast_mem hne')
          exact hlast _ (List.getLast?_eq_some_getLast hne') hmem
      rw [← hbody, List.cons_append, bodyLength?, hopen, ih hne' hline.2 hfree.2 hlast hend]
      simp [Ne.symm hline.1]

theorem Between.emphasisAt {mark body : List Char} (h : Between mark body) (back : List Char) :
    HeaderText.emphasisAt (mark ++ (body ++ (mark ++ back))) =
      some ⟨2 * mark.length + body.length - 1, body⟩ := by
  have hfirst : ∀ c ∈ (body ++ (mark ++ back)).head?, c ∉ mark := by
    rw [List.head?_append_of_ne_nil _ h.filled]
    exact h.first
  apply emphasisAt_of_mark h.known
  · intro other hother hnot
    exact markedAt_of_not_prefix fun hstart => hnot (prefix_mark h.known hother hfirst hstart)
  · exact markedAt_append (bodyLength?_of_free h.filled h.line h.free h.last h.closes back)

/-- A text between two marks loses them, and the search goes on behind it. -/
theorem Between.unwrap {mark body : List Char} (h : Between mark body) (back : List Char) :
    unwrapEmphasis (mark ++ (body ++ (mark ++ back))) = body ++ unwrapEmphasis back := by
  have hat := h.emphasisAt back
  obtain ⟨m, more, rfl, -⟩ := exists_of_mem_marks h.known
  have hsplit : m :: more ++ (body ++ (m :: more ++ back)) =
      m :: (more ++ (body ++ m :: more) ++ back) := by simp
  have hlength : 2 * (m :: more).length + body.length - 1 =
      (more ++ (body ++ m :: more)).length := by
    simp only [List.length_append, List.length_cons]
    omega
  rw [hsplit, hlength] at hat
  rw [hsplit]
  exact unwrapEmphasis_of_some hat

/-- A text between two equal marks. It is not empty and in one line, it does not hold the character
of its marks, and no backslash stands in front of the second mark. -/
structure Marked where
  mark : List Char
  inside : List Char
  known : mark ∈ marks
  filled : inside ≠ []
  line : '\n' ∉ inside
  apart : ∀ c ∈ mark, c ∉ inside
  closes : inside.getLast? ≠ some '\\'

namespace Marked

/-- The text with its marks. -/
def written (s : Marked) : List Char := s.mark ++ (s.inside ++ s.mark)

theorem between (s : Marked) : Between s.mark s.inside := by
  obtain ⟨m, more, hmark, -⟩ := exists_of_mem_marks s.known
  have hm : m ∈ s.mark := by simp [hmark]
  exact {
    known := s.known
    filled := s.filled
    line := s.line
    free := fun hin => s.apart m hm (hin.subset hm)
    first := fun c hc hmem => s.apart c hmem (List.mem_of_mem_head? hc)
    last := fun c hc hmem => s.apart c hmem (List.mem_of_mem_getLast? hc)
    closes := s.closes }

theorem unwrapEmphasis_written (s : Marked) (back : List Char) :
    unwrapEmphasis (s.written ++ back) = s.inside ++ unwrapEmphasis back := by
  rw [written, List.append_assoc, List.append_assoc]
  exact s.between.unwrap back

end Marked

/-! ## Texts in a row -/

/-- A text without the characters of marks, or one between two marks. -/
inductive Segment where
  | plain (text : List Char) (h : ∀ c ∈ text, c ∉ markChars)
  | marked (s : Marked)

namespace Segment

def written : Segment → List Char
  | plain text _ => text
  | marked s => s.written

/-- The text without its marks. -/
def shown : Segment → List Char
  | plain text _ => text
  | marked s => s.inside

theorem unwrapEmphasis_written (s : Segment) (back : List Char) :
    unwrapEmphasis (s.written ++ back) = s.shown ++ unwrapEmphasis back := by
  cases s with
  | plain text h =>
    apply unwrapEmphasis_keep
    intro c rest hrest
    exact emphasisAt_of_not_mem (h c (hrest.subset List.mem_cons_self)) _
  | marked s => exact s.unwrapEmphasis_written back

end Segment

/-- Texts in a row, some of them between marks: each loses its own marks and nothing else, whatever
stands next to it. A row of stars is divided as it was written, and the marks of other kinds that
stand inside a text stay. -/
theorem texts_in_a_row_lose_their_own_marks (segments : List Segment) :
    unwrapEmphasis (segments.flatMap Segment.written) = segments.flatMap Segment.shown := by
  induction segments with
  | nil => rfl
  | cons s segments ih => simp only [List.flatMap_cons, s.unwrapEmphasis_written, ih]

/-- Texts between one, three and two stars, and one between code marks. -/
example : unwrapEmphasis "a\\*b****c_d*****e**\x60f*\x60".toList = "a\\bc_def*".toList := by
  decide

end DocPages.HeaderText
