-- Trimmed texts. A text is tight if no white space stands at its ends;
-- trimming gives a tight text and changes none, and tight texts that are not
-- empty make a tight text when they are joined.
import DocPages.Text.Blank
import DocPages.Text.Search
import Mathlib.Data.List.DropRight

namespace DocPages.Text

/-- No white space stands at the ends of the text. -/
structure Tight (cs : List Char) : Prop where
  front : ∀ c, cs.head? = some c → isBlank c = false
  back : ∀ c, cs.getLast? = some c → isBlank c = false

theorem trim_eq (cs : List Char) : trim cs = (cs.dropWhile isBlank).rdropWhile isBlank := rfl

/-- What is cut off the end is made of the characters that are cut, and none of them is left there. -/
theorem trimEndBy_spec (p : Char → Bool) (cs : List Char) :
    ∃ cut, cs = trimEndBy p cs ++ cut ∧ (∀ c ∈ cut, p c = true) ∧
      ∀ c ∈ (trimEndBy p cs).getLast?, p c = false := by
  refine ⟨cs.rtakeWhile p, List.rdropWhile_append_rtakeWhile.symm,
    fun c hc => List.mem_rtakeWhile_imp hc, fun c hc => ?_⟩
  have hne : cs.rdropWhile p ≠ [] := by
    rintro hnil
    have hempty : trimEndBy p cs = [] := hnil
    rw [hempty] at hc
    cases hc
  have hlast := List.rdropWhile_last_not p cs hne
  have hc' : (cs.rdropWhile p).getLast? = some c := hc
  rw [List.getLast?_eq_some_getLast hne, Option.some_inj] at hc'
  rw [← hc']
  exact Bool.eq_false_iff.mpr hlast

theorem trimEndBy_cons (p : Char → Bool) (c : Char) (cs : List Char) :
    trimEndBy p (c :: cs) =
      if trimEndBy p cs = [] then trimEndBy p [c] else c :: trimEndBy p cs := by
  unfold trimEndBy
  rw [List.reverse_cons, List.dropWhile_append]
  by_cases hnil : cs.reverse.dropWhile p = []
  · simp [hnil]
  · simp [hnil]

theorem trimEndBy_cons_of_neg {p : Char → Bool} {c : Char} (h : p c = false) (cs : List Char) :
    trimEndBy p (c :: cs) = c :: trimEndBy p cs := by
  rw [trimEndBy_cons]
  split
  · rename_i hnil
    rw [hnil]
    exact trimEndBy_concat_of_neg [] h
  · rfl

theorem trimEndBy_append_of_pos {p : Char → Bool} {cut : List Char} (h : ∀ c ∈ cut, p c = true)
    (cs : List Char) : trimEndBy p (cs ++ cut) = trimEndBy p cs := by
  unfold trimEndBy
  rw [List.reverse_append, List.dropWhile_append_of_pos fun c hc => h c (List.mem_reverse.mp hc)]

/-- Nothing is cut off where the last character stays. -/
theorem trimEndBy_eq_self {p : Char → Bool} {cs : List Char}
    (h : ∀ c ∈ cs.getLast?, p c = false) : trimEndBy p cs = cs := by
  rcases List.eq_nil_or_concat cs with rfl | ⟨front, c, rfl⟩
  · rfl
  · rw [List.concat_eq_append] at h ⊢
    exact trimEndBy_concat_of_neg front (h c (by simp))

/-- A text is cut up to its last character that is not cut. -/
theorem trimEnd_eq_concat_iff {cs front : List Char} {c : Char} (hc : isBlank c = false) :
    trimEnd cs = front ++ [c] ↔ ∃ blanks, cs = front ++ c :: blanks ∧ allBlank blanks = true := by
  constructor
  · intro h
    obtain ⟨cut, hcut, hblank, -⟩ := trimEndBy_spec isBlank cs
    refine ⟨cut, ?_, List.all_eq_true.mpr hblank⟩
    rw [List.append_cons, ← h]
    exact hcut
  · rintro ⟨blanks, rfl, hblanks⟩
    rw [List.append_cons, trimEnd, trimEndBy_append_of_pos (List.all_eq_true.mp hblanks)]
    exact trimEndBy_concat_of_neg front hc

theorem trimEndBy_prefix (p : Char → Bool) (cs : List Char) : trimEndBy p cs <+: cs :=
  List.rdropWhile_prefix p cs

theorem tight_nil : Tight [] := ⟨by simp, by simp⟩

theorem trim_of_tight {cs : List Char} (h : Tight cs) : trim cs = cs := by
  have hfront : cs.dropWhile isBlank = cs := by
    cases cs with
    | nil => rfl
    | cons c cs =>
      rw [List.dropWhile_cons_of_neg]
      simp [h.front c rfl]
  rw [trim_eq, hfront, List.rdropWhile_eq_self_iff]
  intro hne
  have := h.back _ (List.getLast?_eq_some_getLast hne)
  simp [this]

/-- Cutting off characters at the end keeps the first character, if any is left. -/
theorem head?_of_prefix {a b : List Char} (h : a <+: b) {c : Char} (hc : a.head? = some c) :
    b.head? = some c := by
  obtain ⟨t, rfl⟩ := h
  rw [List.head?_append, hc]
  rfl

theorem tight_trim (cs : List Char) : Tight (trim cs) := by
  constructor
  · intro c hc
    rw [trim_eq] at hc
    have hd := head?_of_prefix (List.rdropWhile_prefix isBlank _) hc
    have hnot := List.head?_dropWhile_not isBlank cs
    rw [hd] at hnot
    simpa using hnot
  · intro c hc
    have hne : trim cs ≠ [] := by
      intro he
      simp [he] at hc
    have hlast := List.rdropWhile_last_not isBlank (cs.dropWhile isBlank) hne
    rw [List.getLast?_eq_some_getLast hne, Option.some.injEq] at hc
    rw [← hc]
    exact Bool.eq_false_iff.mpr hlast

theorem trimBy_infix (p : Char → Bool) (cs : List Char) : trimBy p cs <:+: cs :=
  (List.rdropWhile_prefix p _).isInfix.trans (List.dropWhile_suffix p).isInfix

theorem all_dropWhile {p q : Char → Bool} (h : ∀ c, p c = true → q c = true) (cs : List Char) :
    (cs.dropWhile p).all q = cs.all q := by
  have htake : (cs.takeWhile p).all q = true :=
    List.all_eq_true.mpr fun c hc => h c (List.mem_takeWhile_imp hc)
  conv_rhs => rw [← List.takeWhile_append_dropWhile (p := p) (l := cs)]
  rw [List.all_append, htake, Bool.true_and]

/-- White space cut off the ends makes no text blank. -/
theorem allBlank_trimBy {p : Char → Bool} (h : ∀ c, p c = true → isBlank c = true)
    (cs : List Char) : allBlank (trimBy p cs) = allBlank cs := by
  unfold allBlank trimBy trimEndBy
  rw [List.all_reverse, all_dropWhile h, List.all_reverse, all_dropWhile h]

/-! ## Blank texts -/

theorem dropWhile_of_allBlank {cs : List Char} (h : allBlank cs = true) (back : List Char) :
    (cs ++ back).dropWhile isBlank = back.dropWhile isBlank :=
  List.dropWhile_append_of_pos (List.all_eq_true.mp h)

theorem dropWhile_eq_nil_of_allBlank {cs : List Char} (h : allBlank cs = true) :
    cs.dropWhile isBlank = [] :=
  List.dropWhile_eq_nil_iff.mpr (List.all_eq_true.mp h)

theorem dropWhile_of_not_allBlank {cs : List Char} (h : allBlank cs = false)
    (back : List Char) :
    (cs ++ back).dropWhile isBlank = cs.dropWhile isBlank ++ back := by
  have hne : cs.dropWhile isBlank ≠ [] := by
    rw [Ne, List.dropWhile_eq_nil_iff, ← List.all_eq_true]
    exact Bool.eq_false_iff.mp h
  rw [List.dropWhile_append, List.isEmpty_eq_false_iff.mpr hne]
  rfl

theorem trim_dropWhile (cs : List Char) :
    trim (cs.dropWhile isBlank) = trim cs := by
  unfold trim trimBy
  rw [List.dropWhile_idempotent]

theorem trim_of_allBlank {cs : List Char} (h : allBlank cs = true) : trim cs = [] := by
  unfold trim trimBy
  rw [dropWhile_eq_nil_of_allBlank h]
  rfl

/-- Of a text that ends in no white space only the front is trimmed. -/
theorem trim_of_getLast {cs : List Char} (h : ∀ c, cs.getLast? = some c → isBlank c = false) :
    trim cs = cs.dropWhile isBlank := by
  rw [trim_eq, List.rdropWhile_eq_self_iff]
  intro hne
  obtain ⟨front, hfront⟩ := List.dropWhile_suffix (l := cs) isBlank
  have hlast : (front ++ cs.dropWhile isBlank).getLast? =
      some ((cs.dropWhile isBlank).getLast hne) := by
    rw [List.getLast?_append_of_ne_nil _ hne, List.getLast?_eq_some_getLast]
  rw [hfront] at hlast
  simp [h _ hlast]

/-- White space in front of a character that is none does not reach over it. -/
theorem dropWhile_append_cons {c : Char} (hc : isBlank c = false) (front back : List Char) :
    (front ++ c :: back).dropWhile isBlank = front.dropWhile isBlank ++ c :: back := by
  cases hfront : allBlank front with
  | true =>
    rw [dropWhile_of_allBlank hfront, dropWhile_eq_nil_of_allBlank hfront]
    simp [hc]
  | false => exact dropWhile_of_not_allBlank hfront _

/-! ## Joined texts -/

theorem joinWith_eq_intercalate (gap : List Char) (texts : List (List Char)) :
    joinWith gap texts = gap.intercalate texts := by
  induction texts with
  | nil => rfl
  | cons t rest ih =>
    cases rest with
    | nil => simp [joinWith]
    | cons u rest => rw [joinWith, List.intercalate_cons_cons, ih]; simp

theorem mem_joinWith {gap : List Char} {texts : List (List Char)} {c : Char}
    (h : c ∈ joinWith gap texts) : c ∈ gap ∨ ∃ t ∈ texts, c ∈ t := by
  induction texts with
  | nil => cases h
  | cons t rest ih =>
    cases rest with
    | nil => exact Or.inr ⟨t, List.mem_cons_self, h⟩
    | cons u rest =>
      have hjoin : joinWith gap (t :: u :: rest) = t ++ gap ++ joinWith gap (u :: rest) := rfl
      rw [hjoin, List.mem_append, List.mem_append] at h
      rcases h with (h | h) | h
      · exact Or.inr ⟨t, List.mem_cons_self, h⟩
      · exact Or.inl h
      · exact (ih h).imp_right fun ⟨v, hv, hc⟩ => ⟨v, List.mem_cons_of_mem t hv, hc⟩

theorem prefix_joinWith (gap text : List Char) (texts : List (List Char)) :
    text <+: joinWith gap (text :: texts) := by
  cases texts with
  | nil => exact List.prefix_rfl
  | cons u rest =>
    have hjoin : joinWith gap (text :: u :: rest) = text ++ gap ++ joinWith gap (u :: rest) := rfl
    rw [hjoin, List.append_assoc]
    exact List.prefix_append _ _

theorem intercalate_append {gap : List Char} {a b : List (List Char)} (ha : a ≠ [])
    (hb : b ≠ []) : gap.intercalate (a ++ b) = gap.intercalate a ++ gap ++ gap.intercalate b := by
  induction a with
  | nil => exact absurd rfl ha
  | cons t rest ih =>
    rw [List.cons_append, List.intercalate_cons_of_ne_nil (by simp [hb])]
    cases rest with
    | nil => simp
    | cons u rest =>
      rw [ih (by simp), List.intercalate_cons_cons]
      simp only [List.append_assoc]

/-- What is joined from texts that are not empty is empty only if there is no text. -/
theorem intercalate_eq_nil_iff {gap : List Char} {texts : List (List Char)}
    (h : ∀ t ∈ texts, t ≠ []) : gap.intercalate texts = [] ↔ texts = [] := by
  cases texts with
  | nil => simp
  | cons t rest =>
    have ht := h t (by simp)
    cases rest with
    | nil => simp [ht]
    | cons u rest => simp [List.intercalate_cons_cons, ht]

theorem tight_intercalate {gap : List Char} {texts : List (List Char)}
    (h : ∀ t ∈ texts, t ≠ [] ∧ Tight t) : Tight (gap.intercalate texts) := by
  induction texts with
  | nil => exact tight_nil
  | cons t rest ih =>
    obtain ⟨hne, ht⟩ := h t (by simp)
    have hrest := fun u hu => h u (List.mem_cons_of_mem t hu)
    cases hr : rest with
    | nil => simpa using ht
    | cons u more =>
      rw [← hr, List.intercalate_cons_of_ne_nil (by simp [hr])]
      have hne' : gap.intercalate rest ≠ [] := by
        rw [Ne, intercalate_eq_nil_iff fun u hu => (hrest u hu).1]
        simp [hr]
      constructor
      · intro c hc
        rw [List.append_assoc, List.head?_append_of_ne_nil _ hne] at hc
        exact ht.front c hc
      · intro c hc
        rw [List.getLast?_append_of_ne_nil _ hne'] at hc
        exact (ih hrest).back c hc

end DocPages.Text
