-- Text inside a quoted attribute read back. In one pass from left to right
-- each reference becomes the character that it stands for, which undoes the
-- writing; and what is written holds nothing that could end the attribute.
import DocPages.Text.Attribute
import DocPages.Text.Search

namespace DocPages.Text

/-! ## Reading -/

/-- The references, and the characters that they stand for. -/
def references : List (List Char × Char) :=
  [("&amp;".toList, '&'), ("&lt;".toList, '<'), ("&gt;".toList, '>'), ("&quot;".toList, '\x22'),
    ("&#x27;".toList, '\x27')]

/-- The replacement of a reference by its character. -/
def readReference (_start : Bool) (cs : List Char) : Option Replacement :=
  (references.find? fun r => startsWith r.1 cs).map fun r => ⟨r.1.length - 1, [r.2]⟩

/-- The text that stands inside a quoted attribute, each reference read once. -/
def attributeValue (cs : List Char) : List Char := replaceBy readReference cs

/-! ## Reading what has been written -/

/-- The characters that are written as references. -/
def isMarked (c : Char) : Bool := c == '&' || c == '<' || c == '>' || c == '\x22' || c == '\x27'

theorem attributeChar_of_plain {c : Char} (h : isMarked c = false) : attributeChar c = [c] := by
  simp only [isMarked, Bool.or_eq_false_iff, beq_eq_false_iff_ne] at h
  obtain ⟨⟨⟨⟨h1, h2⟩, h3⟩, h4⟩, h5⟩ := h
  unfold attributeChar
  split
  · exact absurd rfl h1
  · exact absurd rfl h2
  · exact absurd rfl h3
  · exact absurd rfl h4
  · exact absurd rfl h5
  · rfl

/-- A text without marked characters is written as it is. -/
theorem attributeText_of_plain {cs : List Char} (h : ∀ c ∈ cs, isMarked c = false) :
    attributeText cs = cs := by
  unfold attributeText
  induction cs with
  | nil => rfl
  | cons c cs ih =>
    rw [List.forall_mem_cons] at h
    rw [List.flatMap_cons, attributeChar_of_plain h.1, ih h.2, List.singleton_append]

theorem marked_cases {c : Char} (h : isMarked c = true) :
    c = '&' ∨ c = '<' ∨ c = '>' ∨ c = '\x22' ∨ c = '\x27' := by
  simpa [isMarked, or_assoc] using h

theorem readReference_of_plain {c : Char} (h : isMarked c = false) (start : Bool)
    (cs : List Char) : readReference start (c :: cs) = none := by
  have hc : ('&' == c) = false := by
    simp only [isMarked, Bool.or_eq_false_iff, beq_eq_false_iff_ne] at h
    simpa using h.1.1.1.1.symm
  simp [readReference, references, startsWith, List.isPrefixOf, hc]

/-- What is written for one character is read as that character. -/
theorem replaceFrom_attributeChar (start : Bool) (c : Char) (back : List Char) :
    replaceFrom readReference start 0 (attributeChar c ++ back) =
      c :: replaceFrom readReference false 0 back := by
  cases hc : isMarked c with
  | false =>
    rw [attributeChar_of_plain hc, List.singleton_append, replaceFrom,
      readReference_of_plain hc]
  | true =>
    rcases marked_cases hc with rfl | rfl | rfl | rfl | rfl
    all_goals
      simp [attributeChar, replaceFrom, readReference, references, startsWith, List.isPrefixOf]

theorem replaceFrom_attributeText (start : Bool) (cs : List Char) :
    replaceFrom readReference start 0 (attributeText cs) = cs := by
  induction cs generalizing start with
  | nil => rfl
  | cons c cs ih =>
    unfold attributeText at ih ⊢
    rw [List.flatMap_cons, replaceFrom_attributeChar, ih]

/-- What is written inside a quoted attribute reads back. -/
theorem attributeValue_attributeText (cs : List Char) : attributeValue (attributeText cs) = cs :=
  replaceFrom_attributeText true cs

/-! ## What is written -/

/-- The characters that references are made of. -/
def referenceChars : List Char := references.flatMap (·.1)

theorem mem_referenceChars {c x : Char} (h : isMarked c = true) (hx : x ∈ attributeChar c) :
    x ∈ referenceChars := by
  have hall : (attributeChar c).all referenceChars.contains = true := by
    rcases marked_cases h with rfl | rfl | rfl | rfl | rfl
    all_goals decide
  exact List.contains_iff_mem.mp (List.all_eq_true.mp hall x hx)

/-- A character of a written text belongs to a reference, or it is one of the text that needs
none. -/
theorem mem_attributeText {cs : List Char} {x : Char} (h : x ∈ attributeText cs) :
    x ∈ referenceChars ∨ x ∈ cs ∧ isMarked x = false := by
  obtain ⟨c, hc, hx⟩ := List.mem_flatMap.mp h
  cases hmarked : isMarked c with
  | true => exact .inl (mem_referenceChars hmarked hx)
  | false =>
    rw [attributeChar_of_plain hmarked, List.mem_singleton] at hx
    subst hx
    exact .inr ⟨hc, hmarked⟩

/-- Neither a quote nor an angle stands in a written text. -/
theorem not_mem_attributeText {x : Char} (h : x ∈ ['\x22', '\x27', '<', '>']) (cs : List Char) :
    x ∉ attributeText cs := by
  have hall : ['\x22', '\x27', '<', '>'].all
      (fun y => !referenceChars.contains y && isMarked y) = true := by decide
  have hplain := List.all_eq_true.mp hall x h
  rw [Bool.and_eq_true, Bool.not_eq_true'] at hplain
  obtain ⟨href, hmarked⟩ := hplain
  intro hx
  rcases mem_attributeText hx with hx | ⟨-, hx⟩
  · rw [List.contains_iff_mem.mpr hx] at href
    cases href
  · rw [hmarked] at hx
    cases hx

/-- A character that no reference is made of does not come in by writing. -/
theorem not_mem_attributeText_of {cs : List Char} {x : Char} (href : x ∉ referenceChars)
    (h : x ∉ cs) : x ∉ attributeText cs := by
  intro hx
  rcases mem_attributeText hx with hx | ⟨hx, -⟩
  · exact href hx
  · exact h hx

end DocPages.Text
