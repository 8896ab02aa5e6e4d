-- Heading tags as they are usually written, with attributes between double
-- quotes. The search finds such a tag up to its end, and it finds an `id` in it
-- if and only if the tag has one.
import DocPages.Heading.Anchors
import DocPages.Proofs.Heading.RawTags
import DocPages.Proofs.Markup.Bits

namespace DocPages.Heading

open Markup (Attribute StartTag spaced)

/-! ## Attributes -/

/-- An attribute between double quotes that nothing else can be read out of: its name holds no
blank, and its value neither an angle nor another `id`. -/
structure PlainAttribute (a : Attribute) : Prop where
  quoted : a.Quoted
  name : a.name.all (fun c => !Text.isBlank c) = true
  angle : '>' ∉ a.value
  value : hasId a.value = false

instance (a : Attribute) : Decidable (PlainAttribute a) :=
  decidable_of_iff
    (a.Quoted ∧ a.name.all (fun c => !Text.isBlank c) = true ∧ '>' ∉ a.value ∧
      hasId a.value = false)
    ⟨fun ⟨hq, hn, ha, hv⟩ => ⟨hq, hn, ha, hv⟩, fun ⟨hq, hn, ha, hv⟩ => ⟨hq, hn, ha, hv⟩⟩

theorem startsWithId_name {name : List Char} (hlower : Text.asciiLower name = name)
    (hblank : name.all (fun c => !Text.isBlank c) = true) (hequals : '=' ∉ name)
    (back : List Char) :
    startsWithId (name ++ '=' :: back) = (name == "id".toList) := by
  match name with
  | [] => cases back <;> rfl
  | [i] => simp [startsWithId]
  | [i, d] =>
    have hi : i.toLower = i := (List.cons.inj hlower).1
    have hd : d.toLower = d := (List.cons.inj (List.cons.inj hlower).2).1
    have hblank' : Text.isBlank '=' = false := by decide
    simp [startsWithId, hi, hd, hblank']
  | i :: d :: c :: rest =>
    have hc : Text.isBlank c = false := by simp at hblank; exact hblank.2.2.1
    have hne : ¬ c = '=' := by
      rintro rfl
      simp at hequals
    simp [startsWithId, hc, hne]

theorem hasId_append (front : List Char)
    (h : front.all (fun c => !Text.isBlank c) = true) (back : List Char) :
    hasId (front ++ back) = hasId back := by
  induction front with
  | nil => rfl
  | cons c rest ih =>
    rw [List.all_cons, Bool.and_eq_true, Bool.not_eq_true'] at h
    rw [List.cons_append, hasId, h.1, Bool.false_and, Bool.false_or, ih h.2]

theorem equals_quote (value back : List Char) :
    (((value ++ '\x22' :: back).dropWhile Text.isBlank).head? == some '=') =
      ((value.dropWhile Text.isBlank).head? == some '=') := by
  induction value with
  | nil => rfl
  | cons c rest ih =>
    rw [List.cons_append, List.dropWhile_cons, List.dropWhile_cons]
    split
    · exact ih
    · rfl

theorem startsWithId_quote (value back : List Char) :
    startsWithId (value ++ '\x22' :: back) = startsWithId value := by
  match value with
  | [] => cases back <;> rfl
  | [i] => simp [startsWithId]
  | i :: d :: rest => simp only [List.cons_append, startsWithId, equals_quote]

/-- Up to its quote a value is looked through by itself. -/
theorem hasId_quote (value back : List Char) :
    hasId (value ++ '\x22' :: back) = (hasId value || hasId back) := by
  induction value with
  | nil => rfl
  | cons c rest ih =>
    rw [List.cons_append, hasId, hasId, ih, startsWithId_quote, Bool.or_assoc]

theorem not_mem_name {a : Attribute} (h : a.Quoted) {c : Char}
    (hc : Markup.endsAttributeName c = true) : c ∉ a.name := by
  intro hmem
  have := List.all_eq_true.mp h.plain c hmem
  rw [hc] at this
  cases this

/-- A plain attribute is an `id` if its name says so. -/
theorem hasId_attribute {a : Attribute} (h : PlainAttribute a) (back : List Char) :
    hasId (' ' :: (a.text ++ back)) = ((a.name == "id".toList) || hasId back) := by
  obtain ⟨hquoted, hname, -, hvalue⟩ := h
  have htext : a.text ++ back = a.name ++ '=' :: '\x22' :: (a.value ++ '\x22' :: back) := by
    rw [hquoted.text]
    simp
  have hrest : hasId ('=' :: '\x22' :: (a.value ++ '\x22' :: back)) = hasId back := by
    have hmarks := hasId_append ['=', '\x22'] (by decide) (a.value ++ '\x22' :: back)
    rw [hasId_quote, hvalue, Bool.false_or] at hmarks
    exact hmarks
  have hspace : Text.isBlank ' ' = true := by decide
  rw [htext, hasId, hspace, Bool.true_and, startsWithId_name hquoted.lower hname
    (not_mem_name hquoted (by decide)), hasId_append _ hname, hrest]

theorem hasId_spaced {attributes : List Attribute} (h : ∀ a ∈ attributes, PlainAttribute a)
    (back : List Char) :
    hasId (spaced attributes ++ back) =
      (attributes.any (fun a => a.name == "id".toList) || hasId back) := by
  induction attributes with
  | nil => rfl
  | cons a rest ih =>
    have hsplit : spaced (a :: rest) ++ back = ' ' :: (a.text ++ (spaced rest ++ back)) := by
      simp [spaced]
    rw [hsplit, hasId_attribute (h a List.mem_cons_self),
      ih fun x hx => h x (List.mem_cons_of_mem a hx), List.any_cons, Bool.or_assoc]

theorem angle_not_mem_spaced {attributes : List Attribute}
    (h : ∀ a ∈ attributes, PlainAttribute a) : '>' ∉ spaced attributes := by
  intro hmem
  obtain ⟨a, ha, hmem⟩ := List.mem_flatMap.mp hmem
  obtain ⟨hquoted, -, hangle, -⟩ := h a ha
  rw [hquoted.text] at hmem
  simp only [List.mem_cons, List.mem_append, List.not_mem_nil, or_false] at hmem
  rcases hmem with h | h | h | h | h | h
  · cases h
  · exact not_mem_name hquoted (by decide) h
  · cases h
  · cases h
  · exact hangle h
  · cases h

/-! ## Tags -/

/-- The tag of a heading with plain attributes is found, and its `id` is, too. -/
theorem countBare_heading {tag : StartTag} (hname : isHeadingName tag.name = true)
    (h : ∀ a ∈ tag.attributes, PlainAttribute a) :
    countBare 0 tag.chars = if tag.has "id" then 0 else 1 := by
  obtain ⟨name, attributes, selfClosing⟩ := tag
  unfold isHeadingName at hname
  split at hname
  · rename_i a d heq
    subst heq
    have hchars : (StartTag.mk [a, d] attributes selfClosing).chars = '<' :: a :: d ::
        (spaced attributes ++ (if selfClosing then [' ', '/'] else []) ++ '>' :: []) := by
      cases selfClosing <;> simp [StartTag.chars, spaced]
    have hangle : '>' ∉ spaced attributes ++ (if selfClosing then [' ', '/'] else []) := by
      rw [List.mem_append, not_or]
      refine ⟨angle_not_mem_spaced h, ?_⟩
      cases selfClosing <;> decide
    have hends : endsHeading
        (spaced attributes ++ (if selfClosing then [' ', '/'] else [])) = true := by
      cases attributes with
      | nil => cases selfClosing <;> decide
      | cons b rest => exact Bool.or_true _
    have hslash : hasId (if selfClosing then [' ', '/'] else []) = false := by
      cases selfClosing <;> decide
    rw [hchars, countBare_tag hname hangle hends, hasId_spaced h, hslash, Bool.or_false]
    rfl
  · cases hname

end DocPages.Heading
