-- What anchors are made of. Whether one is made from a heading text, given by the
-- author or told apart by a number, it is not empty and holds no separator but
-- dashes and underscores, so it can be written into a tag as it is.
import DocPages.Proofs.Heading.Distinct
import DocPages.Proofs.Text.Attribute
import DocPages.Proofs.Text.LetterCase
import DocPages.Proofs.Text.Trim
import DocPages.Markup.StartTag

namespace DocPages.Heading

variable {c d : Char} {cs : List Char} {slug : String}

/-- A character that may stand in an anchor: no separator, or a dash or an underscore. -/
def isSlugChar (c : Char) : Bool := !isSeparator c || c == '-' || c == '_'

/-- An anchor that is not empty, of characters that may stand in one. -/
structure Fit (slug : String) : Prop where
  ne_nil : slug.toList ≠ []
  chars : ∀ c ∈ slug.toList, isSlugChar c = true

/-! ## Anchors from text -/

/-- The code points of separators. -/
def separatorRanges : List (Nat × Nat) :=
  Text.blankRanges ++ separators.map fun c => (c.toNat, c.toNat)

theorem isSeparator_eq (c : Char) : isSeparator c = Text.inRanges separatorRanges c := by
  have hseparators : separators.contains c =
      (separators.map fun c => (c.toNat, c.toNat)).any fun r => r.1 ≤ c.toNat && c.toNat ≤ r.2 := by
    rw [Bool.eq_iff_iff, List.contains_iff_mem, List.any_map, List.any_eq_true]
    constructor
    · intro h
      exact ⟨c, h, by simp⟩
    · rintro ⟨d, hd, hcode⟩
      simp only [Function.comp_apply, Bool.and_eq_true, decide_eq_true_eq] at hcode
      rwa [← Char.toNat_inj.mp (Nat.le_antisymm hcode.1 hcode.2)]
  unfold isSeparator separatorRanges Text.isBlank Text.inRanges
  rw [List.any_append, hseparators]

/-- No separator comes in with lower case. -/
theorem isSeparator_lowerChar (hc : isSeparator c = false) (hd : d ∈ Text.lowerChar c) :
    isSeparator d = false := by
  rw [isSeparator_eq] at hc ⊢
  exact Text.inRanges_lowerChar (by decide +kernel) (by decide) hc hd

/-- Lower case brings no character into an anchor that may not stand there. -/
theorem isSlugChar_lowerChar (hc : isSlugChar c = true) (hd : d ∈ Text.lowerChar c) :
    isSlugChar d = true := by
  simp only [isSlugChar, Bool.or_eq_true, Bool.not_eq_true', beq_iff_eq] at hc
  rcases hc with (hc | rfl) | rfl
  · rw [isSlugChar, isSeparator_lowerChar hc hd]
    rfl
  · have hdash : Text.lowerChar '-' = ['-'] := by decide +kernel
    rw [hdash] at hd
    rw [List.mem_singleton.mp hd]
    rfl
  · have hscore : Text.lowerChar '_' = ['_'] := by decide +kernel
    rw [hscore] at hd
    rw [List.mem_singleton.mp hd]
    rfl

/-- Only dashes come in for the runs of separators, and no other separator is left. -/
theorem mem_dashRuns (inRun : Bool) (h : c ∈ dashRuns inRun cs) :
    c = '-' ∨ isSeparator c = false ∧ c ∈ cs := by
  induction cs generalizing inRun with
  | nil => cases h
  | cons d cs ih =>
    have hrest : ∀ b, c ∈ dashRuns b cs → c = '-' ∨ isSeparator c = false ∧ c ∈ d :: cs :=
      fun b h => (ih b h).imp_right fun ⟨hc, hmem⟩ => ⟨hc, List.mem_cons_of_mem d hmem⟩
    rw [dashRuns] at h
    split at h
    · split at h
      · exact hrest true h
      · exact (List.mem_cons.mp h).elim .inl (hrest true)
    · rename_i hd
      rcases List.mem_cons.mp h with rfl | h
      · exact .inr ⟨Bool.eq_false_iff.mpr hd, List.mem_cons_self⟩
      · exact hrest false h

theorem isSlugChar_words (h : c ∈ words cs) : isSlugChar c = true := by
  rcases mem_dashRuns false ((Text.trimBy_infix _ _).subset h) with rfl | ⟨hc, -⟩
  · rfl
  · rw [isSlugChar, hc]
    rfl

/-- Whether a text begins with a digit. -/
def startsWithDigit (cs : List Char) : Bool := cs.head?.any Text.isDecimalDigit

theorem guardDigit_eq (cs : List Char) :
    guardDigit cs = if startsWithDigit cs then '_' :: cs else cs := by
  cases cs <;> rfl

theorem subset_guardDigit (cs : List Char) : cs ⊆ guardDigit cs := by
  rw [guardDigit_eq]
  split
  · exact List.subset_cons_self '_' cs
  · exact List.Subset.refl cs

theorem mem_guardDigit (h : c ∈ guardDigit cs) : c = '_' ∨ c ∈ cs := by
  rw [guardDigit_eq] at h
  split at h
  · exact List.mem_cons.mp h
  · exact .inr h

theorem isSlugChar_guardDigit (hcs : ∀ c ∈ cs, isSlugChar c = true) (h : c ∈ guardDigit cs) :
    isSlugChar c = true := by
  rcases mem_guardDigit h with rfl | h
  · rfl
  · exact hcs c h

theorem guardDigit_ne_nil (h : cs ≠ []) : guardDigit cs ≠ [] := fun hnil =>
  h (List.subset_nil.mp (hnil ▸ subset_guardDigit cs))

/-- An anchor made from a text is fit. -/
theorem fit_slugify (text : String) : Fit (slugify text) := by
  unfold slugify slugChars
  constructor
  · rw [String.toList_ofList]
    split
    · decide
    · rename_i hwords
      exact Text.lowerCase_ne_nil (guardDigit_ne_nil hwords)
  · rw [String.toList_ofList]
    split
    · exact List.all_eq_true.mp (by decide)
    · exact Text.forall_mem_lowerCase (by decide +kernel) (by decide +kernel) fun c hc d hd =>
        isSlugChar_lowerChar (isSlugChar_guardDigit (fun _ => isSlugChar_words) hc) hd

/-! ## Anchors of the author's own -/

theorem toNat_lt_of_isIdChar (h : isIdChar c = true) : c.toNat < 128 := by
  simp only [isIdChar, Char.isAlphanum, Bool.or_eq_true, beq_iff_eq] at h
  rcases h with ((halpha | hdigit) | rfl) | rfl
  · have hcased : (c.isUpper || c.isLower) = true := halpha
    rcases (Bool.or_eq_true _ _).mp hcased with hupper | hlower
    · have hrange : 'A'.val ≤ c.val ∧ c.val ≤ 'Z'.val := of_decide_eq_true hupper
      exact (UInt32.le_iff_toNat_le.mp hrange.2).trans_lt (by decide)
    · have hrange : (decide ('a'.val ≤ c.val) && decide (c.val ≤ 'z'.val)) = true := hlower
      have hlast := of_decide_eq_true (Bool.and_eq_true_iff.mp hrange).2
      exact (UInt32.le_iff_toNat_le.mp hlast).trans_lt (by decide)
  · exact (Char.isDigit_iff_toNat.mp hdigit).2.trans_lt (by decide)
  · decide
  · decide

theorem isSlugChar_of_isIdChar (h : isIdChar c = true) : isSlugChar c = true := by
  have hall : ∀ n < 128, isIdChar (Char.ofNat n) = true → isSlugChar (Char.ofNat n) = true := by
    decide +kernel
  have hc := hall c.toNat (toNat_lt_of_isIdChar h)
  rw [Char.ofNat_toNat] at hc
  exact hc h

/-- An anchor that a heading text gives is fit. -/
theorem fit_customId {text title id : String} (h : splitCustomId text = (title, some id)) :
    Fit id := by
  unfold splitCustomId at h
  split at h
  · rename_i front ending hsplit
    cases h
    unfold customIdChars? at hsplit
    simp only [Option.bind_eq_bind, Option.bind_eq_some_iff] at hsplit
    obtain ⟨inner, -, ⟨before, inside⟩, -, hid⟩ := hsplit
    split at hid
    · rename_i hgood
      cases hid
      rw [Bool.and_eq_true, Bool.not_eq_true', List.isEmpty_eq_false_iff, List.all_eq_true] at hgood
      constructor
      · rw [String.toList_ofList]
        exact hgood.1
      · rw [String.toList_ofList]
        exact fun c hc => isSlugChar_of_isIdChar (hgood.2 c hc)
    · cases hid
  · cases h

/-! ## Anchors with numbers -/

theorem fit_numbered (h : Fit slug) (number : Nat) : Fit (Slugger.numbered slug number) := by
  unfold Slugger.numbered
  constructor
  · rw [String.toList_append, String.toList_append]
    simp [h.ne_nil]
  · rw [String.toList_append, String.toList_append, List.forall_mem_append, List.forall_mem_append]
    refine ⟨⟨h.chars, List.all_eq_true.mp (by decide)⟩, fun c hc => ?_⟩
    rw [Nat.toString_eq_repr, Nat.toList_repr] at hc
    have hdigit := Nat.isDigit_of_mem_toDigits (b := 10) (by decide) (by decide) hc
    exact isSlugChar_of_isIdChar (by simp [isIdChar, Char.isAlphanum, hdigit])

theorem Slugger.fit_claim (s : Slugger) (h : Fit slug) : Fit (s.claim slug).1 := by
  unfold Slugger.claim
  split
  · exact h
  · exact fit_numbered h _

/-- A heading text gets an anchor that is fit. -/
theorem Slugger.fit_named (s : Slugger) (text : String) : Fit (s.named text).2.1 := by
  unfold Slugger.named
  split
  · rename_i hid
    exact s.fit_claim (fit_customId hid)
  · exact s.fit_claim (fit_slugify _)

/-! ## Anchors of a page -/

theorem headersFrom_fit (s : Slugger) (list : List Entry) :
    ∀ h ∈ headersFrom s list, Fit h.slug := by
  induction list generalizing s with
  | nil => exact List.forall_mem_nil _
  | cons e rest ih =>
    cases e with
    | heading level text => exact List.forall_mem_cons.mpr ⟨s.fit_named text, ih _⟩
    | text text => exact ih s
    | bareTag => exact ih s

/-! ## The law -/

/-- The characters that mean something in markup or in a template: quotes of every kind, angles,
ampersands and braces. -/
def markupChars : List Char :=
  ['\x22', '\x27', Char.ofNat 0x201C, Char.ofNat 0x201D, Char.ofNat 0x2018, Char.ofNat 0x2019, '<',
    '>', '&', '\x7b', '\x7d']

theorem plain_of_isSlugChar (h : isSlugChar c = true) :
    Text.isBlank c = false ∧ c ∉ markupChars := by
  simp only [isSlugChar, Bool.or_eq_true, Bool.not_eq_true', beq_iff_eq] at h
  rcases h with (h | rfl) | rfl
  · rw [isSeparator, Bool.or_eq_false_iff] at h
    refine ⟨h.1, fun hmem => ?_⟩
    have hall : markupChars.all separators.contains = true := by decide
    rw [List.all_eq_true.mp hall c hmem] at h
    cases h.2
  · exact ⟨by decide, by decide⟩
  · exact ⟨by decide, by decide⟩

theorem isMarked_of_isSlugChar (h : isSlugChar c = true) : Text.isMarked c = false := by
  refine Bool.eq_false_iff.mpr fun hmarked => (plain_of_isSlugChar h).2 ?_
  rcases Text.marked_cases hmarked with rfl | rfl | rfl | rfl | rfl
  all_goals decide

/-- An anchor that is fit is written into a tag as it is. -/
theorem Fit.quotedValue_eq (h : Fit slug) : Markup.quotedValue slug.toList = slug.toList := by
  unfold Markup.quotedValue
  rw [List.flatMap_congr (g := fun c => [c]) fun c hc => ?_]
  · exact List.flatMap_singleton' _
  · rw [if_neg]
    rw [beq_iff_eq]
    rintro rfl
    exact (plain_of_isSlugChar (h.chars _ hc)).2 (by decide)

/-- The headings of a page have distinct anchors. None of them is empty or holds white space or a
character that means something in markup, and each can be written as the value of an attribute as it
is. The anchors that are to be placed on a page are those of its headings, in order, with gaps for
heading tags. -/
theorem anchors_are_distinct_and_fit_for_a_tag (root : Markdown.Node) :
    ((outline root).headers.map Header.slug).Nodup ∧
      (∀ h ∈ (outline root).headers, h.slug ≠ "" ∧
        (∀ c ∈ h.slug.toList, Text.isBlank c = false ∧ c ∉ markupChars) ∧
        Text.attributeText h.slug.toList = h.slug.toList ∧
        Markup.quotedValue h.slug.toList = h.slug.toList) ∧
      (outline root).anchors.filterMap id = (outline root).headers.map Header.slug := by
  refine ⟨outline_slugs_nodup root, ?_, ?_⟩
  · intro h hh
    rw [outline_eq, ofEntries_eq] at hh
    have hfit := headersFrom_fit _ _ h hh
    refine ⟨fun hempty => ?_, fun c hc => plain_of_isSlugChar (hfit.chars c hc),
      Text.attributeText_of_plain fun c hc => isMarked_of_isSlugChar (hfit.chars c hc),
      hfit.quotedValue_eq⟩
    exact hfit.ne_nil (by rw [hempty]; rfl)
  · rw [outline_eq, ofEntries_eq]
    exact anchorsFrom_filterMap _ _

end DocPages.Heading
