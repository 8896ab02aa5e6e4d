-- What a list of entries comes to. The outline is put together from the last
-- entry back; read from the front, each heading opens a section with the
-- texts up to the next heading, and the anchors stand in the order of their
-- entries.
import DocPages.Heading.Outline

namespace DocPages.Heading

/-! ## The outline, read from the front -/

/-- The title and the anchor of a heading text, and the slugger that has given it. -/
def Slugger.named (s : Slugger) (text : String) : String × String × Slugger :=
  match splitCustomId text with
  | (title, some id) => (title, s.claim id)
  | (title, none) => (title, s.next title)

/-- The texts in front of the next heading. -/
def sectionTexts : List Entry → List String
  | [] => []
  | .heading .. :: _ => []
  | .text text :: rest => text :: sectionTexts rest
  | .bareTag :: rest => sectionTexts rest

/-- The headings in order, each with the texts up to the next one. -/
def headersFrom (s : Slugger) : List Entry → List Header
  | [] => []
  | .heading level text :: rest =>
    let (title, slug, s) := s.named text
    ⟨level, title, slug, "\n".intercalate (sectionTexts rest)⟩ :: headersFrom s rest
  | _ :: rest => headersFrom s rest

/-- The anchors in order: one for each heading, and none for each heading tag. -/
def anchorsFrom (s : Slugger) : List Entry → List (Option String)
  | [] => []
  | .heading _ text :: rest =>
    let (_, slug, s) := s.named text
    some slug :: anchorsFrom s rest
  | .text _ :: rest => anchorsFrom s rest
  | .bareTag :: rest => none :: anchorsFrom s rest

/-! ## Putting entries together -/

/-- The headers of sections, where texts come behind those of the section opened last. -/
def openedHeaders (texts : List String) : List Section → List Header
  | [] => []
  | s :: rest =>
    (rest.map Section.header).reverse ++ [{ s with texts := texts.reverse ++ s.texts }.header]

theorem openedHeaders_nil (sections : List Section) :
    openedHeaders [] sections = (sections.map Section.header).reverse := by
  cases sections with
  | nil => rfl
  | cons s rest => simp [openedHeaders]

theorem addHeading_eq (d : Draft) (level : Nat) (text : String) :
    d.addHeading level text =
      ⟨(d.slugger.named text).2.2,
        ⟨level, (d.slugger.named text).1, (d.slugger.named text).2.1, []⟩ :: d.sections,
        some (d.slugger.named text).2.1 :: d.anchors⟩ := by
  unfold Draft.addHeading Slugger.named
  rcases splitCustomId text with ⟨title, _ | id⟩ <;> rfl

theorem foldl_add_headers (list : List Entry) (d : Draft) :
    ((list.foldl Draft.add d).sections.map Section.header).reverse =
      openedHeaders (sectionTexts list) d.sections ++ headersFrom d.slugger list := by
  induction list generalizing d with
  | nil => simp [sectionTexts, headersFrom, openedHeaders_nil]
  | cons e rest ih =>
    rw [List.foldl_cons, ih]
    cases e with
    | heading level text =>
      simp only [Draft.add, addHeading_eq, sectionTexts, headersFrom]
      rw [openedHeaders_nil]
      simp [openedHeaders, Section.header]
    | text text =>
      simp only [Draft.add, Draft.addText, sectionTexts, headersFrom]
      cases hs : d.sections with
      | nil => simp [hs, openedHeaders]
      | cons s more => simp [openedHeaders]
    | bareTag => rfl

theorem foldl_add_anchors (list : List Entry) (d : Draft) :
    (list.foldl Draft.add d).anchors.reverse = d.anchors.reverse ++ anchorsFrom d.slugger list := by
  induction list generalizing d with
  | nil => simp [anchorsFrom]
  | cons e rest ih =>
    rw [List.foldl_cons, ih]
    cases e with
    | heading level text => simp [Draft.add, addHeading_eq, anchorsFrom]
    | text text =>
      simp only [Draft.add, Draft.addText, anchorsFrom]
      cases d.sections <;> rfl
    | bareTag => simp [Draft.add, anchorsFrom]

/-- The outline of a list of entries, read from the front. -/
theorem ofEntries_eq (list : List Entry) :
    Outline.ofEntries list = ⟨headersFrom .empty list, anchorsFrom .empty list⟩ := by
  unfold Outline.ofEntries
  dsimp only
  rw [foldl_add_headers, foldl_add_anchors]
  rfl

/-- The nodes below a node, which has none if it is of a kind without children. -/
def below (root : Markdown.Node) : List Markdown.Node := root.children?.getD []

theorem outline_eq (root : Markdown.Node) :
    outline root = Outline.ofEntries (allEntries (below root)) := by
  unfold outline below
  cases root.children? <;> rfl

/-- The anchors that are there are those of the headings, in order. -/
theorem anchorsFrom_filterMap (s : Slugger) (list : List Entry) :
    (anchorsFrom s list).filterMap id = (headersFrom s list).map Header.slug := by
  induction list generalizing s with
  | nil => rfl
  | cons e rest ih =>
    cases e with
    | heading level text =>
      exact congrArg (List.cons (s.named text).2.1) (ih (s.named text).2.2)
    | text text => exact ih s
    | bareTag => exact ih s

/-! ## Entries that come to the same -/

/-- The text of the section that entries begin with. -/
def sectionText (list : List Entry) : String := "\n".intercalate (sectionTexts list)

/-- Two lists of entries give the same headings and anchors, whatever stands in front of them. -/
structure Same (a b : List Entry) : Prop where
  headers : ∀ s, headersFrom s a = headersFrom s b
  anchors : ∀ s, anchorsFrom s a = anchorsFrom s b
  text : sectionText a = sectionText b
  bare : sectionTexts a = [] ↔ sectionTexts b = []

theorem Same.refl (a : List Entry) : Same a a := ⟨fun _ => rfl, fun _ => rfl, rfl, Iff.rfl⟩

theorem Same.trans {a b c : List Entry} (h : Same a b) (h' : Same b c) : Same a c :=
  ⟨fun s => (h.headers s).trans (h'.headers s), fun s => (h.anchors s).trans (h'.anchors s),
    h.text.trans h'.text, h.bare.trans h'.bare⟩

/-- One text in front of further ones, joined. -/
theorem intercalate_text (text : String) (texts : List String) :
    "\n".intercalate (text :: texts) =
      if texts = [] then text else text ++ "\n" ++ "\n".intercalate texts := by
  split
  · rename_i h
    rw [h, String.intercalate_singleton]
  · rename_i h
    rw [String.intercalate_cons_of_ne_nil h]

theorem Same.cons {a b : List Entry} (e : Entry) (h : Same a b) : Same (e :: a) (e :: b) := by
  obtain ⟨hh, ha, ht, hb⟩ := h
  unfold sectionText at ht
  cases e with
  | heading level text =>
    refine ⟨fun s => ?_, fun s => ?_, rfl, Iff.rfl⟩
    · simp only [headersFrom, ht, hh]
    · simp only [anchorsFrom, ha]
  | text text =>
    refine ⟨hh, ha, ?_, by simp [sectionTexts]⟩
    unfold sectionText
    rw [sectionTexts, sectionTexts, intercalate_text, intercalate_text, ht]
    simp only [hb]
  | bareTag => exact ⟨hh, fun s => by simp only [anchorsFrom, ha], ht, hb⟩

theorem Same.append_left {a b : List Entry} (front : List Entry) (h : Same a b) :
    Same (front ++ a) (front ++ b) := by
  induction front with
  | nil => exact h
  | cons e rest ih => exact ih.cons e

/-! ## Entries without headings -/

/-- Whether an entry is a heading. -/
def Entry.isHeading : Entry → Bool
  | .heading .. => true
  | _ => false

/-- No entry is a heading. -/
def Flat (list : List Entry) : Prop := ∀ e ∈ list, e.isHeading = false

theorem Flat.append {a b : List Entry} (ha : Flat a) (hb : Flat b) : Flat (a ++ b) := by
  intro e he
  rcases List.mem_append.mp he with h | h
  · exact ha e h
  · exact hb e h

theorem Flat.headersFrom {list : List Entry} (h : Flat list) (s : Slugger) (back : List Entry) :
    headersFrom s (list ++ back) = Heading.headersFrom s back := by
  induction list with
  | nil => rfl
  | cons e rest ih =>
    have hrest := ih fun x hx => h x (List.mem_cons_of_mem e hx)
    cases e with
    | heading level text => cases h _ List.mem_cons_self
    | text text => exact hrest
    | bareTag => exact hrest

theorem Flat.anchorsFrom {list : List Entry} (h : Flat list) (s : Slugger) (back : List Entry) :
    anchorsFrom s (list ++ back) =
      List.replicate (list.count .bareTag) none ++ Heading.anchorsFrom s back := by
  induction list with
  | nil => rfl
  | cons e rest ih =>
    have hrest := ih fun x hx => h x (List.mem_cons_of_mem e hx)
    cases e with
    | heading level text => cases h _ List.mem_cons_self
    | text text => simpa [Heading.anchorsFrom] using hrest
    | bareTag => simp [Heading.anchorsFrom, hrest, List.replicate_succ]

theorem Flat.sectionTexts {list : List Entry} (h : Flat list) (back : List Entry) :
    sectionTexts (list ++ back) = Heading.sectionTexts list ++ Heading.sectionTexts back := by
  induction list with
  | nil => rfl
  | cons e rest ih =>
    have hrest := ih fun x hx => h x (List.mem_cons_of_mem e hx)
    cases e with
    | heading level text => cases h _ List.mem_cons_self
    | text text => simp [Heading.sectionTexts, hrest]
    | bareTag => exact hrest

/-- Entries without headings come to the same if they have the same text and as many heading
tags. -/
theorem same_of_flat {a b : List Entry} (ha : Flat a) (hb : Flat b)
    (htags : a.count .bareTag = b.count .bareTag) (htext : sectionText a = sectionText b)
    (hbare : sectionTexts a = [] ↔ sectionTexts b = []) (back : List Entry) :
    Same (a ++ back) (b ++ back) := by
  refine ⟨fun s => ?_, fun s => ?_, ?_, ?_⟩
  · rw [ha.headersFrom, hb.headersFrom]
  · rw [ha.anchorsFrom, hb.anchorsFrom, htags]
  · unfold sectionText at htext ⊢
    rw [ha.sectionTexts, hb.sectionTexts]
    by_cases hnil : sectionTexts a = []
    · rw [hnil, hbare.mp hnil]
    · by_cases hback : sectionTexts back = []
      · rw [hback, List.append_nil, List.append_nil, htext]
      · rw [String.intercalate_append_of_ne_nil hnil hback,
          String.intercalate_append_of_ne_nil (fun h => hnil (hbare.mpr h)) hback, htext]
  · rw [ha.sectionTexts, hb.sectionTexts, List.append_eq_nil_iff, List.append_eq_nil_iff, hbare]

theorem Same.ofEntries_eq {a b : List Entry} (h : Same a b) :
    Outline.ofEntries a = Outline.ofEntries b := by
  rw [Heading.ofEntries_eq, Heading.ofEntries_eq, h.headers, h.anchors]

end DocPages.Heading
