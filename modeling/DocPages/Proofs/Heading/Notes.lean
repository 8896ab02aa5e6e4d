-- What the tree says of its headings beside their text: whether raw markup
-- stands among them, which takes a place in the list of anchors, and which of
-- them stand in notes, which a page shows at its end or not at all.
import DocPages.Proofs.Heading.Visits

namespace DocPages.Heading

open Markdown (Node)

/-! ## Trees without raw markup -/

mutual

/-- Whether a node is raw markup or holds some. -/
def isRaw : Node → Bool
  | .html _ => true
  | .heading _ children => anyRaw children
  | .paragraph children => anyRaw children
  | .parent _ children => anyRaw children
  | _ => false

/-- Whether nodes in a row hold raw markup. -/
def anyRaw : List Node → Bool
  | [] => false
  | node :: rest => isRaw node || anyRaw rest

end

mutual

theorem bareTagsIn_plain (node : Node) (h : isRaw node = false) : bareTagsIn node = [] := by
  cases node with
  | html value => cases h
  | heading depth children => exact bareTagsInAll_plain children h
  | paragraph children => exact bareTagsInAll_plain children h
  | parent kind children => exact bareTagsInAll_plain children h
  | _ => rfl

theorem bareTagsInAll_plain (nodes : List Node) (h : anyRaw nodes = false) :
    bareTagsInAll nodes = [] := by
  cases nodes with
  | nil => rfl
  | cons node rest =>
    rw [anyRaw, Bool.or_eq_false_iff] at h
    rw [bareTagsInAll, bareTagsIn_plain node h.1, bareTagsInAll_plain rest h.2]
    rfl

end

theorem not_mem_unit (cs : List Char) (e : Entry) (h : ∀ text, e ≠ .text text) : e ∉ unit cs := by
  unfold unit
  split
  · exact List.not_mem_nil
  · rw [List.mem_singleton]
    exact h _

theorem not_mem_leaf (cs : List Char) (e : Entry) (h : ∀ text, e ≠ .text text) :
    e ∉ unit cs ++ [] := by
  rw [List.append_nil]
  exact not_mem_unit cs e h

mutual

theorem not_mem_pass (node : Node) (h : isRaw node = false) : Entry.bareTag ∉ pass node := by
  have htext : ∀ text, Entry.bareTag ≠ .text text := fun _ => Entry.noConfusion
  have hleaf := not_mem_leaf (shown node) .bareTag htext
  cases node with
  | html value => cases h
  | heading depth children =>
    rw [pass_heading, bareTagsInAll_plain children h, List.mem_singleton]
    exact Entry.noConfusion
  | paragraph children =>
    rw [pass_paragraph, bareTagsInAll_plain children h, List.append_nil]
    exact not_mem_unit _ _ htext
  | parent kind children =>
    rw [pass_parent]
    exact not_mem_passAll children h
  | code lang info value => exact List.not_mem_nil
  | _ => exact hleaf

theorem not_mem_passAll (nodes : List Node) (h : anyRaw nodes = false) :
    Entry.bareTag ∉ passAll nodes := by
  cases nodes with
  | nil => exact List.not_mem_nil
  | cons node rest =>
    rw [anyRaw, Bool.or_eq_false_iff] at h
    rw [passAll_cons, List.mem_append, not_or]
    exact ⟨not_mem_pass node h.1, not_mem_passAll rest h.2⟩

end

/-- Without heading tags in the text every anchor is that of a heading. -/
theorem anchorsFrom_eq_map {list : List Entry} (h : Entry.bareTag ∉ list) (s : Slugger) :
    anchorsFrom s list = (headersFrom s list).map fun h => some h.slug := by
  induction list generalizing s with
  | nil => rfl
  | cons e rest ih =>
    rw [List.mem_cons, not_or] at h
    cases e with
    | heading level text => simp [anchorsFrom, headersFrom, ih h.2]
    | text text => exact ih h.2 s
    | bareTag => exact absurd rfl h.1

theorem outline_anchors {root : Node} (h : anyRaw (below root) = false) :
    (outline root).anchors = (outline root).headers.map fun h => some h.slug := by
  rw [outline_eq_pass]
  exact anchorsFrom_eq_map (not_mem_passAll _ h) _

/-! ## Headings in notes -/

mutual

/-- For each heading of a node, in order, whether it stands in a note. -/
def noted (inside : Bool) : Node → List Bool
  | .heading .. => [inside]
  | .parent kind children => notedAll (inside || kind == .footnoteDefinition) children
  | _ => []

/-- For each heading of nodes in a row, whether it stands in a note. -/
def notedAll (inside : Bool) : List Node → List Bool
  | [] => []
  | node :: rest => noted inside node ++ notedAll inside rest

end

/-- The headings among entries. -/
def headings (list : List Entry) : Nat := list.countP Entry.isHeading

theorem headings_append (a b : List Entry) : headings (a ++ b) = headings a + headings b :=
  List.countP_append

theorem Flat.headings {list : List Entry} (h : Flat list) : headings list = 0 := by
  unfold Heading.headings
  rw [List.countP_eq_zero]
  intro e he
  rw [h e he]
  exact Bool.false_ne_true

theorem headersFrom_length (s : Slugger) (list : List Entry) :
    (headersFrom s list).length = headings list := by
  induction list generalizing s with
  | nil => rfl
  | cons e rest ih =>
    unfold headings at ih ⊢
    cases e with
    | heading level text =>
      rw [headersFrom, List.countP_cons_of_pos rfl, ← ih (s.named text).2.2]
      rfl
    | text text => exact ih s
    | bareTag => exact ih s

mutual

theorem noted_length (inside : Bool) (node : Node) :
    (noted inside node).length = headings (pass node) := by
  have hleaf := (comes_leaf (shown node)).flat.headings
  cases node with
  | heading depth children =>
    rw [pass_heading, noted]
    have hflat := (comes_bareTagsInAll children).flat.headings
    simp only [headings] at hflat ⊢
    rw [List.countP_cons_of_pos rfl, hflat]
    rfl
  | paragraph children =>
    have hflat := ((comes_unit (shownAll children)).append (comes_bareTagsInAll children)).flat
    rw [pass_paragraph, hflat.headings]
    rfl
  | parent kind children =>
    rw [pass_parent, noted]
    exact notedAll_length _ children
  | html value =>
    have hflat : Flat (pass (.html value)) := by
      intro e he
      rw [show pass (.html value) = bareTagsIn (.html value) from List.append_nil _] at he
      rw [mem_bareTagsIn he]
      rfl
    rw [hflat.headings]
    rfl
  | code lang info value => rfl
  | _ => exact hleaf.symm

theorem notedAll_length (inside : Bool) (nodes : List Node) :
    (notedAll inside nodes).length = headings (passAll nodes) := by
  cases nodes with
  | nil => rfl
  | cons node rest =>
    rw [notedAll, List.length_append, passAll_cons, headings_append, noted_length inside node,
      notedAll_length inside rest]

end

/-- Whether the headings of an outline stand in notes, one after another. -/
theorem noted_outline (root : Node) :
    (notedAll false (below root)).length = (outline root).headers.length := by
  rw [outline_eq_pass, notedAll_length, headersFrom_length]

/-! ## Headings outside of notes -/

/-- The numbers of the headings outside of notes, given which ones stand in notes, from the number
`n` on. -/
def outsideFrom (n : Nat) : List Bool → List Nat
  | [] => []
  | true :: rest => outsideFrom (n + 1) rest
  | false :: rest => n :: outsideFrom (n + 1) rest

/-- The numbers of the headings of a tree that stand outside of notes. -/
def outside (root : Node) : List Nat := outsideFrom 0 (notedAll false (below root))

theorem mem_outsideFrom_iff {flags : List Bool} {start m : Nat} :
    m ∈ outsideFrom start flags ↔ start ≤ m ∧ flags[m - start]? = some false := by
  induction flags generalizing start with
  | nil => simp [outsideFrom]
  | cons flag rest ih =>
    have hrest : m ∈ outsideFrom (start + 1) rest ↔
        start < m ∧ (flag :: rest)[m - start]? = some false := by
      rw [ih]
      refine and_congr_right fun hlt => ?_
      obtain ⟨k, rfl⟩ : ∃ k, m = start + 1 + k := Nat.exists_eq_add_of_le hlt
      have hk : start + 1 + k - start = k + 1 := by omega
      rw [Nat.add_sub_cancel_left, hk, List.getElem?_cons_succ]
    cases flag with
    | true =>
      rw [outsideFrom, hrest]
      constructor
      · rintro ⟨hlt, h⟩
        exact ⟨hlt.le, h⟩
      · rintro ⟨hle, h⟩
        rcases hle.eq_or_lt with rfl | hlt
        · simp at h
        · exact ⟨hlt, h⟩
    | false =>
      rw [outsideFrom, List.mem_cons, hrest]
      constructor
      · rintro (rfl | ⟨hlt, h⟩)
        · simp
        · exact ⟨hlt.le, h⟩
      · rintro ⟨hle, h⟩
        rcases hle.eq_or_lt with rfl | hlt
        · exact Or.inl rfl
        · exact Or.inr ⟨hlt, h⟩

theorem outsideFrom_pairwise (start : Nat) (flags : List Bool) :
    (outsideFrom start flags).Pairwise (· < ·) := by
  induction flags generalizing start with
  | nil => exact List.Pairwise.nil
  | cons flag rest ih =>
    cases flag with
    | true => exact ih (start + 1)
    | false =>
      refine List.Pairwise.cons (fun m hm => ?_) (ih (start + 1))
      exact (mem_outsideFrom_iff.mp hm).1

/-- The heading outside of notes with the number `n` is not before its place among those, and stands
at the place with its own number exactly if no heading in front of it stands in a note. -/
theorem outsideFrom_place {flags : List Bool} {start i n : Nat}
    (h : (outsideFrom start flags)[i]? = some n) :
    start + i ≤ n ∧ n < start + flags.length ∧
      (start + i = n ↔ ∀ m, start + m < n → flags[m]? = some false) := by
  induction flags generalizing start i with
  | nil => cases h
  | cons flag rest ih =>
    cases flag with
    | true =>
      obtain ⟨hlow, hhigh, -⟩ := ih h
      refine ⟨by omega, by rw [List.length_cons]; omega, ?_⟩
      constructor
      · intro heq
        omega
      · intro hall
        have hfirst := hall 0 (by omega)
        cases hfirst
    | false =>
      cases i with
      | zero =>
        cases h
        refine ⟨by omega, by rw [List.length_cons]; omega, ?_⟩
        constructor
        · intro _ m hm
          omega
        · intro _
          rfl
      | succ i =>
        obtain ⟨hlow, hhigh, hiff⟩ := ih h
        refine ⟨by omega, by rw [List.length_cons]; omega, ?_⟩
        constructor
        · intro heq m hm
          cases m with
          | zero => rfl
          | succ m => exact hiff.mp (by omega) m (by omega)
        · intro hall
          have hrest := hiff.mpr fun m hm => hall (m + 1) (by omega)
          omega

end DocPages.Heading
