-- The outline as one pass over the page. The pass visits each node of the
-- tree once, in the order of the page, and takes from it what the node says
-- by itself. Reading a container as a whole, where it holds no landmark, is
-- a shortcut that changes nothing.
import DocPages.Proofs.Heading.Entries
import DocPages.Proofs.Text.Trim

namespace DocPages.Heading

open Markdown (Node Kind)

/-! ## The pass -/

/-- A node that is visited, and whether it stands in a paragraph or a heading. -/
structure Visit where
  node : Node
  inside : Bool

mutual

/-- The visits to a node and to all nodes below it, in the order of the page. -/
def visits (inside : Bool) : Node → List Visit
  | .heading depth children => ⟨.heading depth children, inside⟩ :: visitsAll true children
  | .paragraph children => ⟨.paragraph children, inside⟩ :: visitsAll true children
  | .parent kind children => ⟨.parent kind children, inside⟩ :: visitsAll inside children
  | node => [⟨node, inside⟩]

/-- The visits to nodes in a row. -/
def visitsAll (inside : Bool) : List Node → List Visit
  | [] => []
  | node :: rest => visits inside node ++ visitsAll inside rest

end

/-- A text as a unit of its section, if there is more to it than white space. -/
def unit (cs : List Char) : List Entry :=
  match Text.trim cs with
  | [] => []
  | text => [.text (String.ofList text)]

/-- What a visit gives: a heading, a unit of text, or the heading tags of raw markup. In a paragraph
or a heading only raw markup counts; code counts nowhere. -/
def Visit.entries (v : Visit) : List Entry :=
  match v.node, v.inside with
  | .html value, _ => List.replicate (bareTags value) .bareTag
  | _, true => []
  | .heading depth children, false => [.heading depth (plainText children)]
  | .paragraph children, false => unit (shownAll children)
  | .parent .., false => []
  | .code .., false => []
  | node, false => unit (shown node)

/-- What a pass over nodes in a row gives. -/
def passAll (nodes : List Node) : List Entry := (visitsAll false nodes).flatMap Visit.entries

/-- What a pass over a node gives. -/
def pass (node : Node) : List Entry := (visits false node).flatMap Visit.entries

theorem passAll_cons (node : Node) (rest : List Node) :
    passAll (node :: rest) = pass node ++ passAll rest := by
  unfold passAll pass
  rw [visitsAll, List.flatMap_append]

theorem pass_parent (kind : Kind) (children : List Node) :
    pass (.parent kind children) = passAll children := by
  unfold pass passAll
  rw [visits, List.flatMap_cons]
  rfl

/-! ## Inside paragraphs and headings -/

mutual

theorem visits_inside (node : Node) :
    (visits true node).flatMap Visit.entries = bareTagsIn node := by
  cases node with
  | heading depth children => exact visitsAll_inside children
  | paragraph children => exact visitsAll_inside children
  | parent kind children => exact visitsAll_inside children
  | html value => exact List.append_nil _
  | _ => rfl

theorem visitsAll_inside (nodes : List Node) :
    (visitsAll true nodes).flatMap Visit.entries = bareTagsInAll nodes := by
  cases nodes with
  | nil => rfl
  | cons node rest =>
    rw [visitsAll, List.flatMap_append, visits_inside node, visitsAll_inside rest, bareTagsInAll]

end

theorem pass_heading (depth : Nat) (children : List Node) :
    pass (.heading depth children) =
      .heading depth (plainText children) :: bareTagsInAll children := by
  unfold pass
  rw [visits, List.flatMap_cons, visitsAll_inside]
  rfl

theorem pass_paragraph (children : List Node) :
    pass (.paragraph children) = unit (shownAll children) ++ bareTagsInAll children := by
  unfold pass
  rw [visits, List.flatMap_cons, visitsAll_inside]
  rfl

/-! ## Containers without landmarks -/

mutual

theorem mem_bareTagsIn {node : Node} {e : Entry} (h : e ∈ bareTagsIn node) : e = .bareTag := by
  cases node with
  | html value => exact List.eq_of_mem_replicate h
  | heading depth children => exact mem_bareTagsInAll h
  | paragraph children => exact mem_bareTagsInAll h
  | parent kind children => exact mem_bareTagsInAll h
  | _ => cases h

theorem mem_bareTagsInAll {nodes : List Node} {e : Entry} (h : e ∈ bareTagsInAll nodes) :
    e = .bareTag := by
  cases nodes with
  | nil => cases h
  | cons node rest =>
    rcases List.mem_append.mp h with h | h
    · exact mem_bareTagsIn h
    · exact mem_bareTagsInAll h

end

/-- The texts of the units that entries hold. -/
def unitTexts (list : List Entry) : List (List Char) := (sectionTexts list).map String.toList

/-- Two texts on lines of their own, where neither is empty. -/
def joined (a b : List Char) : List Char :=
  if a = [] then b else if b = [] then a else a ++ ['\n'] ++ b

/-- Entries without headings hold trimmed units, which make up a text, and as many heading tags as
other entries. -/
structure Comes (list : List Entry) (text : List Char) (tags : List Entry) : Prop where
  flat : Flat list
  tags : list.count .bareTag = tags.count .bareTag
  units : ∀ u ∈ unitTexts list, u ≠ [] ∧ Text.Tight u
  text : ['\n'].intercalate (unitTexts list) = text

theorem Comes.bare {list tags : List Entry} {text : List Char} (h : Comes list text tags) :
    unitTexts list = [] ↔ text = [] := by
  rw [← h.text, Text.intercalate_eq_nil_iff fun u hu => (h.units u hu).1]

theorem comes_nil : Comes [] [] [] := by
  refine ⟨?_, rfl, ?_, rfl⟩
  · intro e he; cases he
  · intro u hu; cases hu

theorem comes_unit (cs : List Char) : Comes (unit cs) (Text.trim cs) [] := by
  unfold unit
  split
  · rename_i h
    rw [h]
    exact comes_nil
  · rename_i text hne
    refine ⟨?_, rfl, ?_, ?_⟩
    · intro e he
      rw [List.mem_singleton.mp he]
      rfl
    · intro u hu
      have hu' : u = Text.trim cs := by simpa [unitTexts, sectionTexts] using hu
      exact ⟨hu' ▸ hne, hu' ▸ Text.tight_trim cs⟩
    · simp [unitTexts, sectionTexts]

theorem comes_bareTagsInAll (nodes : List Node) :
    Comes (bareTagsInAll nodes) [] (bareTagsInAll nodes) := by
  have htags : ∀ tags : List Entry, (∀ e ∈ tags, e = .bareTag) → sectionTexts tags = [] := by
    intro tags h
    induction tags with
    | nil => rfl
    | cons e rest ih =>
      rw [h e List.mem_cons_self]
      exact ih fun x hx => h x (List.mem_cons_of_mem e hx)
  have hnone : unitTexts (bareTagsInAll nodes) = [] := by
    rw [unitTexts, htags _ fun e he => mem_bareTagsInAll he]
    rfl
  refine ⟨?_, rfl, ?_, ?_⟩
  · intro e he
    rw [mem_bareTagsInAll he]
    rfl
  · intro u hu
    rw [hnone] at hu
    cases hu
  · rw [hnone]
    rfl

theorem Comes.append {a b ta tb : List Entry} {x y : List Char} (ha : Comes a x ta)
    (hb : Comes b y tb) : Comes (a ++ b) (joined x y) (ta ++ tb) := by
  have htexts : unitTexts (a ++ b) = unitTexts a ++ unitTexts b := by
    unfold unitTexts
    rw [ha.flat.sectionTexts, List.map_append]
  refine ⟨ha.flat.append hb.flat, ?_, ?_, ?_⟩
  · rw [List.count_append, List.count_append, ha.tags, hb.tags]
  · intro u hu
    rw [htexts, List.mem_append] at hu
    rcases hu with hu | hu
    · exact ha.units u hu
    · exact hb.units u hu
  · rw [htexts]
    unfold joined
    split
    · rename_i hx
      rw [ha.bare.mpr hx, List.nil_append, hb.text]
    · rename_i hx
      split
      · rename_i hy
        rw [hb.bare.mpr hy, List.append_nil, ha.text]
      · rename_i hy
        rw [Text.intercalate_append (fun h => hx (ha.bare.mp h)) (fun h => hy (hb.bare.mp h)),
          ha.text, hb.text]

/-- What the blocks in a row show has no empty text in it. -/
theorem ne_nil_of_mem_blockTexts {nodes : List Node} {text : List Char}
    (h : text ∈ blockTexts nodes) : text ≠ [] := by
  induction nodes with
  | nil => cases h
  | cons node rest ih =>
    rw [blockTexts] at h
    split at h
    · exact ih h
    · split at h
      · exact ih h
      · rename_i hne
        rcases List.mem_cons.mp h with rfl | h
        · exact hne
        · exact ih h

/-- Code and raw markup show nothing. -/
theorem blockText_of_isSilent {node : Node} (h : isSilent node = true) : blockText node = [] := by
  cases node <;> first | rfl | cases h

theorem joinWith_blockTexts_cons (node : Node) (rest : List Node) :
    Text.joinWith ['\n'] (blockTexts (node :: rest)) =
      joined (blockText node) (Text.joinWith ['\n'] (blockTexts rest)) := by
  rw [blockTexts]
  unfold joined
  split
  · rename_i h
    rw [if_pos (blockText_of_isSilent h)]
  · split
    · rename_i h
      rw [if_pos h]
    · rename_i text hne
      rw [if_neg hne]
      simp only [Text.joinWith_eq_intercalate]
      by_cases hrest : blockTexts rest = []
      · rw [hrest, if_pos List.intercalate_nil, List.intercalate_singleton]
      · rw [if_neg, List.intercalate_cons_of_ne_nil hrest]
        rw [Text.intercalate_eq_nil_iff fun u hu => ne_nil_of_mem_blockTexts hu]
        exact hrest

theorem comes_leaf (cs : List Char) : Comes (unit cs ++ []) (Text.trim cs) [] := by
  rw [List.append_nil]
  exact comes_unit cs

theorem joined_nil (text : List Char) : joined text [] = text := by
  unfold joined
  split
  · rename_i h
    exact h.symm
  · rfl

mutual

/-- Where there is no landmark, a pass over a node comes to what the node shows as a block. -/
theorem comes_pass (node : Node) (hmark : isLandmark node = false)
    (hhold : holdsLandmark node = false) :
    Comes (pass node) (blockText node) (bareTagsIn node) := by
  have hleaf := comes_leaf (shown node)
  cases node with
  | heading depth children => cases hmark
  | html value => cases hmark
  | paragraph children =>
    have h := (comes_unit (shownAll children)).append (comes_bareTagsInAll children)
    rw [joined_nil] at h
    rw [pass_paragraph]
    exact h
  | parent kind children =>
    have h := comes_passAll children hhold
    have htight : Text.trim (Text.joinWith ['\n'] (blockTexts children)) =
        Text.joinWith ['\n'] (blockTexts children) := by
      rw [← h.text]
      exact Text.trim_of_tight (Text.tight_intercalate h.units)
    rw [pass_parent, blockText, htight]
    exact h
  | code lang info value => exact comes_nil
  | _ => exact hleaf

theorem comes_passAll (nodes : List Node) (hany : anyLandmark nodes = false) :
    Comes (passAll nodes) (Text.joinWith ['\n'] (blockTexts nodes)) (bareTagsInAll nodes) := by
  cases nodes with
  | nil => exact comes_nil
  | cons node rest =>
    rw [anyLandmark, Bool.or_eq_false_iff, Bool.or_eq_false_iff] at hany
    obtain ⟨⟨hmark, hhold⟩, hrest⟩ := hany
    rw [passAll_cons, joinWith_blockTexts_cons, bareTagsInAll]
    exact (comes_pass node hmark hhold).append (comes_passAll rest hrest)

end

/-- Entries that hold the same text and as many heading tags come to the same. -/
theorem Comes.same {a b tags : List Entry} {text : List Char} (ha : Comes a text tags)
    (hb : Comes b text tags) (back : List Entry) : Same (a ++ back) (b ++ back) := by
  have hbare : sectionTexts a = [] ↔ sectionTexts b = [] := by
    have h := ha.bare.trans hb.bare.symm
    unfold unitTexts at h
    rwa [List.map_eq_nil_iff, List.map_eq_nil_iff] at h
  refine same_of_flat ha.flat hb.flat (ha.tags.trans hb.tags.symm) ?_ hbare back
  apply String.toList_inj.mp
  unfold sectionText
  rw [String.toList_intercalate, String.toList_intercalate]
  exact ha.text.trans hb.text.symm

/-- A container without a landmark, read as a whole, comes to the same as a pass over it. -/
theorem same_blockEntries (kind : Kind) {children : List Node}
    (hany : anyLandmark children = false) (back : List Entry) :
    Same (blockEntries (.parent kind children) ++ back) (passAll children ++ back) := by
  have hpass := comes_pass (.parent kind children) rfl hany
  rw [pass_parent] at hpass
  have hwhole : Comes (blockEntries (.parent kind children)) (blockText (.parent kind children))
      (bareTagsIn (.parent kind children)) := by
    have htight : Text.trim (blockText (.parent kind children)) =
        blockText (.parent kind children) :=
      Text.trim_of_tight (Text.tight_trim _)
    have h := (comes_unit (blockText (.parent kind children))).append (comes_bareTagsInAll children)
    rw [joined_nil, htight] at h
    unfold unit at h
    rw [htight] at h
    exact h
  exact hwhole.same hpass back

/-! ## The whole tree -/

mutual

theorem same_entries (node : Node) (back : List Entry) :
    Same (entries node ++ back) (pass node ++ back) := by
  cases node with
  | heading depth children =>
    rw [pass_heading]
    exact .refl _
  | parent kind children =>
    rw [entries]
    split
    · rw [pass_parent]
      exact same_allEntries children back
    · rename_i hany
      rw [pass_parent]
      exact same_blockEntries kind (Bool.eq_false_iff.mpr hany) back
  | paragraph children =>
    rw [pass_paragraph]
    exact .refl _
  | html value =>
    have h : pass (.html value) = entries (.html value) := List.append_nil _
    rw [h]
    exact .refl _
  | _ => exact .refl _

theorem same_allEntries (nodes : List Node) (back : List Entry) :
    Same (allEntries nodes ++ back) (passAll nodes ++ back) := by
  cases nodes with
  | nil => exact .refl _
  | cons node rest =>
    rw [allEntries, passAll_cons, List.append_assoc, List.append_assoc]
    exact (same_entries node _).trans ((same_allEntries rest back).append_left (pass node))

end

/-! ## The law -/

theorem outline_eq_pass (root : Node) :
    outline root =
      ⟨headersFrom .empty (passAll (below root)), anchorsFrom .empty (passAll (below root))⟩ := by
  have hsame := (same_allEntries (below root) []).ofEntries_eq
  rw [List.append_nil, List.append_nil, ofEntries_eq (passAll _)] at hsame
  rw [outline_eq, hsame]

end DocPages.Heading
