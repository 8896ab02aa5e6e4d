-- Raw markup and the anchors behind it. For each heading tag without an `id`
-- that a search finds in raw markup the outline has a place without an anchor;
-- each such tag that the editing comes to uses up a place. The two read markup
-- in different ways. Where they agree the headings behind get their own anchors;
-- where one of them counts more tags, all anchors behind are off by as many.
import DocPages.Page.Show
import DocPages.Proofs.Heading.Blurred
import DocPages.Proofs.Heading.Entries
import DocPages.Proofs.Heading.PlainTags

namespace DocPages.Heading

open Markdown (Node)
open Markup (AllClosed Attribute StartTag Stretch stretches textOf write stateBehind)

/-! ## The places of the outline -/

/-- The slugger behind entries. -/
def Slugger.behind (s : Slugger) : List Entry → Slugger
  | [] => s
  | .heading _ text :: rest => (s.named text).2.2.behind rest
  | _ :: rest => s.behind rest

theorem anchorsFrom_append (s : Slugger) (front back : List Entry) :
    anchorsFrom s (front ++ back) = anchorsFrom s front ++ anchorsFrom (s.behind front) back := by
  induction front generalizing s with
  | nil => rfl
  | cons e rest ih =>
    cases e with
    | heading level text =>
      exact congrArg (List.cons (some (s.named text).2.1)) (ih (s.named text).2.2)
    | text text => exact ih s
    | bareTag => exact congrArg (List.cons none) (ih s)

/-- The anchors that a list of entries gives. -/
def anchorsOf (list : List Entry) : List (Option String) := (Outline.ofEntries list).anchors

/-- The anchors that entries give behind others. -/
def anchorsBehind (front back : List Entry) : List (Option String) :=
  (anchorsOf (front ++ back)).drop (anchorsOf front).length

/-- Raw markup gives places without an anchor, and leaves the anchors around it as they are. -/
theorem anchorsOf_raw (front back : List Entry) (value : String) :
    anchorsOf (front ++ entries (.html value) ++ back) =
      anchorsOf front ++ (List.replicate (bareTags value) none ++ anchorsBehind front back) := by
  have hflat : Flat (entries (.html value)) := by
    intro e he
    rw [entries] at he
    rw [List.eq_of_mem_replicate he]
    rfl
  have hcount : (entries (.html value)).count .bareTag = bareTags value := by
    rw [entries, List.count_replicate_self]
  unfold anchorsBehind anchorsOf
  simp only [ofEntries_eq]
  rw [List.append_assoc, anchorsFrom_append, anchorsFrom_append .empty front back, List.drop_left,
    hflat.anchorsFrom, hcount]

/-! ## The places that the editing uses up -/

/-- Whether a tag uses up a place: it is that of a heading and has no `id`. -/
def takesPlace (tag : StartTag) : Bool := isHeadingName tag.name && !tag.has "id"

/-- How many places a stretch uses up. -/
def takenIn (s : Stretch) : Nat := if s.tag.any takesPlace then 1 else 0

/-- How many places stretches use up. -/
def taken (list : List Stretch) : Nat := (list.map takenIn).sum

theorem placeAnchor_of_takes {tag : StartTag} (h : takesPlace tag = true)
    (anchors : List (Option String)) :
    placeAnchor anchors tag = (anchors.head?.join.map (tag.add "id"), anchors.drop 1) := by
  unfold takesPlace at h
  rw [Bool.and_eq_true, Bool.not_eq_true'] at h
  unfold placeAnchor
  rw [h.1, h.2]
  cases anchors with
  | nil => rfl
  | cons anchor rest => rfl

theorem placeAnchor_of_not_takes {tag : StartTag} (h : takesPlace tag = false)
    (anchors : List (Option String)) : placeAnchor anchors tag = (none, anchors) := by
  unfold takesPlace at h
  unfold placeAnchor
  rw [if_pos]
  cases hname : isHeadingName tag.name with
  | false => rfl
  | true => simpa [hname] using h

theorem write_stretch (anchors : List (Option String)) (s : Stretch) :
    s.write placeAnchor anchors =
      match s.tag with
      | some tag =>
        if takesPlace tag then
          ((anchors.head?.join.map (tag.add "id")).map StartTag.chars).getD s.chars
        else s.chars
      | none => s.chars := by
  obtain ⟨tag, chars⟩ := s
  cases tag with
  | none => rfl
  | some tag =>
    unfold Stretch.write
    dsimp only
    split
    · rename_i h
      rw [placeAnchor_of_takes h]
    · rename_i h
      rw [placeAnchor_of_not_takes (Bool.eq_false_iff.mpr h)]
      rfl

/-- The editing goes on with the places that are left. -/
theorem next_eq (anchors : List (Option String)) (s : Stretch) :
    s.next placeAnchor anchors = anchors.drop (takenIn s) := by
  obtain ⟨tag, chars⟩ := s
  cases tag with
  | none => rfl
  | some tag =>
    unfold Stretch.next takenIn
    dsimp only [Option.any_some]
    split
    · rename_i h
      rw [placeAnchor_of_takes h]
    · rename_i h
      rw [placeAnchor_of_not_takes (Bool.eq_false_iff.mpr h)]
      rfl

theorem taken_cons (s : Stretch) (rest : List Stretch) :
    taken (s :: rest) = takenIn s + taken rest := List.sum_cons

theorem stateBehind_eq (anchors : List (Option String)) (list : List Stretch) :
    stateBehind placeAnchor anchors list = anchors.drop (taken list) := by
  induction list generalizing anchors with
  | nil => rfl
  | cons s rest ih =>
    have hstep : stateBehind placeAnchor anchors (s :: rest) =
        stateBehind placeAnchor (s.next placeAnchor anchors) rest := rfl
    rw [hstep, ih, next_eq, List.drop_drop, taken_cons]

/-- Only the places that stretches use up say how they are written. -/
theorem write_take (anchors : List (Option String)) (list : List Stretch) :
    write placeAnchor (anchors.take (taken list)) list = write placeAnchor anchors list := by
  induction list generalizing anchors with
  | nil => rfl
  | cons s rest ih =>
    have hhere : s.write placeAnchor (anchors.take (taken (s :: rest))) =
        s.write placeAnchor anchors := by
      rw [write_stretch, write_stretch, taken_cons]
      cases htag : s.tag with
      | none => rfl
      | some tag =>
        dsimp only
        split
        · -- The tag looks at the first anchor, which is among those that are taken.
          rename_i h
          have hone : takenIn s = 1 := by
            rw [takenIn, htag, Option.any_some, if_pos h]
          cases anchors with
          | nil => rw [List.take_nil]
          | cons anchor more => rw [hone, Nat.add_comm, List.take_succ_cons]; rfl
        · rfl
    have hbehind : (anchors.take (taken (s :: rest))).drop (takenIn s) =
        (anchors.drop (takenIn s)).take (taken rest) := by
      rw [taken_cons, List.drop_take, Nat.add_sub_cancel_left]
    rw [write, write, hhere, next_eq, next_eq, hbehind, ih]

/-- A place without an anchor leaves its tag as it is. -/
theorem write_replicate (k : Nat) (list : List Stretch) :
    write placeAnchor (List.replicate k none) list = textOf list := by
  induction list generalizing k with
  | nil => rfl
  | cons s rest ih =>
    have hhere : s.write placeAnchor (List.replicate k none) = s.chars := by
      rw [write_stretch]
      split
      · split
        · cases k <;> rfl
        · rfl
      · rfl
    rw [write, hhere, next_eq, List.drop_replicate, ih]
    rfl

/-- The anchors left behind raw markup, where it has a number of places and uses up another one. -/
def shifted (places uses : Nat) (later : List (Option String)) : List (Option String) :=
  List.replicate (places - uses) none ++ later.drop (uses - places)

theorem shifted_eq_iff (places uses : Nat) {later : List (Option String)} (h : later ≠ []) :
    shifted places uses later = later ↔ places = uses := by
  constructor
  · intro heq
    have hlength := congrArg List.length heq
    have hpos := List.length_pos_iff.mpr h
    simp only [shifted, List.length_append, List.length_replicate, List.length_drop] at hlength
    omega
  · rintro rfl
    rw [shifted, Nat.sub_self]
    rfl

/-- The anchors are handed out stretch by stretch: those in front of raw markup to the tags in front
of it; what is missing for the raw markup comes from those behind, and what is left over stands in
front of them. -/
theorem write_around {before inside behind : List Stretch} {anchors later : List (Option String)}
    (hbefore : anchors.length = taken before) (k : Nat) :
    write placeAnchor (anchors ++ (List.replicate k none ++ later))
        (before ++ inside ++ behind) =
      write placeAnchor anchors before ++
        (write placeAnchor (List.replicate k none ++ later.take (taken inside - k)) inside ++
          write placeAnchor (shifted k (taken inside) later) behind) := by
  have hfront : write placeAnchor (anchors ++ (List.replicate k none ++ later)) before =
      write placeAnchor anchors before := by
    rw [← write_take, List.take_left' hbefore]
  have hinside : write placeAnchor (List.replicate k none ++ later) inside =
      write placeAnchor (List.replicate k none ++ later.take (taken inside - k)) inside := by
    rw [← write_take, ← write_take (List.replicate k none ++ later.take _), List.take_append,
      List.take_append, List.length_replicate, List.take_take, Nat.min_self]
  have hbehind : (List.replicate k none ++ later).drop (taken inside) =
      shifted k (taken inside) later := by
    rw [shifted, List.drop_append, List.drop_replicate, List.length_replicate]
  rw [List.append_assoc, Markup.write_append, Markup.write_append, stateBehind_eq, stateBehind_eq,
    List.drop_left' hbefore, hfront, hinside, hbehind]

/-! ## Where the two readings differ -/

/-- How many heading tags without an `id` a search finds in stretches where the editing does not
come to one. -/
def phantoms (list : List Stretch) : Nat := (list.map fun s => bareIn s - takenIn s).sum

/-- How many places are used up in stretches where no search has found a heading tag without an
`id`. -/
def missed (list : List Stretch) : Nat := (list.map fun s => takenIn s - bareIn s).sum

theorem bare_add_missed (list : List Stretch) :
    (list.map bareIn).sum + missed list = taken list + phantoms list := by
  induction list with
  | nil => rfl
  | cons s rest ih =>
    unfold missed taken phantoms at ih ⊢
    simp only [List.map_cons, List.sum_cons]
    omega

/-! ## Stretches that are read in the same way -/

/-- A stretch that both readings take in the same way: the tag of a heading as it is usually
written, or anything else in which no heading tag without an `id` is found. -/
def Tidy (s : Stretch) : Prop :=
  match s.tag with
  | some tag =>
    if isHeadingName tag.name then s.chars = tag.chars ∧ ∀ a ∈ tag.attributes, PlainAttribute a
    else bareIn s = 0
  | none => bareIn s = 0

theorem bareIn_of_tidy {s : Stretch} (h : Tidy s) : bareIn s = takenIn s := by
  obtain ⟨tag, chars⟩ := s
  cases tag with
  | none => exact h
  | some tag =>
    unfold Tidy at h
    dsimp only at h
    split at h
    · rename_i hname
      obtain ⟨rfl, hplain⟩ := h
      rw [bareIn, takenIn, countBare_heading hname hplain, Option.any_some, takesPlace, hname]
      cases tag.has "id" <;> rfl
    · rename_i hname
      rw [h, takenIn, Option.any_some, takesPlace, Bool.eq_false_iff.mpr hname]
      rfl

instance : (s : Stretch) → Decidable (Tidy s)
  | ⟨some tag, chars⟩ =>
    inferInstanceAs
      (Decidable
        (if isHeadingName tag.name then chars = tag.chars ∧ ∀ a ∈ tag.attributes, PlainAttribute a
        else bareIn ⟨some tag, chars⟩ = 0))
  | ⟨none, chars⟩ => inferInstanceAs (Decidable (bareIn ⟨none, chars⟩ = 0))

/-! ## The law -/

/-- Raw markup that the editing comes to in whole stretches. As many heading tags are found in it as
places are used up, but for the stretches in which only one of the two readings sees a tag. Where
places are missing, its tags take anchors of the headings behind it; where places are left over,
those are used up by the headings behind it. So these get the anchors that they would have without
it if and only if the two numbers are the same; then the raw markup stays as it is, too. If all of
it is tidy, they are the same. -/
theorem raw_markup_keeps_the_anchors_in_step_iff_its_drifts_cancel (root : Node)
    (front back : List Entry) (value : String) (html : List Char)
    (before inside behind : List Stretch)
    (hroot : allEntries (below root) = front ++ entries (.html value) ++ back)
    (hhtml : stretches html = .ok (before ++ inside ++ behind))
    (hvalue : textOf inside = Markdown.Html.rawChars value.toList)
    (hfront : (anchorsOf front).length = taken before) :
    bareTags value + missed inside = taken inside + phantoms inside ∧
      (bareTags value = taken inside ↔ phantoms inside = missed inside) ∧
      placeAnchors (outline root).anchors html = .ok
        (write placeAnchor (anchorsOf front) before ++
          (write placeAnchor
              (List.replicate (bareTags value) none ++
                (anchorsBehind front back).take (taken inside - bareTags value)) inside ++
            write placeAnchor
              (shifted (bareTags value) (taken inside) (anchorsBehind front back)) behind)) ∧
      (anchorsBehind front back ≠ [] →
        (shifted (bareTags value) (taken inside) (anchorsBehind front back) =
          anchorsBehind front back ↔ bareTags value = taken inside)) ∧
      (bareTags value = taken inside → placeAnchors (outline root).anchors html = .ok
        (write placeAnchor (anchorsOf front) before ++
          (textOf inside ++ write placeAnchor (anchorsBehind front back) behind))) ∧
      ((∀ s ∈ inside, Tidy s) → bareTags value = taken inside) := by
  have hclosed : AllClosed (inside ++ behind) := by
    refine AllClosed.behind before ?_
    rw [← List.append_assoc]
    exact Markup.stretches_closed hhtml
  have hbare : bareTags value = (inside.map bareIn).sum := by
    rw [bareTags_eq, ← hvalue, countBare_textOf hclosed]
  have hcount := bare_add_missed inside
  rw [← hbare] at hcount
  have hplaced : placeAnchors (outline root).anchors html = .ok
      (write placeAnchor (anchorsOf front) before ++
        (write placeAnchor
            (List.replicate (bareTags value) none ++
              (anchorsBehind front back).take (taken inside - bareTags value)) inside ++
          write placeAnchor
            (shifted (bareTags value) (taken inside) (anchorsBehind front back)) behind)) := by
    have hanchors : (outline root).anchors = anchorsOf front ++
        (List.replicate (bareTags value) none ++ anchorsBehind front back) := by
      rw [outline_eq, hroot]
      exact anchorsOf_raw front back value
    unfold placeAnchors
    rw [hanchors, Markup.edit_eq_write, hhtml, Except.map, write_around hfront]
  refine ⟨hcount, by omega, hplaced, shifted_eq_iff _ _, fun heven => ?_, fun htidy => ?_⟩
  · rw [hplaced, heven, Nat.sub_self, List.take_zero, List.append_nil, write_replicate, shifted,
      Nat.sub_self, List.replicate_zero, List.nil_append, List.drop_zero]
  · rw [hbare]
    exact congrArg List.sum (List.map_congr_left fun s hs => bareIn_of_tidy (htidy s hs))

/-! ## Pages with raw markup -/

/-- Characters that are passed over one by one. -/
def passedOver (text : String) : List Stretch := text.toList.map fun c => ⟨none, [c]⟩

/-- A tag with an attribute between double quotes, or with none, as a stretch. -/
def tagStretch (name : String) (attribute? : Option (String × String)) : Stretch :=
  let attributes : List Attribute := attribute?.toList.map fun (key, value) =>
    ⟨key.toList, key.toList ++ '=' :: '\x22' :: (value.toList ++ ['\x22'])⟩
  let tag : StartTag := ⟨name.toList, attributes, false⟩
  ⟨some tag, tag.chars⟩

def stopStretch (name : String) : Stretch := ⟨none, '<' :: '/' :: (name.toList ++ ['>'])⟩

/-- A page with a heading in raw markup and one behind it. -/
def rawHeading : String := "<h2 class=\x22x\x22>Raw</h2>\n\n## Real\n"

def rawHeadingInside : List Stretch :=
  tagStretch "h2" (some ("class", "x")) :: (passedOver "Raw" ++ [stopStretch "h2"])

def rawHeadingBehind : List Stretch :=
  passedOver "\n" ++ tagStretch "h2" none :: (passedOver "Real" ++ [stopStretch "h2"] ++
    passedOver "\n" ++ [⟨none, []⟩])

/-- The raw heading takes no anchor, and the heading behind it gets its own one. -/
theorem rawHeading_keeps_the_anchors_in_step :
    (allEntries (below (Page.tree .standard rawHeading)) =
        [] ++ entries (.html "<h2 class=\x22x\x22>Raw</h2>") ++ [.heading 2 "Real"] ∧
      stretches (Markdown.Html.ofText Options.Markdown.standard.flavor rawHeading.toList) =
        .ok ([] ++ rawHeadingInside ++ rawHeadingBehind) ∧
      textOf rawHeadingInside =
        Markdown.Html.rawChars "<h2 class=\x22x\x22>Raw</h2>".toList ∧
      (anchorsOf []).length = taken []) ∧
    (placeAnchors (outline (Page.tree .standard rawHeading)).anchors
        (Markdown.Html.ofText Options.Markdown.standard.flavor rawHeading.toList)).toOption.map
          String.ofList =
      some "<h2 class=\x22x\x22>Raw</h2>\n<h2 id=\x22real\x22>Real</h2>\n" := by
  have hroot : allEntries (below (Page.tree .standard rawHeading)) =
      [] ++ entries (.html "<h2 class=\x22x\x22>Raw</h2>") ++ [.heading 2 "Real"] := by
    decide +kernel
  have hhtml : stretches
      (Markdown.Html.ofText Options.Markdown.standard.flavor rawHeading.toList) =
        .ok ([] ++ rawHeadingInside ++ rawHeadingBehind) := by
    decide +kernel
  have hvalue : textOf rawHeadingInside =
      Markdown.Html.rawChars "<h2 class=\x22x\x22>Raw</h2>".toList := by
    decide +kernel
  have hfront : (anchorsOf []).length = taken [] := rfl
  obtain ⟨-, -, -, -, heven, htidy⟩ := raw_markup_keeps_the_anchors_in_step_iff_its_drifts_cancel
    (Page.tree .standard rawHeading) [] [.heading 2 "Real"] "<h2 class=\x22x\x22>Raw</h2>"
    (Markdown.Html.ofText Options.Markdown.standard.flavor rawHeading.toList) []
    rawHeadingInside rawHeadingBehind hroot hhtml hvalue hfront
  have hall : ∀ s ∈ rawHeadingInside, Tidy s := by decide +kernel
  refine ⟨⟨hroot, hhtml, hvalue, hfront⟩, ?_⟩
  rw [heven (htidy hall)]
  decide +kernel

/-- A page with a heading in a comment and one behind it. -/
def hiddenHeading : String := "<!-- <h2>x</h2> -->\n\n## Real\n"

/-- In a comment, and behind an angle in a value, tags are found that are none; an `id` without a
value is not found, and one in a value is. So the heading behind a comment gets no anchor. -/
theorem the_two_readings_of_raw_markup_differ :
    (["<!-- <h2>x</h2> -->", "<h2 title=\x22a>b\x22 id=\x22own\x22>x</h2>",
        "<h2 title=\x22a id =b\x22>x</h2>", "<h2 id>x</h2>"].map fun value =>
      (bareTags value, (stretches (Markdown.Html.rawChars value.toList)).toOption.map taken)) =
        [(1, some 0), (1, some 0), (0, some 1), (1, some 0)] ∧
      (Page.render .standard hiddenHeading).outcome.toOption.map
          (fun page => (page.html, page.headers)) =
        some ("<!-- <h2>x</h2> -->\n<h2>Real</h2>\n", [⟨2, "Real", "real", ""⟩]) := by
  decide +kernel

end DocPages.Heading
