-- The title that the text of a page gives it. A hash opens a heading if white
-- space follows it, and the line feed that ends its line is white space too. So
-- a hash with nothing behind it takes the next line that is not blank.
import DocPages.Page.Metadata
import DocPages.Proofs.Text.Lines
import DocPages.Proofs.Text.Trim

namespace DocPages.Page

open Text (line_induction dropWhile_of_allBlank dropWhile_eq_nil_of_allBlank
  dropWhile_of_not_allBlank)

/-! ## Lines and their hashes -/

/-- The lines of a text, without the line feeds between them. -/
def linesOf (text : List Char) : List (List Char) := Text.splitBy (· == '\n') text

/-- What stands in a line behind a hash, if that is the first thing in the line. -/
def behindHash? (line : List Char) : Option (List Char) :=
  match line.dropWhile Text.isBlank with
  | '#' :: text => some text
  | _ => none

/-- What stands behind the hash of a heading line: white space, and the heading. -/
def headingOfLine? (line : List Char) : Option (List Char) :=
  (behindHash? line).filter fun text => text.head?.any Text.isBlank

/-- The title that a heading gives, if there is one. -/
def titleOf (heading : Option (List Char)) : String :=
  heading.elim "" fun text => HeaderText.deep (String.ofList (Text.trim text))

/-- The title that the first heading line of a text gives it. -/
def titleOfLines (body : String) : String :=
  titleOf ((linesOf body.toList).findSome? headingOfLine?)

/-- A hash that opens a heading: what stands behind it in its line, and the lines behind that. -/
structure Hash where
  text : List Char
  behind : List (List Char)

/-- Whether a hash with a text behind it opens a heading: white space follows, or the end of a line
that is not the last one. -/
def opens (last : Bool) (text : List Char) : Bool :=
  text.head?.all Text.isBlank && !(last && text.isEmpty)

/-- The first hash in some lines that opens a heading. -/
def hash? : List (List Char) → Option Hash
  | [] => none
  | line :: behind =>
    (((behindHash? line).filter (opens behind.isEmpty)).map (Hash.mk · behind)).or (hash? behind)

/-- The first of some lines that is not blank. -/
def firstText (lines : List (List Char)) : List Char :=
  (lines.find? fun line => !Text.allBlank line).getD []

/-- The heading of a hash: what stands behind it, or the next line if that is blank. -/
def Hash.heading (h : Hash) : List Char :=
  if Text.allBlank h.text then firstText h.behind else h.text

/-- Nothing stands behind a hash in its line, but something does in a line behind. -/
def Hash.Reaches (h : Hash) : Prop :=
  Text.allBlank h.text = true ∧ ∃ line ∈ h.behind, Text.allBlank line = false

theorem not_break_of_not_mem {c : Char} {line : List Char} (h : '\n' ∉ c :: line) :
    (c == '\n') = false ∧ '\n' ∉ line := by
  rw [List.mem_cons, not_or] at h
  exact ⟨beq_false_of_ne (Ne.symm h.1), h.2⟩

theorem linesOf_break {line : List Char} (h : '\n' ∉ line) (rest : List Char) :
    linesOf (line ++ '\n' :: rest) = line :: linesOf rest := Text.splitBy_break h rest

theorem linesOf_of_not_mem {line : List Char} (h : '\n' ∉ line) : linesOf line = [line] :=
  Text.splitBy_of_not_mem h

/-! ## The first line that is not blank -/

theorem not_mem_dropWhile {cs : List Char} (h : '\n' ∉ cs) :
    '\n' ∉ cs.dropWhile Text.isBlank := fun hmem => h ((List.dropWhile_sublist _).subset hmem)

/-- The rest of a line ends where the line does. -/
theorem takeWhile_line {cs : List Char} (h : '\n' ∉ cs) (back : List Char)
    (hback : ∀ c ∈ back.head?, c = '\n') : (cs ++ back).takeWhile (· != '\n') = cs := by
  have hpass : ∀ c ∈ cs, (c != '\n') = true := fun c hc => bne_iff_ne.mpr fun heq => h (heq ▸ hc)
  rw [List.takeWhile_append_of_pos hpass]
  cases back with
  | nil => simp
  | cons c back => simp [hback c rfl]

theorem firstText_cons_of_blank {line : List Char} (h : Text.allBlank line = true)
    (lines : List (List Char)) : firstText (line :: lines) = firstText lines := by
  unfold firstText
  rw [List.find?_cons_of_neg (by simp [h])]

theorem firstText_cons_of_not_blank {line : List Char} (h : Text.allBlank line = false)
    (lines : List (List Char)) : firstText (line :: lines) = line := by
  unfold firstText
  rw [List.find?_cons_of_pos (by simp [h])]
  rfl

theorem firstText_of_blank {lines : List (List Char)}
    (h : ∀ line ∈ lines, Text.allBlank line = true) : firstText lines = [] := by
  induction lines with
  | nil => rfl
  | cons line lines ih =>
    rw [List.forall_mem_cons] at h
    rw [firstText_cons_of_blank h.1, ih h.2]

theorem firstText_mem {lines : List (List Char)}
    (h : ∃ line ∈ lines, Text.allBlank line = false) : firstText lines ∈ lines := by
  induction lines with
  | nil => simp at h
  | cons line lines ih =>
    cases hline : Text.allBlank line with
    | false =>
      rw [firstText_cons_of_not_blank hline]
      exact List.mem_cons_self
    | true =>
      obtain ⟨other, hother, hblank⟩ := h
      rcases List.mem_cons.mp hother with rfl | hother
      · rw [hline] at hblank
        cases hblank
      · rw [firstText_cons_of_blank hline]
        exact List.mem_cons_of_mem _ (ih ⟨other, hother, hblank⟩)

/-- What stands behind white space, up to the end of its line, is the first line that is not
blank. -/
theorem takeWhile_dropWhile (text : List Char) :
    (text.dropWhile Text.isBlank).takeWhile (· != '\n') =
      (firstText (linesOf text)).dropWhile Text.isBlank := by
  induction text using line_induction with
  | last line h =>
    rw [linesOf_of_not_mem h]
    have htake := takeWhile_line (not_mem_dropWhile h) [] nofun
    rw [List.append_nil] at htake
    rw [htake]
    cases hblank : Text.allBlank line with
    | false => rw [firstText_cons_of_not_blank hblank]
    | true =>
      rw [firstText_cons_of_blank hblank, dropWhile_eq_nil_of_allBlank hblank]
      rfl
  | more line rest h ih =>
    rw [linesOf_break h]
    cases hblank : Text.allBlank line with
    | false =>
      rw [dropWhile_of_not_allBlank hblank, firstText_cons_of_not_blank hblank,
        takeWhile_line (not_mem_dropWhile h) ('\n' :: rest)]
      rintro c ⟨⟩
      rfl
    | true =>
      rw [dropWhile_of_allBlank hblank, firstText_cons_of_blank hblank, ← ih]
      rfl

/-! ## The heading at a place -/

theorem headingHere?_of_allBlank {line : List Char} (h : Text.allBlank line = true)
    (back : List Char) : headingHere? (line ++ back) = headingHere? back := by
  unfold headingHere?
  rw [dropWhile_of_allBlank h]

theorem behindHash?_of_allBlank {line : List Char} (h : Text.allBlank line = true) :
    behindHash? line = none := by
  unfold behindHash?
  rw [dropWhile_eq_nil_of_allBlank h]

theorem behindHash?_append {line : List Char} (hblank : Text.allBlank line = false)
    (back : List Char) : behindHash? (line ++ back) = (behindHash? line).map (· ++ back) := by
  unfold behindHash?
  rw [dropWhile_of_not_allBlank hblank]
  cases hrest : line.dropWhile Text.isBlank with
  | nil =>
    rw [List.dropWhile_eq_nil_iff, ← List.all_eq_true] at hrest
    exact absurd hrest (Bool.eq_false_iff.mp hblank)
  | cons d text =>
    by_cases hd : d = '#'
    · subst hd
      rfl
    · simp [hd]

theorem subset_of_behindHash? {line text : List Char} (h : behindHash? line = some text) :
    text ⊆ line := by
  unfold behindHash? at h
  split at h
  · rename_i hrest
    cases h
    have hsub := (List.dropWhile_sublist (l := line) Text.isBlank).subset
    rw [hrest] at hsub
    exact fun c hc => hsub (List.mem_cons_of_mem _ hc)
  · cases h

/-- The heading that a text behind a hash gives. -/
def headingBehind? : List Char → Option (List Char)
  | [] => none
  | c :: rest =>
    if Text.isBlank c then some ((rest.dropWhile Text.isBlank).takeWhile (· != '\n')) else none

theorem headingHere?_eq (cs : List Char) :
    headingHere? cs = (behindHash? cs).bind headingBehind? := by
  unfold headingHere? behindHash?
  split
  · rename_i hrest
    rw [hrest]
    rfl
  · rename_i hnot
    split
    · rename_i text hrest
      cases text with
      | nil => rfl
      | cons c rest => exact absurd hrest (hnot c rest)
    · rfl

/-- Behind the rest of a line comes its end or the end of the text. -/
theorem headingBehind?_append {text : List Char} (htext : '\n' ∉ text) {back : List Char}
    (hback : ∀ c ∈ back.head?, c = '\n') :
    headingBehind? (text ++ back) =
      if opens back.isEmpty text then
        some (if Text.allBlank text then (back.dropWhile Text.isBlank).takeWhile (· != '\n')
          else text.dropWhile Text.isBlank)
      else none := by
  cases text with
  | nil =>
    cases back with
    | nil => rfl
    | cons e back =>
      obtain rfl : e = '\n' := hback e rfl
      rfl
  | cons c text =>
    have hopens : opens back.isEmpty (c :: text) = Text.isBlank c := by simp [opens]
    rw [List.cons_append, headingBehind?, hopens]
    cases hc : Text.isBlank c with
    | false => rfl
    | true =>
      have hall : Text.allBlank (c :: text) = Text.allBlank text := by simp [Text.allBlank, hc]
      rw [hall, List.dropWhile_cons_of_pos hc, if_pos rfl, if_pos rfl]
      cases hblank : Text.allBlank text with
      | true =>
        rw [dropWhile_of_allBlank hblank]
        rfl
      | false =>
        have hnot := not_mem_dropWhile (not_break_of_not_mem htext).2
        rw [dropWhile_of_not_allBlank hblank, takeWhile_line hnot back hback]
        rfl

/-- A line that is not blank opens a heading if its hash does. -/
theorem headingHere?_of_not_allBlank {line : List Char} (hblank : Text.allBlank line = false)
    (hline : '\n' ∉ line) (back : List Char) (hback : ∀ c ∈ back.head?, c = '\n') :
    headingHere? (line ++ back) =
      ((behindHash? line).filter (opens back.isEmpty)).map fun text =>
        if Text.allBlank text then (back.dropWhile Text.isBlank).takeWhile (· != '\n')
        else text.dropWhile Text.isBlank := by
  rw [headingHere?_eq, behindHash?_append hblank]
  cases hhash : behindHash? line with
  | none => rfl
  | some text =>
    have htext : '\n' ∉ text := fun hmem => hline (subset_of_behindHash? hhash hmem)
    rw [Option.map_some, Option.bind_some, headingBehind?_append htext hback, Option.filter_some]
    cases opens back.isEmpty text <;> rfl

/-! ## The first heading -/

/-- Where no line starts, no heading does. -/
theorem firstHeading?_pass {line : List Char} (h : '\n' ∉ line) (back : List Char) :
    firstHeading? false (line ++ back) = firstHeading? false back := by
  induction line with
  | nil => rfl
  | cons c line ih =>
    obtain ⟨hc, h⟩ := not_break_of_not_mem h
    rw [List.cons_append, firstHeading?, hc, ih h]
    rfl

theorem firstHeading?_last {line : List Char} (h : '\n' ∉ line) :
    firstHeading? true line = headingHere? line := by
  cases line with
  | nil => rfl
  | cons c line =>
    obtain ⟨hc, h⟩ := not_break_of_not_mem h
    have hpass := firstHeading?_pass h []
    rw [List.append_nil] at hpass
    rw [firstHeading?, hc, hpass, if_pos rfl]
    exact Option.or_none

theorem firstHeading?_line {line : List Char} (h : '\n' ∉ line) (rest : List Char) :
    firstHeading? true (line ++ '\n' :: rest) =
      (headingHere? (line ++ '\n' :: rest)).or (firstHeading? true rest) := by
  cases line with
  | nil => rfl
  | cons c line =>
    obtain ⟨hc, h⟩ := not_break_of_not_mem h
    rw [List.cons_append, firstHeading?, hc, firstHeading?_pass h, if_pos rfl]
    rfl

/-- A heading at the start of a text is the first one. -/
theorem headingHere?_or_firstHeading? (text : List Char) :
    (headingHere? text).or (firstHeading? true text) = firstHeading? true text := by
  cases text with
  | nil => rfl
  | cons c text =>
    rw [firstHeading?, if_pos rfl]
    cases headingHere? (c :: text) <;> rfl

theorem Hash.heading_dropWhile (text : List Char) (behind : List (List Char)) :
    (Hash.mk text behind).heading.dropWhile Text.isBlank =
      if Text.allBlank text then (firstText behind).dropWhile Text.isBlank
      else text.dropWhile Text.isBlank := by
  unfold Hash.heading
  exact apply_ite _ _ _ _

/-- The first heading is that of the first hash that opens one. -/
theorem firstHeading?_eq (text : List Char) :
    firstHeading? true text =
      (hash? (linesOf text)).map fun h => h.heading.dropWhile Text.isBlank := by
  induction text using line_induction with
  | last line h =>
    rw [linesOf_of_not_mem h, firstHeading?_last h]
    cases hblank : Text.allBlank line with
    | true =>
      have hnone := headingHere?_of_allBlank hblank []
      rw [List.append_nil] at hnone
      rw [hnone, hash?, behindHash?_of_allBlank hblank]
      rfl
    | false =>
      have hhere := headingHere?_of_not_allBlank hblank h [] nofun
      rw [List.append_nil] at hhere
      rw [hhere, hash?, hash?, Option.or_none, Option.map_map]
      refine congrArg (Option.map · _) (funext fun text => ?_)
      rw [Function.comp_apply, Hash.heading_dropWhile]
      rfl
  | more line rest h ih =>
    rw [linesOf_break h, firstHeading?_line h, hash?]
    cases hblank : Text.allBlank line with
    | true =>
      rw [headingHere?_of_allBlank hblank, behindHash?_of_allBlank hblank]
      exact (headingHere?_or_firstHeading? rest).trans ih
    | false =>
      have hempty : (linesOf rest).isEmpty = false :=
        List.isEmpty_eq_false_iff.mpr (Text.splitBy_ne_nil _ rest)
      have hback : ∀ c ∈ ('\n' :: rest).head?, c = '\n' := by
        rintro c ⟨⟩
        rfl
      rw [headingHere?_of_not_allBlank hblank h ('\n' :: rest) hback, ih, Option.map_or,
        Option.map_map, hempty]
      refine congrArg (fun f => (Option.map f _).or _) (funext fun text => ?_)
      rw [Function.comp_apply, Hash.heading_dropWhile, ← takeWhile_dropWhile rest]
      rfl

/-! ## The law -/

theorem Hash.behind_of_not_reaches {h : Hash} (hstay : ¬h.Reaches)
    (hblank : Text.allBlank h.text = true) : ∀ line ∈ h.behind, Text.allBlank line = true := by
  intro line hmem
  by_contra hline
  exact hstay ⟨hblank, line, hmem, Bool.eq_false_iff.mpr hline⟩

/-- A hash that takes no other line has the text behind it for a heading. -/
theorem Hash.trim_heading {h : Hash} (hstay : ¬h.Reaches) :
    Text.trim h.heading = Text.trim h.text := by
  unfold Hash.heading
  cases hblank : Text.allBlank h.text with
  | false => rfl
  | true =>
    rw [if_pos rfl, firstText_of_blank (Hash.behind_of_not_reaches hstay hblank),
      Text.trim_of_allBlank hblank]
    rfl

/-- A hash that takes another line has that line for a heading. -/
theorem Hash.heading_mem {h : Hash} (hreach : h.Reaches) : h.heading ∈ h.behind := by
  rw [Hash.heading, if_pos hreach.1]
  exact firstText_mem hreach.2

/-- No blank line is a heading line. -/
theorem findSome?_of_blank {lines : List (List Char)}
    (h : ∀ line ∈ lines, Text.allBlank line = true) : lines.findSome? headingOfLine? = none := by
  refine List.findSome?_eq_none_iff.mpr fun line hline => ?_
  rw [headingOfLine?, behindHash?_of_allBlank (h line hline)]
  rfl

/-- If the first hash takes no other line, it gives the heading of the first heading line. -/
theorem trim_heading_eq {lines : List (List Char)} (hstay : ∀ h ∈ hash? lines, ¬h.Reaches) :
    Text.trim (((hash? lines).map Hash.heading).getD []) =
      Text.trim ((lines.findSome? headingOfLine?).getD []) := by
  induction lines with
  | nil => rfl
  | cons line behind ih =>
    rw [hash?] at hstay ⊢
    rw [List.findSome?_cons, headingOfLine?]
    cases hhash : behindHash? line with
    | none =>
      rw [hhash] at hstay
      exact ih hstay
    | some text =>
      rw [hhash] at hstay
      match text with
      | [] =>
        -- The hash opens a heading if a line follows, but its own line is no heading line.
        cases behind with
        | nil => rfl
        | cons next behind =>
          have hnot : ¬(Hash.mk [] (next :: behind)).Reaches := hstay _ rfl
          refine (Hash.trim_heading hnot).trans ?_
          have hnone : (next :: behind).findSome? headingOfLine? = none :=
            findSome?_of_blank (Hash.behind_of_not_reaches hnot rfl)
          exact congrArg (fun o => Text.trim (Option.getD o [])) hnone.symm
      | c :: text =>
        have hopens : opens behind.isEmpty (c :: text) = Text.isBlank c := by simp [opens]
        rw [Option.filter_some, hopens] at hstay ⊢
        rw [Option.filter_some, List.head?_cons, Option.any_some]
        cases hc : Text.isBlank c with
        | false =>
          rw [hc] at hstay
          exact ih hstay
        | true =>
          rw [hc] at hstay
          exact Hash.trim_heading (hstay _ rfl)

theorem title_of_untitled {metadata : Fields}
    (hhome : (metadata.get? "home").any Json.isTruthy = false)
    (htitle : (metadata.get? "title").any Json.isTruthy = false) (body : String) :
    title metadata body = titleOfBody body := by
  have hnone : (metadata.get? "title").filter Json.isTruthy = none := by
    cases hvalue : metadata.get? "title" with
    | none => rfl
    | some value =>
      rw [hvalue, Option.any_some] at htitle
      rw [Option.filter_some, htitle]
      rfl
  rw [title, hhome, hnone]
  rfl

/-- No heading and a blank one give the same title. -/
theorem titleOf_eq (heading : Option (List Char)) :
    titleOf heading = HeaderText.deep (String.ofList (Text.trim (heading.getD []))) := by
  cases heading with
  | none => decide +kernel
  | some text => rfl

/-- The text of a page gives it the title of the first hash that opens a heading. -/
theorem titleOfBody_eq (body : String) :
    titleOfBody body = titleOf ((hash? (linesOf body.toList)).map Hash.heading) := by
  rw [titleOfBody, firstHeading?_eq]
  cases hash? (linesOf body.toList) with
  | none => rfl
  | some h =>
    exact congrArg (fun text => HeaderText.deep (String.ofList text)) (Text.trim_dropWhile _)

/-- The title of a page without one in its front matter is that of its first heading line, unless the
first hash that opens a heading has nothing behind it in its line. Then it is the next line that is
not blank, whatever that line is. -/
theorem a_title_stands_behind_its_hash_unless_the_line_ends_there (metadata : Fields) (body : String)
    (hhome : (metadata.get? "home").any Json.isTruthy = false)
    (htitle : (metadata.get? "title").any Json.isTruthy = false) :
    title metadata body = titleOf ((hash? (linesOf body.toList)).map Hash.heading) ∧
      ((∀ h ∈ hash? (linesOf body.toList), ¬h.Reaches) → title metadata body = titleOfLines body) ∧
      ∀ h ∈ hash? (linesOf body.toList), h.Reaches →
        h.heading = firstText h.behind ∧ h.heading ∈ h.behind := by
  have htext := (title_of_untitled hhome htitle body).trans (titleOfBody_eq body)
  refine ⟨htext, fun hstay => ?_, fun h _ hreach => ⟨if_pos hreach.1, Hash.heading_mem hreach⟩⟩
  rw [htext, titleOfLines, titleOf_eq, titleOf_eq, trim_heading_eq hstay]

/-- A text with a deeper heading in front of its title, and another title behind it. -/
def tabbedText : String := "intro\n\n## Not this\n \n #\tHello\r\n# Second"

/-- A tab behind the hash opens a heading as well as a space does, and the carriage return at the end
of the line is no part of it. -/
theorem tabbedHeading_is_the_title_of_its_page :
    (hash? (linesOf tabbedText.toList)).all (fun h => !Text.allBlank h.text) = true ∧
      title [("title", .string "")] tabbedText = "Hello" := by
  have hfull : (hash? (linesOf tabbedText.toList)).all (fun h => !Text.allBlank h.text) = true := by
    decide +kernel
  refine ⟨hfull, ?_⟩
  have hfirst := (a_title_stands_behind_its_hash_unless_the_line_ends_there [("title", .string "")]
    tabbedText (by decide +kernel) (by decide +kernel)).2.1
  rw [hfirst fun h hmem hreach => ?_]
  · decide +kernel
  · have htext := Option.all_eq_true _ _ |>.mp hfull h hmem
    rw [hreach.1] at htext
    cases htext

/-- A hash with nothing behind it gives a page the title of the line below. -/
theorem emptyHeading_takes_the_line_below :
    title [] "# \nintro\n" = "intro" ∧ titleOfLines "# \nintro\n" = "" := by
  decide +kernel

end DocPages.Page
