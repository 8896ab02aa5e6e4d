-- Where a page is split. Its lines are told with the line feeds that end them,
-- so that what stands between two fences, and behind the second one, is a row
-- of whole lines.
import DocPages.FrontMatter.Block
import DocPages.Proofs.Text.Lines
import Mathlib.Data.List.DropRight
import Mathlib.Data.List.TakeDrop
import Mathlib.Data.List.TakeWhile

namespace DocPages.FrontMatter

open Text (line_induction)

/-! ## Lines -/

/-- The lines of a text, each with the line feed that ends it. The last one may lack its line
feed. -/
def lines : List Char → List (List Char)
  | [] => []
  | c :: cs =>
    if c = '\n' then [c] :: lines cs
    else
      match lines cs with
      | line :: rest => (c :: line) :: rest
      | [] => [[c]]

/-- A line ends at its line feed. -/
theorem lines_of_break {line : List Char} (h : '\n' ∉ line) (rest : List Char) :
    lines (line ++ '\n' :: rest) = (line ++ ['\n']) :: lines rest := by
  induction line with
  | nil => rw [List.nil_append, lines, if_pos rfl]; rfl
  | cons c line ih =>
    rw [List.mem_cons, not_or] at h
    rw [List.cons_append, lines, if_neg (Ne.symm h.1), ih h.2]
    rfl

/-- A text without a line feed is one line, unless it is empty. -/
theorem lines_of_not_mem {line : List Char} (h : '\n' ∉ line) :
    lines line = if line = [] then [] else [line] := by
  induction line with
  | nil => rfl
  | cons c line ih =>
    rw [List.mem_cons, not_or] at h
    rw [lines, if_neg (Ne.symm h.1), ih h.2]
    cases line <;> rfl

/-- Nothing is lost between lines. -/
theorem flatten_lines (text : List Char) : (lines text).flatten = text := by
  induction text using line_induction with
  | last line h =>
    rw [lines_of_not_mem h]
    split
    · rename_i hnil
      rw [hnil]
      rfl
    · exact List.flatten_singleton
  | more line rest h ih => rw [lines_of_break h, List.flatten_cons, ih, ← List.append_cons]

/-- Behind a line feed the lines are those of the text there. -/
theorem lines_append (front back : List Char) :
    lines (front ++ '\n' :: back) = lines (front ++ ['\n']) ++ lines back := by
  induction front using line_induction with
  | last line h =>
    rw [lines_of_break h, lines_of_break h]
    rfl
  | more line rest h ih =>
    rw [List.append_assoc, List.append_assoc, List.cons_append, List.cons_append,
      lines_of_break h, lines_of_break h, ih, List.cons_append]

/-! ## Fences -/

/-- The line feed behind a line makes no difference to whether it is a fence. -/
theorem isFence_break (line : List Char) : isFence (line ++ ['\n']) = isFence line := by
  unfold isFence Text.trimEnd
  rw [Text.trimEndBy_concat_of_pos line (by decide)]

/-- No line of the text is a fence. -/
def Unfenced (text : List Char) : Prop := ∀ line ∈ lines text, isFence line = false

theorem unfenced_line {line : List Char} (h : '\n' ∉ line) :
    Unfenced line ↔ isFence line = false := by
  unfold Unfenced
  rw [lines_of_not_mem h]
  split
  · rename_i hnil
    rw [hnil]
    decide
  · exact List.forall_mem_singleton

theorem unfenced_break {line : List Char} (h : '\n' ∉ line) (rest : List Char) :
    Unfenced (line ++ '\n' :: rest) ↔ isFence line = false ∧ Unfenced rest := by
  unfold Unfenced
  rw [lines_of_break h, List.forall_mem_cons, isFence_break]

/-- A line feed behind a text makes no fence. -/
theorem Unfenced.break {text : List Char} (h : Unfenced text) : Unfenced (text ++ ['\n']) := by
  induction text using line_induction with
  | last line hline =>
    rw [unfenced_line hline] at h
    rw [unfenced_break hline]
    exact ⟨h, fun line hmem => by cases hmem⟩
  | more line rest hline ih =>
    rw [unfenced_break hline] at h
    rw [List.append_assoc, List.cons_append, unfenced_break hline]
    exact ⟨h.1, ih h.2⟩

theorem firstLine_of_break {line : List Char} (h : '\n' ∉ line) (rest : List Char) :
    firstLine (line ++ '\n' :: rest) = (line, rest) := by
  have hpass : ∀ c ∈ line, (c != '\n') = true :=
    fun c hc => bne_iff_ne.mpr fun heq => h (heq ▸ hc)
  unfold firstLine
  rw [List.span_eq_takeWhile_dropWhile, List.takeWhile_append_of_pos hpass,
    List.dropWhile_append_of_pos hpass]
  simp

theorem firstLine_of_not_mem {line : List Char} (h : '\n' ∉ line) :
    firstLine line = (line, []) := by
  have hpass : ∀ c ∈ line, (c != '\n') = true :=
    fun c hc => bne_iff_ne.mpr fun heq => h (heq ▸ hc)
  unfold firstLine
  rw [List.span_eq_takeWhile_dropWhile, List.takeWhile_eq_self_iff.mpr hpass,
    List.dropWhile_eq_nil_iff.mpr hpass]
  rfl

/-! ## The block -/

theorem untilFence_break {line : List Char} (h : '\n' ∉ line) (fuel : Nat) (rest : List Char) :
    untilFence (fuel + 1) (line ++ '\n' :: rest) =
      if isFence line then some ([], rest)
      else (untilFence fuel rest).map fun (block, body) => (line ++ '\n' :: block, body) := by
  have hne : (line ++ '\n' :: rest).isEmpty = false := by simp
  rw [untilFence, hne, firstLine_of_break h]
  rfl

theorem untilFence_nil (fuel : Nat) : untilFence fuel [] = none := by cases fuel <;> rfl

theorem untilFence_last {line : List Char} (h : '\n' ∉ line) (fuel : Nat) :
    untilFence (fuel + 1) line = if isFence line then some ([], []) else none := by
  rw [untilFence, firstLine_of_not_mem h]
  cases line with
  | nil => rfl
  | cons c line =>
    dsimp only
    rw [untilFence_nil]
    rfl

/-- Where no line is a fence the block has no end. -/
theorem untilFence_of_unfenced {text : List Char} (h : Unfenced text) (fuel : Nat) :
    untilFence fuel text = none := by
  induction text using line_induction generalizing fuel with
  | last line hline =>
    cases fuel with
    | zero => rfl
    | succ fuel =>
      rw [untilFence_last hline, (unfenced_line hline).mp h]
      rfl
  | more line rest hline ih =>
    cases fuel with
    | zero => rfl
    | succ fuel =>
      obtain ⟨hfirst, hrest⟩ := (unfenced_break hline rest).mp h
      rw [untilFence_break hline, hfirst, ih hrest]
      rfl

/-- The block ends at the first line that is a fence. -/
theorem untilFence_of_fence {text : List Char} {block back : List (List Char)} {close : List Char}
    (hlines : lines text = block ++ close :: back) (hblock : ∀ line ∈ block, isFence line = false)
    (hclose : isFence close = true) {fuel : Nat} (hfuel : text.length < fuel) :
    untilFence fuel text = some (block.flatten, back.flatten) := by
  obtain ⟨fuel, rfl⟩ := Nat.exists_eq_add_one_of_ne_zero (Nat.ne_zero_of_lt hfuel)
  induction text using line_induction generalizing fuel block with
  | last line hline =>
    rw [lines_of_not_mem hline] at hlines
    split at hlines
    · simp at hlines
    · obtain ⟨rfl, hcons⟩ : block = [] ∧ [line] = close :: back := by
        cases block with
        | nil => exact ⟨rfl, hlines⟩
        | cons b block => simp at hlines
      obtain ⟨rfl, rfl⟩ : line = close ∧ back = [] := by simpa using hcons
      rw [untilFence_last hline, hclose]
      rfl
  | more line rest hline ih =>
    rw [lines_of_break hline] at hlines
    cases block with
    | nil =>
      obtain ⟨hfirst, rfl⟩ := List.cons.inj hlines
      rw [← hfirst, isFence_break] at hclose
      rw [untilFence_break hline, hclose, flatten_lines]
      rfl
    | cons b block =>
      obtain ⟨rfl, hrest⟩ := List.cons.inj hlines
      rw [List.forall_mem_cons, isFence_break] at hblock
      rw [List.length_append, List.length_cons] at hfuel
      obtain ⟨fuel, rfl⟩ : ∃ n, fuel = n + 1 := Nat.exists_eq_add_one_of_ne_zero (by omega)
      rw [untilFence_break hline, hblock.1, ih hrest hblock.2 fuel (by omega)]
      simp

/-! ## Splitting -/

/-- The metadata that a text between two fences spells, or why it spells none. -/
def metadataOf (text : List Char) : Except Error Fields :=
  fields (Text.trimEndBy Text.isLineBreak text)

variable {read? : List Char → Option Json}

theorem fieldsBy_ne_unterminated (block : List Char) :
    fieldsBy read? block ≠ .error .unterminated := by
  unfold fieldsBy fieldsOf
  split
  · exact nofun
  · split <;> exact nofun

/-- The text of a page, less a byte order mark at its start. -/
def textOf (source : String) : List Char := dropMark source.toList

/-- The first line and the text behind it are the first of the lines and those behind it. -/
theorem lines_firstLine (text : List Char) :
    isFence (firstLine text).1 = (lines text).head?.any isFence ∧
      lines (firstLine text).2 = (lines text).tail := by
  cases text using line_induction with
  | last line h =>
    rw [firstLine_of_not_mem h, lines_of_not_mem h]
    split
    · rename_i hnil
      rw [hnil]
      exact ⟨by decide, rfl⟩
    · exact ⟨rfl, rfl⟩
  | more line rest h _ =>
    rw [firstLine_of_break h, lines_of_break h]
    exact ⟨(isFence_break line).symm, rfl⟩

variable {source : String}

/-- A page whose first line is no fence is all body. -/
theorem splitBy_of_no_fence (h : ∀ first ∈ (lines (textOf source)).head?, isFence first = false) :
    splitBy read? source = .ok ⟨String.ofList (textOf source), []⟩ := by
  have hfirst : isFence (firstLine (textOf source)).1 = false := by
    rw [(lines_firstLine _).1]
    cases hhead : (lines (textOf source)).head? with
    | none => rfl
    | some first => exact h first hhead
  unfold splitBy
  dsimp only
  rw [textOf] at hfirst
  rw [hfirst]
  rfl

theorem splitBy_of_fence {first : List Char} {rest : List (List Char)}
    (hlines : lines (textOf source) = first :: rest) (hfirst : isFence first = true) :
    ∃ text, lines text = rest ∧ splitBy read? source =
      match untilFence (text.length + 1) text with
      | none => .error .unterminated
      | some (block, body) =>
        (fieldsBy read? (Text.trimEndBy Text.isLineBreak block)).map fun metadata =>
          ⟨String.ofList body, metadata⟩ := by
  have hfence : isFence (firstLine (textOf source)).1 = true := by
    rw [(lines_firstLine _).1, hlines]
    exact hfirst
  refine ⟨(firstLine (textOf source)).2, ?_, ?_⟩
  · rw [(lines_firstLine _).2, hlines]
    rfl
  · rw [textOf] at hfence ⊢
    unfold splitBy block?
    dsimp only
    rw [hfence]
    cases untilFence _ (firstLine (dropMark source.toList)).2 <;> rfl

theorem splitBy_of_unterminated {first : List Char} {rest : List (List Char)}
    (hlines : lines (textOf source) = first :: rest) (hfirst : isFence first = true)
    (hrest : ∀ line ∈ rest, isFence line = false) :
    splitBy read? source = .error .unterminated := by
  obtain ⟨text, rfl, hsplit⟩ := splitBy_of_fence hlines hfirst
  rw [hsplit, untilFence_of_unfenced hrest]

theorem splitBy_of_fences {first close : List Char} {block back : List (List Char)}
    (hlines : lines (textOf source) = first :: (block ++ close :: back))
    (hfirst : isFence first = true) (hblock : ∀ line ∈ block, isFence line = false)
    (hclose : isFence close = true) :
    splitBy read? source =
      (fieldsBy read? (Text.trimEndBy Text.isLineBreak block.flatten)).map fun metadata =>
        ⟨String.ofList back.flatten, metadata⟩ := by
  obtain ⟨text, htext, hsplit⟩ := splitBy_of_fence hlines hfirst
  rw [hsplit, untilFence_of_fence htext hblock hclose (Nat.lt_add_one _)]

/-- Only a fence that no later one answers leaves a page unterminated. -/
theorem splitBy_unterminated_iff :
    splitBy read? source = .error .unterminated ↔
      ∃ first rest, lines (textOf source) = first :: rest ∧ isFence first = true ∧
        ∀ line ∈ rest, isFence line = false := by
  constructor
  · intro hsplit
    by_cases hhead : ∀ first ∈ (lines (textOf source)).head?, isFence first = false
    · rw [splitBy_of_no_fence hhead] at hsplit
      cases hsplit
    · simp only [Option.mem_def, not_forall, Bool.not_eq_false] at hhead
      obtain ⟨first, hmem, hfirst⟩ := hhead
      obtain ⟨rest, hlines⟩ := List.head?_eq_some_iff.mp hmem
      refine ⟨first, rest, hlines, hfirst, ?_⟩
      cases hfind : rest.find? isFence with
      | none => simpa using hfind
      | some close =>
        obtain ⟨hclose, block, back, rfl, hblock⟩ := List.find?_eq_some_iff_append.mp hfind
        rw [splitBy_of_fences hlines hfirst (by simpa using hblock) hclose] at hsplit
        cases hdata : fieldsBy read? (Text.trimEndBy Text.isLineBreak block.flatten) with
        | ok metadata =>
          rw [hdata] at hsplit
          cases hsplit
        | error e =>
          rw [hdata] at hsplit
          cases hsplit
          exact absurd hdata (fieldsBy_ne_unterminated _)
  · rintro ⟨first, rest, hlines, hfirst, hrest⟩
    exact splitBy_of_unterminated hlines hfirst hrest

/-! ## Written front matter -/

/-- A page with front matter: a fence, a text, another fence, and the body, each on lines of its
own. -/
def written (opening text closing body : List Char) : List Char :=
  opening ++ '\n' :: (text ++ '\n' :: (closing ++ '\n' :: body))

theorem lines_written {opening closing : List Char} (hopening : '\n' ∉ opening)
    (hclosing : '\n' ∉ closing) (text body : List Char) :
    lines (written opening text closing body) =
      (opening ++ ['\n']) :: (lines (text ++ ['\n']) ++ (closing ++ ['\n']) :: lines body) := by
  unfold written
  rw [lines_of_break hopening, lines_append, lines_of_break hclosing]

/-- A fence does not begin with a byte order mark. -/
theorem dropMark_of_isFence {line : List Char} (h : isFence line = true) (rest : List Char) :
    dropMark (line ++ rest) = line ++ rest := by
  have hdashes : ['-', '-', '-'] <+: line := by
    rw [← beq_iff_eq.mp h]
    exact List.rdropWhile_prefix Text.isBlank line
  obtain ⟨behind, rfl⟩ := hdashes
  rfl

theorem metadataOf_break (text : List Char) : metadataOf (text ++ ['\n']) = metadataOf text := by
  unfold metadataOf
  rw [Text.trimEndBy_concat_of_pos text (by decide)]

theorem split_written {opening text closing : List Char} (hopening : '\n' ∉ opening)
    (hclosing : '\n' ∉ closing) (hfirst : isFence opening = true) (htext : Unfenced text)
    (hclose : isFence closing = true) (body : List Char) :
    split (String.ofList (written opening text closing body)) =
      (metadataOf text).map fun metadata => ⟨String.ofList body, metadata⟩ := by
  have hpage : textOf (String.ofList (written opening text closing body)) =
      written opening text closing body := by
    unfold textOf
    rw [String.toList_ofList]
    exact dropMark_of_isFence hfirst _
  have hlines := lines_written hopening hclosing text body
  rw [← hpage] at hlines
  rw [← isFence_break] at hfirst hclose
  have hmetadata := metadataOf_break text
  unfold metadataOf fields at hmetadata ⊢
  rw [split, splitBy_of_fences hlines hfirst htext.break hclose, flatten_lines, flatten_lines,
    hmetadata]

/-! ## The law -/

/-- A page that does not begin with a fence is all body. One whose first line is a fence is split at
the next line that is one: the text between the two, less the line breaks at its end, spells the
metadata, and what stands behind the second is the body; if there is none, and only then, the page
is unterminated. So front matter that is written between two fences reads back as what its text
spells, with the body as it was, character by character. -/
theorem a_page_is_split_at_its_first_two_fences :
    (∀ source,
      ((∀ first ∈ (lines (textOf source)).head?, isFence first = false) →
        split source = .ok ⟨String.ofList (textOf source), []⟩) ∧
      (split source = .error .unterminated ↔
        ∃ first rest, lines (textOf source) = first :: rest ∧ isFence first = true ∧
          ∀ line ∈ rest, isFence line = false) ∧
      ∀ first block close back, lines (textOf source) = first :: (block ++ close :: back) →
        isFence first = true → (∀ line ∈ block, isFence line = false) → isFence close = true →
        split source = (metadataOf block.flatten).map fun metadata =>
          ⟨String.ofList back.flatten, metadata⟩) ∧
    ∀ opening text closing body, '\n' ∉ opening → '\n' ∉ closing →
      isFence opening = true → isFence closing = true → Unfenced text →
      split (String.ofList (written opening text closing body)) =
        (metadataOf text).map fun metadata => ⟨String.ofList body, metadata⟩ := by
  refine ⟨fun source => ⟨splitBy_of_no_fence, splitBy_unterminated_iff, ?_⟩, ?_⟩
  · intro first block close back hlines hfirst hblock hclose
    exact splitBy_of_fences hlines hfirst hblock hclose
  · intro opening text closing body hopening hclosing hfirst hclose htext
    exact split_written hopening hclosing hfirst htext hclose body

end DocPages.FrontMatter
