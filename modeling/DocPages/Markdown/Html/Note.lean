import DocPages.Markdown.Html.Writer
import DocPages.Text.Search

/-!
Notes. Each is written where it stands, but into a buffer; those that are called are shown at the
end of the page in the order of their first calls, with links back to the calls.
-/

namespace DocPages.Markdown.Html.Writer

/-- The calls with one more call of a note. -/
def countCall (key : List Char) : List (List Char × Nat) → List (List Char × Nat)
  | [] => [(key, 1)]
  | (k, n) :: rest => if k == key then (k, n + 1) :: rest else (k, n) :: countCall key rest

/-- The key of a note as a part of an anchor. -/
def noteAnchor (key : List Char) : List Char := Url.sanitize (Text.lowerCase key)

/-- The number behind the anchor of a call, which the first call does without. -/
def callSuffix (n : Nat) : String := if n ≤ 1 then "" else "-" ++ toString n

/-- Leaves a call of a note. In the text that an image shows there is no mark of it, but it
counts. -/
def exitCall (w : Writer) : Writer :=
  let (m, w) := w.popMedium
  let key := labelKey (Slot.spelled m.name)
  let calls := countCall key w.calls
  let w := { w with calls := calls }
  if w.inAlt then w
  else
    let number := (calls.findIdx fun c => c.1 == key) + 1
    let count := ((calls.find? fun c => c.1 == key).map (·.2)).getD 1
    let anchor := noteAnchor key
    ((((((w.put "<sup><a href=\"#user-content-fn-").write anchor).put
      "\" id=\"user-content-fnref-").write anchor).put (callSuffix count)).put
      "\" data-footnote-ref=\"\" aria-describedby=\"footnote-label\">").put (toString number)
      |>.put "</a></sup>"

/-- Leaves a note. -/
def exitNote (w : Writer) : Writer :=
  let body := w.buffered
  let w := w.unbuffer.leaveContainer
  { w with
    slurp := true
    openNotes := w.openNotes.drop 1
    notes := w.notes ++ [(w.openNotes.headD [], body)] }

/-! ## The notes at the end -/

/-- The links from a note back to its calls. -/
def backLinks (key : List Char) (count : Nat) : List Char :=
  let anchor := noteAnchor key
  let one (n : Nat) : List Char :=
    "<a href=\"#user-content-fnref-".toList ++ anchor ++ (callSuffix n).toList ++
      "\" data-footnote-backref=\"\" aria-label=\"Back to content\"".toList ++
      " class=\"data-footnote-backref\">".toList ++ [Char.ofNat 0x21A9] ++
      (if n ≤ 1 then [] else ("<sup>" ++ toString n ++ "</sup>").toList) ++ "</a>".toList
  Text.joinWith [' '] ((List.range count).map fun n => one (n + 1))

/-- Writes a note with its links back, which are put into its last paragraph, or on a line of their
own. -/
def writeNoteBody (w : Writer) (body links : List Char) : Writer :=
  let back := body.reverse
  let trimmed := back.dropWhile Text.isLineBreak
  match trimmed with
  | '>' :: 'p' :: '/' :: '<' :: front =>
    let breaks := (back.take (back.length - trimmed.length)).reverse
    ((w.write front.reverse).write (' ' :: links)).write ("</p>".toList ++ breaks)
  | _ => (w.write body).freshLine.write links

/-- Writes a note that has been called. -/
def writeNote (w : Writer) (call : List Char × Nat) : Writer :=
  let body := ((w.notes.find? fun n => n.1 == call.1).map (·.2)).getD []
  let w := ((w.newLine.put "<li id=\"user-content-fn-").write (noteAnchor call.1)).put "\">"
  (w.newLine.writeNoteBody body (backLinks call.1 call.2)).line "</li>"

/-- Writes the notes that have been called. -/
def writeNotes (w : Writer) : Writer :=
  if w.calls.isEmpty then w
  else
    let w := w.line
      ("<section data-footnotes=\"\" class=\"footnotes\">" ++
        "<h2 id=\"footnote-label\" class=\"sr-only\">Footnotes</h2>")
    let w := w.newLine.put "<ol>"
    let w := w.calls.foldl writeNote w
    ((w.newLine.put "</ol>").newLine.put "</section>").newLine

end DocPages.Markdown.Html.Writer
