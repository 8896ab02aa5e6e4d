import DocPages.Text.Search

/-!
Braces in generated markup. A template compiler reads two equal braces in a row as the start or the
end of an interpolation; a break between them, which shows as nothing, keeps it from doing so. Main
statements: no pair is left, and a text without a pair stays as it is.
-/

namespace DocPages.TemplateTokens

/-- The element put between two braces. -/
def breakMark : List Char := ['<', 'w', 'b', 'r', '>']

/-- A brace, opening or closing. -/
def isBrace (c : Char) : Bool := c == '\x7b' || c == '\x7d'

/-- Puts a break between every two equal braces that stand next to each other. -/
def breakPairs : List Char → List Char
  | [] => []
  | [c] => [c]
  | c :: d :: rest =>
    if isBrace c && c == d then c :: (breakMark ++ breakPairs (d :: rest))
    else c :: breakPairs (d :: rest)

/-- Whether two equal braces stand next to each other. -/
def hasPair (cs : List Char) : Bool :=
  Text.contains ['\x7b', '\x7b'] cs || Text.contains ['\x7d', '\x7d'] cs

/-- Markup in which no two equal braces stand next to each other. Markup that is so from the start
is handed back as it is. -/
def escape (html : String) : String :=
  if hasPair html.toList then String.ofList (breakPairs html.toList) else html

@[simp] theorem breakPairs_nil : breakPairs [] = [] := rfl

@[simp] theorem breakPairs_singleton (c : Char) : breakPairs [c] = [c] := rfl

theorem breakPairs_ne_nil {cs : List Char} (h : cs ≠ []) : breakPairs cs ≠ [] := by
  match cs, h with
  | [c], _ => simp
  | c :: d :: rest, _ => rw [breakPairs]; split <;> simp

end DocPages.TemplateTokens
