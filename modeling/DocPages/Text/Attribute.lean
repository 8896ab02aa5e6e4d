/-!
Text inside a quoted attribute. Five characters are written as references; nothing that is left can
end the attribute.
-/

namespace DocPages.Text

/-- The characters that stand for one character inside a quoted attribute. -/
def attributeChar (c : Char) : List Char :=
  match c with
  | '&' => ['&', 'a', 'm', 'p', ';']
  | '<' => ['&', 'l', 't', ';']
  | '>' => ['&', 'g', 't', ';']
  | '\x22' => ['&', 'q', 'u', 'o', 't', ';']
  | '\x27' => ['&', '#', 'x', '2', '7', ';']
  | c => [c]

/-- The text as it is written inside a quoted attribute. -/
def attributeText (cs : List Char) : List Char := cs.flatMap attributeChar

end DocPages.Text
