import DocPages.Text.Blank

/-!
Code written as a fenced block of a page. The fence is longer than every run of ticks in the code,
so that no line of the code can close it.
-/

namespace DocPages.Demo

/-- The mark of a fence. -/
def tick : Char := '\x60'

/-- The length of the longest run of ticks, where a run of `run` ticks stands in front. -/
def longestRunFrom (run : Nat) : List Char → Nat
  | [] => run
  | c :: cs => if c == tick then longestRunFrom (run + 1) cs else max run (longestRunFrom 0 cs)

/-- The length of the longest run of ticks. -/
def longestRun (cs : List Char) : Nat := longestRunFrom 0 cs

/-- The fence for code: three ticks at least. -/
def fenceMark (code : List Char) : List Char := List.replicate (max 3 (longestRun code + 1)) tick

/-- Code without the line breaks at its end. -/
def trimBreaks (code : List Char) : List Char := Text.trimEndBy Text.isLineBreak code

/-- The fenced block of code in a language. -/
def fenceChars (lang code : List Char) : List Char :=
  let mark := fenceMark code
  mark ++ lang ++ '\n' :: trimBreaks code ++ '\n' :: mark

/-- The fenced block of code in a language. -/
def fence (lang code : String) : String := String.ofList (fenceChars lang.toList code.toList)

end DocPages.Demo
