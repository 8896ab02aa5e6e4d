import DocPages.Options.Record

/-!
How many pages are compiled in one go.
-/

namespace DocPages.Options

/-- How a batch runs: how many pages at a time, where that is limited, and whether it goes on behind
a page that fails. -/
structure Batch where
  maxThreads : Option Nat
  continueOnError : Bool
  deriving DecidableEq, Inhabited

namespace Batch

/-- What holds where nothing is said. -/
def standard : Batch := ⟨none, true⟩

/-- The options that JSON spells. -/
def ofJson? (value : Json) : Option Batch := do
  match ← columns? ["maxThreads", "continueOnError"] value with
  | [threads, goesOn] =>
    let threads ← orElse standard.maxThreads (nullable count?) threads
    let goesOn ← orElse standard.continueOnError flag? goesOn
    some ⟨threads, goesOn⟩
  | _ => none

end Batch

/-- A page of a batch: its name, its text, and its file where that is not its name. -/
structure BatchInput where
  id : String
  source : String
  filePath : Option String
  deriving DecidableEq, Inhabited

namespace BatchInput

/-- The file of a page. -/
def file (input : BatchInput) : String := input.filePath.getD input.id

/-- The page of a batch that JSON spells. -/
def ofJson? (value : Json) : Option BatchInput := do
  match ← columns? ["id", "source", "filePath"] value with
  | [id, source, file] =>
    let id ← id.bind Json.string?
    let source ← source.bind Json.string?
    let file ← orElse none (nullable Json.string?) file
    some ⟨id, source, file⟩
  | _ => none

end BatchInput

end DocPages.Options
