import DocPages.Compile.Error
import DocPages.Text.Quoted

/-!
Work that leaves a trace. Compiling asks other parts for what they know and tells a log what it
does; the trace holds every question and every line, in order, up to the failure if there is one.
-/

namespace DocPages

/-- A part that compiling asks. -/
inductive Part where
  | extract
  | render
  | stat
  | transpile
  deriving DecidableEq, Inhabited

/-- A question to a part, with what it is about: the text of a page, a text to be shown, a file, or
a script. -/
inductive Question where
  | extract (source : String)
  | render (text : String)
  | stat (file : String)
  | transpile (script : String)
  deriving DecidableEq, Inhabited

/-- The part that a question is put to. -/
def Question.part : Question → Part
  | .extract _ => .extract
  | .render _ => .render
  | .stat _ => .stat
  | .transpile _ => .transpile

/-- How much a line of the log matters. -/
inductive Level where
  | debug
  | warn
  | error
  deriving DecidableEq, Inhabited

/-- A line of the log. -/
inductive Note where
  | cacheHit (file : String)
  | cacheMiss (file : String)
  | demoFound (language flag : String)
  | generating (path : String)
  | noScript
  | markerMissing (marker path : String)
  | failed (id : String) (cause : CompileError)
  | finished (succeeded total : Nat)
  deriving DecidableEq, Inhabited

namespace Note

/-- How much a line matters. -/
def level : Note → Level
  | .markerMissing .. => .warn
  | .failed .. => .error
  | _ => .debug

/-- The text of a line. -/
def text : Note → String
  | .cacheHit file => "Cache hit for " ++ file
  | .cacheMiss file => "Cache miss for " ++ file
  | .demoFound language flag => "Found `" ++ language ++ " " ++ flag ++ "` demo fence"
  | .generating path => "Generating demo preview for " ++ path
  | .noScript => "Demo has no script block"
  | .markerMissing marker path =>
    "Demo marker " ++ Text.quoted marker ++ " not found in " ++ path ++
      "; embedding full page HTML"
  | .failed id cause => "Failed to compile " ++ id ++ ": " ++ cause.message
  | .finished succeeded total =>
    "Batch finished: " ++ toString succeeded ++ "/" ++ toString total ++ " succeeded"

end Note

/-- What compiling does that can be seen from outside. -/
inductive Event where
  | ask (question : Question)
  | note (note : Note)
  deriving DecidableEq, Inhabited

/-- The outcome of some work, and its trace. -/
structure Traced (α : Type) where
  trace : List Event
  outcome : Except CompileError α
  deriving Inhabited

namespace Traced

/-- Work with nothing to do. -/
def pure {α : Type} (a : α) : Traced α := ⟨[], .ok a⟩

/-- Work that goes on with what has come out, unless it has failed. -/
def bind {α β : Type} (work : Traced α) (next : α → Traced β) : Traced β :=
  match work.outcome with
  | .error e => ⟨work.trace, .error e⟩
  | .ok a => ⟨work.trace ++ (next a).trace, (next a).outcome⟩

instance : Monad Traced where
  pure := Traced.pure
  bind := Traced.bind

/-- A line of the log. -/
def note (n : Note) : Traced Unit := ⟨[.note n], .ok ()⟩

/-- The lines of the log in a trace. -/
def notes (trace : List Event) : List Note :=
  trace.filterMap fun
    | .note n => some n
    | .ask _ => none

/-- The questions in a trace. -/
def questions (trace : List Event) : List Question :=
  trace.filterMap fun
    | .note _ => none
    | .ask q => some q

/-- The answer to a question. Of what a part does for it, the lines of the log can be seen. -/
def ask {α : Type} (question : Question) (answer : Traced α) : Traced α :=
  ⟨.ask question :: (notes answer.trace).map .note, answer.outcome⟩

/-- An answer without a trace. -/
def answer {α : Type} (outcome : Except CompileError α) : Traced α := ⟨[], outcome⟩

/-- How often a part has been asked in a trace. -/
def count (part : Part) (trace : List Event) : Nat :=
  (questions trace).countP fun q => q.part == part

end Traced

end DocPages
