import DocPages.Compile.Cached
import DocPages.Options.Batch

/-!
Compiling many pages in one go. A batch goes on behind a page that fails, or ends with it.
-/

namespace DocPages.Compile

open Options (BatchInput)

/-- What has become of a page of a batch. -/
structure BatchResult where
  id : String
  outcome : Except CompileError Compiled
  deriving Inhabited

/-- What has become of a batch: its results, how many pages it had, and how many of them succeeded
and failed. -/
structure BatchReport where
  results : List BatchResult
  total : Nat
  succeeded : Nat
  failed : Nat
  deriving Inhabited

/-- Whether a page has been compiled. -/
def BatchResult.isOk (r : BatchResult) : Bool :=
  match r.outcome with
  | .ok _ => true
  | .error _ => false

/-- A run of a batch so far: the results, last one first, the trace and the memory. -/
structure BatchRun where
  results : List BatchResult
  trace : List Event
  memory : Memory
  deriving Inhabited

/-- The line that tells of a failure. -/
def failureNote (id : String) : Except CompileError Compiled → List Event
  | .ok _ => []
  | .error cause => [.note (.failed id cause)]

/-- Compiles one more page. -/
def BatchRun.step (c : Collaborators) (o : Options.Compiler) (root : String) (run : BatchRun)
    (input : BatchInput) : BatchRun :=
  let (work, memory) := cached c o run.memory ⟨input.source, input.file, root⟩
  ⟨⟨input.id, work.outcome⟩ :: run.results,
    run.trace ++ work.trace ++ failureNote input.id work.outcome, memory⟩

/-- Whether the last page of a run has failed. -/
def BatchRun.hasFailed (run : BatchRun) : Bool := run.results.head?.any fun r => !r.isOk

/-- Compiles pages in order, up to the first failure unless the run goes on. -/
def BatchRun.steps (c : Collaborators) (o : Options.Compiler) (root : String) (goesOn : Bool) :
    BatchRun → List BatchInput → BatchRun
  | run, [] => run
  | run, input :: rest =>
    let run := run.step c o root input
    if !goesOn && run.hasFailed then run else steps c o root goesOn run rest

/-- The report on a run over some number of pages. -/
def BatchRun.report (run : BatchRun) (total : Nat) : BatchReport :=
  let results := run.results.reverse
  ⟨results, total, results.countP BatchResult.isOk, results.countP fun r => !r.isOk⟩

/-- Compiles a batch: the report, the trace and the memory. -/
def batch (c : Collaborators) (o : Options.Compiler) (memory : Memory) (inputs : List BatchInput)
    (root : String) (options : Options.Batch) : BatchReport × List Event × Memory :=
  let run := BatchRun.steps c o root options.continueOnError ⟨[], [], memory⟩ inputs
  let report := run.report inputs.length
  (report, run.trace ++ [.note (.finished report.succeeded report.total)], run.memory)

end DocPages.Compile
