import DocPages.Compile.Cache
import DocPages.Compile.Page

/-!
Compiling with a memory. A text that has been compiled is not compiled again while it is remembered,
whatever its file; a failure is not remembered.
-/

namespace DocPages.Compile

/-- Pages that have been compiled, by their texts. -/
abbrev Memory := Cache Compiled

/-- Compiles a page, or takes it from the memory. -/
def cached (c : Collaborators) (o : Options.Compiler) (memory : Memory) (r : Request) :
    Traced Compiled × Memory :=
  match memory.get r.source with
  | (some page, memory) => (⟨[.note (.cacheHit r.file)], .ok page⟩, memory)
  | (none, memory) =>
    let work := (Traced.note (.cacheMiss r.file)).bind fun _ => page c o r
    match work.outcome with
    | .ok page => (work, memory.set r.source page)
    | .error _ => (work, memory)

end DocPages.Compile
