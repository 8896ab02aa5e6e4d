-- What compiling with a memory does, by cases: a text that is remembered is
-- answered from the memory, and any other text is compiled and remembered
-- unless that fails.
import DocPages.Compile.Cached
import DocPages.Proofs.Cache.Lookup

namespace DocPages.Compile

variable {c : Collaborators} {o : Options.Compiler} {memory : Memory} {r : Request}

/-! ## A text that is remembered -/

theorem cached_of_hit {p : Compiled} (h : memory.find? r.source = some p) :
    cached c o memory r = (⟨[.note (.cacheHit r.file)], .ok p⟩, (memory.get r.source).2) := by
  unfold cached
  rw [Cache.get_of_find?_eq_some h]

/-! ## A text that is not remembered -/

/-- The work on a text that is not remembered: it is noted, and then the page is compiled. -/
def missWork (c : Collaborators) (o : Options.Compiler) (r : Request) : Traced Compiled :=
  (Traced.note (.cacheMiss r.file)).bind fun _ => page c o r

@[simp]
theorem missWork_outcome : (missWork c o r).outcome = (page c o r).outcome := rfl

theorem cached_of_miss (h : memory.find? r.source = none) :
    cached c o memory r =
      (missWork c o r,
        match (page c o r).outcome with
        | .ok p => memory.set r.source p
        | .error _ => memory) := by
  unfold cached
  rw [Cache.get_of_find?_eq_none h]
  dsimp only
  change (match (missWork c o r).outcome with
    | .ok p => (missWork c o r, memory.set r.source p)
    | .error _ => (missWork c o r, memory)) = _
  rw [missWork_outcome]
  cases (page c o r).outcome <;> rfl

theorem cached_outcome_of_miss (h : memory.find? r.source = none) :
    (cached c o memory r).1.outcome = (page c o r).outcome := by
  rw [cached_of_miss h]
  rfl

/-! ## Failures -/

/-- What is remembered never fails, so a failure comes from compiling the page. -/
theorem find?_eq_none_of_error {e : CompileError}
    (h : (cached c o memory r).1.outcome = .error e) : memory.find? r.source = none := by
  cases hf : memory.find? r.source with
  | none => rfl
  | some p =>
    rw [cached_of_hit hf] at h
    cases h

/-- A failure leaves the memory as it was, the order of use included. -/
theorem cached_memory_of_error {e : CompileError}
    (h : (cached c o memory r).1.outcome = .error e) : (cached c o memory r).2 = memory := by
  have hmiss := find?_eq_none_of_error h
  rw [cached_outcome_of_miss hmiss] at h
  rw [cached_of_miss hmiss, h]

end DocPages.Compile
