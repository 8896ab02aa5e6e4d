-- Pages compiled one after another. Each finds the memory that the ones in
-- front of it have left. A page touches its text once, so a text that has been
-- compiled is found again until enough other texts have been compiled too.
import DocPages.Proofs.Cache.Recency
import DocPages.Proofs.Compile.Workshop

namespace DocPages.Compile

open Options (BatchInput)

/-! ## Pages in a row -/

/-- A page of a row, and the memory that it finds. -/
structure Visit where
  input : BatchInput
  memory : Memory

variable (c : Collaborators) (o : Options.Compiler) (root : String)

/-- The work on a page with the memory that it finds. -/
def Visit.work (v : Visit) : Traced Compiled := (cached c o v.memory (request root v.input)).1

/-- The memory that a page leaves. -/
def Visit.left (v : Visit) : Memory := (cached c o v.memory (request root v.input)).2

/-- What becomes of a page. -/
def Visit.result (v : Visit) : BatchResult := ⟨v.input.id, (v.work c o root).outcome⟩

/-- What can be seen of a page of a batch: the work on it, and the line that tells of its failure. -/
def Visit.trace (v : Visit) : List Event :=
  (v.work c o root).trace ++ failureNote v.input.id (v.work c o root).outcome

/-- Pages one after another, each with the memory that the one in front of it has left. -/
def visits : Memory → List BatchInput → List Visit
  | _, [] => []
  | memory, input :: inputs =>
    ⟨input, memory⟩ :: visits (Visit.left c o root ⟨input, memory⟩) inputs

/-- The memory behind pages in a row. -/
def memoryBehind (memory : Memory) (inputs : List BatchInput) : Memory :=
  inputs.foldl (fun memory input => Visit.left c o root ⟨input, memory⟩) memory

theorem memoryBehind_append (memory : Memory) (front back : List BatchInput) :
    memoryBehind c o root memory (front ++ back) =
      memoryBehind c o root (memoryBehind c o root memory front) back :=
  List.foldl_append

theorem visits_append (memory : Memory) (front back : List BatchInput) :
    visits c o root memory (front ++ back) =
      visits c o root memory front ++ visits c o root (memoryBehind c o root memory front) back := by
  induction front generalizing memory with
  | nil => rfl
  | cons input front ih => exact congrArg (List.cons _) (ih _)

theorem length_visits (memory : Memory) (inputs : List BatchInput) :
    (visits c o root memory inputs).length = inputs.length := by
  induction inputs generalizing memory with
  | nil => rfl
  | cons input inputs ih => exact congrArg (· + 1) (ih _)

variable {c o root}

/-! ## The work on one page -/

theorem BatchResult.isOk_iff {r : BatchResult} : r.isOk = true ↔ ∃ p, r.outcome = .ok p := by
  unfold BatchResult.isOk
  cases r.outcome with
  | ok p => exact iff_of_true rfl ⟨p, rfl⟩
  | error e => exact iff_of_false nofun nofun

theorem Visit.work_of_hit {v : Visit} {p : Compiled}
    (h : v.memory.find? v.input.source = some p) :
    v.work c o root = ⟨[.note (.cacheHit v.input.file)], .ok p⟩ := by
  unfold Visit.work
  rw [cached_of_hit (r := request root v.input) h]
  rfl

theorem Visit.work_of_miss {v : Visit} (h : v.memory.find? v.input.source = none) :
    v.work c o root = missWork c o (request root v.input) := by
  unfold Visit.work
  rw [cached_of_miss (r := request root v.input) h]

/-- A page goes on with the past of its memory: it changes the latest value of its own text alone,
and a page that does not fail touches that text once and is its latest value. -/
theorem Visit.exists_past (c : Collaborators) (o : Options.Compiler) (root : String) (v : Visit)
    {capacity : Nat} {past : List (Cache.Deed Compiled)}
    (h : Cache.Recent capacity ⟨v.memory, past⟩) :
    ∃ deeds, Cache.Recent capacity ⟨v.left c o root, deeds ++ past⟩ ∧
      (∀ key, key ≠ v.input.source →
        Cache.latest? key (deeds ++ past) = Cache.latest? key past) ∧
      ∀ p, (v.work c o root).outcome = .ok p →
        deeds.filterMap Cache.Deed.touched? = [v.input.source] ∧
          Cache.latest? v.input.source (deeds ++ past) = some p := by
  have hlooked := h.get v.input.source
  cases hf : v.memory.find? v.input.source with
  | some p =>
    rw [Cache.step_of_hit hf] at hlooked
    have hleft : v.left c o root = (v.memory.get v.input.source).2 := by
      unfold Visit.left
      rw [cached_of_hit (r := request root v.input) hf]
      rfl
    rw [hleft, Cache.get_of_find?_eq_some hf, Visit.work_of_hit hf]
    refine ⟨[⟨.get v.input.source, true⟩], hlooked, fun _ _ => rfl, fun q hq => ⟨rfl, ?_⟩⟩
    cases hq
    exact h.values _ (Cache.mem_of_find? hf)
  | none =>
    rw [Cache.step_of_miss hf] at hlooked
    rw [Visit.work_of_miss hf, missWork_outcome]
    cases hpage : (page c o (request root v.input)).outcome with
    | ok p =>
      have hleft : v.left c o root = v.memory.set v.input.source p := by
        unfold Visit.left
        rw [cached_of_miss (r := request root v.input) hf, hpage]
        rfl
      rw [hleft]
      refine ⟨[⟨.set v.input.source p, false⟩, ⟨.get v.input.source, false⟩],
        hlooked.set v.input.source p, fun key hne => if_neg hne.symm, fun q hq => ⟨rfl, ?_⟩⟩
      cases hq
      exact if_pos rfl
    | error e =>
      have hleft : v.left c o root = v.memory := by
        unfold Visit.left
        rw [cached_of_miss (r := request root v.input) hf, hpage]
      rw [hleft]
      exact ⟨[⟨.get v.input.source, false⟩], hlooked, fun _ _ => rfl, nofun⟩

/-! ## The work on a row of pages -/

/-- Pages that do not fail touch their texts in order, and change the latest values of these texts
alone. -/
theorem exists_past {capacity : Nat} {memory : Memory} {past : List (Cache.Deed Compiled)}
    (h : Cache.Recent capacity ⟨memory, past⟩) {inputs : List BatchInput}
    (hok : ∀ v ∈ visits c o root memory inputs, (v.result c o root).isOk = true) :
    ∃ deeds, Cache.Recent capacity ⟨memoryBehind c o root memory inputs, deeds ++ past⟩ ∧
      (∀ key ∉ inputs.map BatchInput.source,
        Cache.latest? key (deeds ++ past) = Cache.latest? key past) ∧
      deeds.filterMap Cache.Deed.touched? = (inputs.map BatchInput.source).reverse := by
  induction inputs generalizing memory past with
  | nil => exact ⟨[], h, fun _ _ => rfl, rfl⟩
  | cons input inputs ih =>
    rw [visits, List.forall_mem_cons] at hok
    obtain ⟨p, hp⟩ := BatchResult.isOk_iff.mp hok.1
    obtain ⟨first, hfirst, hothers, hown⟩ := Visit.exists_past c o root ⟨input, memory⟩ h
    obtain ⟨deeds, hdeeds, hlatest, htouched⟩ := ih hfirst hok.2
    refine ⟨deeds ++ first, ?_, ?_, ?_⟩
    · rw [List.append_assoc]
      exact hdeeds
    · intro key hkey
      rw [List.map_cons, List.mem_cons, not_or] at hkey
      rw [List.append_assoc, hlatest key hkey.2, hothers key hkey.1]
    · rw [List.filterMap_append, htouched, (hown p hp).1, List.map_cons, List.reverse_cons]

/-- A text that has been compiled is found again, unless there is no room for it besides the texts
compiled since. -/
theorem find?_memoryBehind {capacity : Nat} {memory : Memory} {past : List (Cache.Deed Compiled)}
    (h : Cache.Recent capacity ⟨memory, past⟩) {input : BatchInput} {inputs : List BatchInput}
    {p : Compiled} (hp : (Visit.work c o root ⟨input, memory⟩).outcome = .ok p)
    (hok : ∀ v ∈ visits c o root (Visit.left c o root ⟨input, memory⟩) inputs,
      (v.result c o root).isOk = true)
    (hnot : input.source ∉ inputs.map BatchInput.source) :
    (memoryBehind c o root memory (input :: inputs)).find? input.source =
      if (inputs.map BatchInput.source).dedup.length < max 1 capacity then some p else none := by
  obtain ⟨first, hfirst, -, hown⟩ := Visit.exists_past c o root ⟨input, memory⟩ h
  obtain ⟨htouched, hvalue⟩ := hown p hp
  obtain ⟨deeds, hdeeds, hlatest, hsince⟩ := exists_past hfirst hok
  have hheld : Cache.latest? input.source (deeds ++ (first ++ past)) = some p := by
    rw [hlatest _ hnot, hvalue]
  -- The texts touched since are those of the pages since, the last one first.
  have hpast : Cache.touchedSince input.source (deeds ++ (first ++ past)) =
      (inputs.map BatchInput.source).reverse := by
    have hpass : ∀ key ∈ (inputs.map BatchInput.source).reverse,
        (key != input.source) = true := by
      intro key hkey
      rw [bne_iff_ne]
      rintro rfl
      exact hnot (List.mem_reverse.mp hkey)
    unfold Cache.touchedSince
    rw [List.filterMap_append, List.filterMap_append, hsince, htouched,
      List.takeWhile_append_of_pos hpass]
    simp
  have hresident : Cache.Resident capacity (deeds ++ (first ++ past)) input.source ↔
      (inputs.map BatchInput.source).dedup.length < max 1 capacity := by
    unfold Cache.Resident
    rw [hpast, (List.reverse_perm _).dedup.length_eq]
    exact and_iff_right ⟨p, hheld⟩
  split
  · rename_i hroom
    exact hdeeds.find?_eq_some_iff.mpr ⟨hresident.mpr hroom, hheld⟩
  · rename_i hroom
    rw [← Cache.contains_eq_false_iff, Bool.eq_false_iff]
    exact fun hcontains => hroom (hresident.mp ((hdeeds.contains_iff _).mp hcontains))

/-- A page on a text that has been compiled in front of it is answered from the memory, unless there
is no room for the text besides those compiled since. Then it is compiled again. -/
theorem work_again {capacity : Nat} {memory : Memory} {past : List (Cache.Deed Compiled)}
    (h : Cache.Recent capacity ⟨memory, past⟩) {before between : List BatchInput}
    {page again : BatchInput}
    (hok : ∀ v ∈ visits c o root memory (before ++ page :: between),
      (v.result c o root).isOk = true)
    (hsource : again.source = page.source)
    (hnot : page.source ∉ between.map BatchInput.source) :
    Visit.work c o root ⟨again, memoryBehind c o root memory (before ++ page :: between)⟩ =
      if (between.map BatchInput.source).dedup.length < max 1 capacity then
        ⟨[.note (.cacheHit again.file)],
          (Visit.work c o root ⟨page, memoryBehind c o root memory before⟩).outcome⟩
      else missWork c o (request root again) := by
  rw [visits_append, List.forall_mem_append, visits, List.forall_mem_cons] at hok
  obtain ⟨hbefore, hpage, hbetween⟩ := hok
  obtain ⟨p, hp⟩ := BatchResult.isOk_iff.mp hpage
  obtain ⟨deeds, hdeeds, -, -⟩ := exists_past h hbefore
  have hfind := find?_memoryBehind hdeeds hp hbetween hnot
  rw [← memoryBehind_append, ← hsource] at hfind
  split
  · rename_i hroom
    rw [if_pos hroom] at hfind
    refine (Visit.work_of_hit (v := ⟨again, memoryBehind c o root memory _⟩) hfind).trans ?_
    exact congrArg (Traced.mk _) hp.symm
  · rename_i hroom
    rw [if_neg hroom] at hfind
    exact Visit.work_of_miss (v := ⟨again, memoryBehind c o root memory _⟩) hfind

end DocPages.Compile
