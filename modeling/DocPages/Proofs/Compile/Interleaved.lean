-- Batches whose pages are worked on in turns. Where the pages are distinct
-- texts and the memory has room for all of them, no step on one page changes
-- what another page will find, so every schedule gives the report and the
-- memory of compiling one by one.
import DocPages.Proofs.Compile.Workshop

namespace DocPages.Compile

open Options (BatchInput)

variable (c : Collaborators) (o : Options.Compiler) (root : String) (memory : Memory)

/-! ## What a page comes to -/

/-- What a page of a batch gives with the memory as it stands at the start of the batch. -/
def alone (input : BatchInput) : Except CompileError Compiled :=
  (cached c o memory (request root input)).1.outcome

/-- The work on a page goes toward what the page gives alone. -/
def Job.Fits (job : Job) : Prop :=
  match job.stage with
  | .waiting => True
  | .compiled p =>
    memory.find? job.input.source = none ∧ alone c o root memory job.input = .ok p
  | .settled outcome => outcome = alone c o root memory job.input
  | .counted outcome => outcome = alone c o root memory job.input

/-- What the memory holds under the text of a page: once the page is settled, what it gives if it
does not fail, and what was there at the start before. -/
def Job.held (job : Job) : Option Compiled :=
  match job.stage with
  | .waiting => memory.find? job.input.source
  | .compiled _ => memory.find? job.input.source
  | .settled _ => (alone c o root memory job.input).toOption
  | .counted _ => (alone c o root memory job.input).toOption

/-- Whether a page may still be stored under a text that was not there at the start. -/
def Job.owes (job : Job) : Bool :=
  match job.stage with
  | .waiting => !memory.contains job.input.source
  | .compiled _ => !memory.contains job.input.source
  | .settled _ => false
  | .counted _ => false

variable {c o root memory}

theorem alone_of_hit {input : BatchInput} {p : Compiled}
    (h : memory.find? input.source = some p) : alone c o root memory input = .ok p := by
  unfold alone
  rw [cached_of_hit (r := request root input) h]

theorem alone_of_miss {input : BatchInput} (h : memory.find? input.source = none) :
    alone c o root memory input = (page c o (request root input)).outcome :=
  cached_outcome_of_miss (r := request root input) h

/-! ## One step -/

/-- What one step on a page changes: the text of that page alone, within the room it owes. -/
structure Moves (c : Collaborators) (o : Options.Compiler) (root : String) (memory : Memory)
    (shared : Shared) (job : Job) (shared' : Shared) (job' : Job) : Prop where
  input : job'.input = job.input
  fits : job'.Fits c o root memory
  held : shared'.memory.find? job.input.source = job'.held c o root memory
  others : ∀ key, key ≠ job.input.source →
    shared'.memory.find? key = shared.memory.find? key
  capacity : shared'.memory.capacity = shared.memory.capacity
  room : shared'.memory.size + (job'.owes memory).toNat ≤
    shared.memory.size + (job.owes memory).toNat

theorem moves_step {shared : Shared} {job : Job} (hfits : job.Fits c o root memory)
    (hheld : shared.memory.find? job.input.source = job.held c o root memory)
    (hroom : shared.memory.size + (job.owes memory).toNat ≤ shared.memory.capacity) :
    Moves c o root memory shared job (job.step c o root shared).1 (job.step c o root shared).2 := by
  obtain ⟨input, stage⟩ := job
  cases stage with
  | waiting =>
    change shared.memory.find? input.source = memory.find? input.source at hheld
    rcases step_waiting c o root shared input with ⟨p, hf, hs⟩ | ⟨hf, ⟨p, hp, hs⟩ | ⟨e, he, hs⟩⟩
    · rw [hf] at hheld
      have halone : alone c o root memory input = .ok p := alone_of_hit hheld.symm
      rw [hs]
      refine ⟨rfl, halone.symm, ?_, fun key _ => Cache.find?_get _ _ _, Cache.capacity_get _ _, ?_⟩
      · change (shared.memory.get input.source).2.find? input.source = (alone c o root memory
          input).toOption
        rw [Cache.find?_get, hf, halone]
        rfl
      · exact Nat.le_trans (Cache.size_get_le _ _) (Nat.le_add_right _ _)
    · rw [hf] at hheld
      rw [hs]
      exact ⟨rfl, ⟨hheld.symm, (alone_of_miss hheld.symm).trans hp⟩, hf.trans hheld,
        fun _ _ => rfl, rfl, Nat.le_refl _⟩
    · rw [hf] at hheld
      have halone : alone c o root memory input = .error e :=
        (alone_of_miss hheld.symm).trans he
      rw [hs]
      refine ⟨rfl, halone.symm, ?_, fun _ _ => rfl, rfl, Nat.le_add_right _ _⟩
      change shared.memory.find? input.source = (alone c o root memory input).toOption
      rw [hf, halone]
      rfl
  | compiled p =>
    obtain ⟨hnone, halone⟩ := hfits
    change memory.find? input.source = none at hnone
    change alone c o root memory input = .ok p at halone
    have howes : (Job.mk input (.compiled p)).owes memory = true := by
      simp [Job.owes, Cache.contains, hnone]
    rw [howes] at hroom
    -- The room that the page owes is still free, so storing it drops nothing.
    have hset := Cache.find?_set_of_room (c := shared.memory) (Nat.lt_of_succ_le hroom)
    refine ⟨rfl, halone.symm, ?_, ?_, rfl, ?_⟩
    · change (shared.memory.set input.source p).find? input.source =
        (alone c o root memory input).toOption
      rw [hset, if_pos rfl, halone]
      rfl
    · intro key hne
      exact (hset _ _ _).trans (if_neg hne)
    · rw [howes]
      exact Cache.size_set_le _ _ _
  | settled outcome =>
    refine ⟨rfl, hfits, ?_, ?_, ?_, ?_⟩
    · cases outcome <;> exact hheld
    · cases outcome <;> exact fun _ _ => rfl
    · cases outcome <;> rfl
    · cases outcome <;> exact Nat.le_refl _
  | counted outcome => exact ⟨rfl, hfits, hheld, fun _ _ => rfl, rfl, Nat.le_refl _⟩

/-! ## The invariant -/

/-- A batch under way. Each page goes toward what it gives alone; the memory holds what the pages
say, and what it held at the start; there is room for what is still to be stored; and the counters
tell the pages counted. -/
structure Underway (c : Collaborators) (o : Options.Compiler) (root : String) (memory : Memory)
    (inputs : List BatchInput) (w : Workshop) : Prop where
  pages : w.jobs.map Job.input = inputs
  fits : ∀ job ∈ w.jobs, job.Fits c o root memory
  held : ∀ job ∈ w.jobs,
    w.shared.memory.find? job.input.source = job.held c o root memory
  others : ∀ key, key ∉ inputs.map BatchInput.source →
    w.shared.memory.find? key = memory.find? key
  room : w.shared.memory.size + w.jobs.countP (Job.owes memory) ≤ w.shared.memory.capacity
  counters : ∀ ok, w.shared.counter ok = UInt32.ofNat (w.jobs.countP (Job.counts ok))

variable {inputs : List BatchInput} {w : Workshop}

theorem underway_start
    (hroom : memory.size + inputs.countP (fun input => !memory.contains input.source) ≤
      memory.capacity) : Underway c o root memory inputs (.start memory inputs) := by
  have hstage : ∀ job ∈ (Workshop.start memory inputs).jobs, job.stage = .waiting := by
    intro job hjob
    obtain ⟨input, -, rfl⟩ := List.mem_map.mp hjob
    rfl
  refine ⟨?_, ?_, ?_, fun _ _ => rfl, ?_, Workshop.counted_start memory inputs⟩
  · simp [Workshop.start, Function.comp_def]
  · intro job hjob
    unfold Job.Fits
    rw [hstage job hjob]
    trivial
  · intro job hjob
    unfold Job.held
    rw [hstage job hjob]
    rfl
  · unfold Workshop.start
    dsimp only
    rw [List.countP_map]
    exact hroom

/-- One turn keeps a batch under way. -/
theorem Underway.turn (hsources : (inputs.map BatchInput.source).Nodup)
    (h : Underway c o root memory inputs w) (i : Nat) :
    Underway c o root memory inputs (w.turn c o root i) := by
  rcases Workshop.turn_cases c o root w i with hsame | ⟨front, job, back, hjobs, hturn⟩
  · rw [hsame]
    exact h
  · have hcounted : (w.turn c o root i).Counted := Workshop.Counted.turn c o root h.counters i
    obtain ⟨hinputs, hfits, hheld, hothers, hroom, -⟩ := h
    rw [hjobs] at hinputs hfits hheld hroom
    have hjob : job ∈ front ++ job :: back := List.mem_append_right _ List.mem_cons_self
    have hrest : ∀ other ∈ front ++ back, other ∈ front ++ job :: back := by
      intro other ho
      rcases List.mem_append.mp ho with ho | ho
      · exact List.mem_append_left _ ho
      · exact List.mem_append_right _ (List.mem_cons_of_mem _ ho)
    -- The texts are distinct, so a step on one page is no matter to the others.
    have hne : ∀ other ∈ front ++ back, other.input.source ≠ job.input.source := by
      have hmiddle : ((job :: (front ++ back)).map fun j => j.input.source).Nodup := by
        rw [← hinputs, List.map_map] at hsources
        exact ((List.perm_middle.map _).nodup_iff).mp hsources
      intro other ho heq
      exact (List.nodup_cons.mp hmiddle).1 (List.mem_map.mpr ⟨other, ho, heq⟩)
    rw [countP_middle] at hroom
    have hmoves : Moves c o root memory w.shared job (job.step c o root w.shared).1
        (job.step c o root w.shared).2 := by
      refine moves_step (hfits job hjob) (hheld job hjob) ?_
      omega
    rw [hturn] at hcounted ⊢
    refine ⟨?_, ?_, ?_, ?_, ?_, hcounted⟩
    · rw [← hinputs]
      simp [hmoves.input]
    · intro other ho
      rcases List.mem_cons.mp (List.perm_middle.mem_iff.mp ho) with rfl | ho
      · exact hmoves.fits
      · exact hfits other (hrest other ho)
    · intro other ho
      rcases List.mem_cons.mp (List.perm_middle.mem_iff.mp ho) with rfl | ho
      · rw [hmoves.input]
        exact hmoves.held
      · exact (hmoves.others _ (hne other ho)).trans (hheld other (hrest other ho))
    · intro key hkey
      refine (hmoves.others key ?_).trans (hothers key hkey)
      rintro rfl
      refine hkey (List.mem_map_of_mem ?_)
      rw [← hinputs]
      exact List.mem_map_of_mem hjob
    · have := hmoves.room
      have := hmoves.capacity
      rw [countP_middle]
      dsimp only
      omega

theorem Underway.work (hsources : (inputs.map BatchInput.source).Nodup)
    (h : Underway c o root memory inputs w) (schedule : List Nat) :
    Underway c o root memory inputs (w.work c o root schedule) := by
  induction schedule generalizing w with
  | nil => exact h
  | cons i schedule ih => exact ih (h.turn hsources i)

/-! ## When all is done -/

/-- A page that is done has the result that it gives alone. -/
theorem result?_of_done {job : Job} (hfits : job.Fits c o root memory) (hdone : job.IsDone) :
    job.result? = some ⟨job.input.id, alone c o root memory job.input⟩ := by
  obtain ⟨input, stage⟩ := job
  obtain ⟨outcome, rfl⟩ := hdone
  have hout : outcome = alone c o root memory input := hfits
  rw [← hout]
  rfl

theorem results_of_done {jobs : List Job} (hfits : ∀ job ∈ jobs, job.Fits c o root memory)
    (hdone : ∀ job ∈ jobs, job.IsDone) :
    jobs.filterMap Job.result? =
      (jobs.map Job.input).map fun input => ⟨input.id, alone c o root memory input⟩ := by
  induction jobs with
  | nil => rfl
  | cons job jobs ih =>
    have hjob := result?_of_done (hfits job List.mem_cons_self) (hdone job List.mem_cons_self)
    rw [List.filterMap_cons_some hjob, List.map_cons, List.map_cons,
      ih (fun j hj => hfits j (List.mem_cons_of_mem _ hj))
        fun j hj => hdone j (List.mem_cons_of_mem _ hj)]

theorem Underway.results (h : Underway c o root memory inputs w) (hdone : w.IsDone) :
    w.jobs.filterMap Job.result? =
      inputs.map fun input => ⟨input.id, alone c o root memory input⟩ := by
  rw [results_of_done h.fits hdone, h.pages]

/-- The memory behind a batch is told by the batch and the memory before. -/
theorem Underway.find?_eq (h : Underway c o root memory inputs w) (hdone : w.IsDone)
    {w' : Workshop} (h' : Underway c o root memory inputs w') (hdone' : w'.IsDone) (key : String) :
    w.shared.memory.find? key = w'.shared.memory.find? key := by
  have hpage : ∀ {v : Workshop}, Underway c o root memory inputs v → v.IsDone →
      ∀ input ∈ inputs, v.shared.memory.find? input.source =
        (alone c o root memory input).toOption := by
    intro v hv hvdone input hinput
    rw [← hv.pages] at hinput
    obtain ⟨job, hjob, rfl⟩ := List.mem_map.mp hinput
    obtain ⟨outcome, hstage⟩ := hvdone job hjob
    rw [hv.held job hjob]
    unfold Job.held
    rw [hstage]
  by_cases hkey : key ∈ inputs.map BatchInput.source
  · obtain ⟨input, hinput, rfl⟩ := List.mem_map.mp hkey
    rw [hpage h hdone input hinput, hpage h' hdone' input hinput]
  · rw [h.others key hkey, h'.others key hkey]

theorem Underway.report_eq (h : Underway c o root memory inputs w)
    (hlength : inputs.length < UInt32.size) :
    w.report =
      ⟨w.jobs.filterMap Job.result?, inputs.length,
        (w.jobs.filterMap Job.result?).countP BatchResult.isOk,
        (w.jobs.filterMap Job.result?).countP fun r => !r.isOk⟩ := by
  have hjobs : w.jobs.length = inputs.length := by rw [← h.pages, List.length_map]
  rw [← hjobs] at hlength ⊢
  exact Workshop.Counted.report_eq h.counters hlength

/-! ## The law -/

/-- A batch that goes on behind failures, of distinct texts, fewer than 2 ^ 32, with room in the
memory for those that are not there: whatever the schedule, once all pages are counted the report is
that of compiling one by one, and so is each value in the memory. Each page has the result that it
gives alone, in order, and the counters tell them. Three turns for each page are always enough. -/
theorem every_schedule_gives_the_report_of_one_by_one (c : Collaborators) (o : Options.Compiler)
    (root : String) (memory : Memory) (inputs : List BatchInput) (options : Options.Batch)
    (hgoes : options.continueOnError = true) (hsources : (inputs.map BatchInput.source).Nodup)
    (hroom : memory.size + inputs.countP (fun input => !memory.contains input.source) ≤
      memory.capacity) (hlength : inputs.length < UInt32.size) (schedule : List Nat) :
    (((Workshop.start memory inputs).work c o root schedule).IsDone →
        ((Workshop.start memory inputs).work c o root schedule).report =
            (batch c o memory inputs root options).1 ∧
          ((Workshop.start memory inputs).work c o root schedule).report =
            (let results := inputs.map fun input =>
              (⟨input.id, alone c o root memory input⟩ : BatchResult)
            ⟨results, inputs.length, results.countP BatchResult.isOk,
              results.countP fun r => !r.isOk⟩) ∧
          (batch c o memory inputs root options).1.succeeded +
              (batch c o memory inputs root options).1.failed =
            (batch c o memory inputs root options).1.total ∧
          ∀ key, ((Workshop.start memory inputs).work c o root schedule).shared.memory.find? key =
            (batch c o memory inputs root options).2.2.find? key) ∧
      ((∀ i < inputs.length, 3 ≤ schedule.count i) →
        ((Workshop.start memory inputs).work c o root schedule).IsDone) := by
  refine ⟨fun hdone => ?_, Workshop.isDone_of_turns c o root⟩
  have hstart : Underway c o root memory inputs (.start memory inputs) := underway_start hroom
  have hw := hstart.work hsources schedule
  obtain ⟨inOrder, hdone', hmemory', hresults'⟩ :=
    Workshop.one_by_one c o root memory inputs options hgoes
  have hw' := hstart.work hsources inOrder
  have hreport := hw.report_eq hlength
  rw [hw.results hdone] at hreport
  rw [hw'.results hdone'] at hresults'
  have hbatch : ((Workshop.start memory inputs).work c o root schedule).report =
      (batch c o memory inputs root options).1 := by
    rw [hreport, hresults']
    rfl
  refine ⟨hbatch, hreport, ?_, fun key => ?_⟩
  · rw [← hbatch, hreport]
    dsimp only
    have hsum := List.length_eq_countP_add_countP BatchResult.isOk
      (l := inputs.map fun input => (⟨input.id, alone c o root memory input⟩ : BatchResult))
    rw [List.length_map] at hsum
    simpa using hsum.symm
  · rw [← hmemory']
    exact hw.find?_eq hdone hw' hdone' key

/-- Collaborators that show each text as it is, but for one that cannot be shown. -/
def bluntCollaborators : Collaborators where
  extract source := .ok ⟨source, []⟩
  render text :=
    ⟨[], if text = "bad" then .error (.render "bad input" 1 1) else .ok ⟨text, [], none⟩⟩
  modified _ := .ok 0
  transpile script := .ok script

/-- Three pages, the second of which cannot be shown. -/
def threePages : List BatchInput :=
  [⟨"a.md", "good", none⟩, ⟨"b.md", "bad", none⟩, ⟨"c.md", "better", none⟩]

/-- The last page is compiled first and the first one is stored last; still each has its place in
the report. -/
theorem three_pages_in_turns_are_reported_in_order :
    ((threePages.map BatchInput.source).Nodup ∧
        (Cache.empty 3 : Memory).size +
            threePages.countP (fun input => !(Cache.empty 3 : Memory).contains input.source) ≤
          (Cache.empty 3 : Memory).capacity ∧ threePages.length < UInt32.size) ∧
      (((Workshop.start (.empty 3) threePages).work bluntCollaborators .standard ""
              [2, 0, 1, 2, 1, 2, 1, 0, 0]).report.results.map fun r => (r.id, r.isOk)) =
          [("a.md", true), ("b.md", false), ("c.md", true)] ∧
        ((Workshop.start (.empty 3) threePages).work bluntCollaborators .standard ""
              [2, 0, 1, 2, 1, 2, 1, 0, 0]).report.succeeded = 2 ∧
        ((Workshop.start (.empty 3) threePages).work bluntCollaborators .standard ""
              [2, 0, 1, 2, 1, 2, 1, 0, 0]).report =
          (batch bluntCollaborators .standard (.empty 3) threePages "" .standard).1 := by
  have hsources : (threePages.map BatchInput.source).Nodup := by decide +kernel
  have hroom : (Cache.empty 3 : Memory).size +
      threePages.countP (fun input => !(Cache.empty 3 : Memory).contains input.source) ≤
        (Cache.empty 3 : Memory).capacity := by decide +kernel
  have hlength : threePages.length < UInt32.size := by decide
  obtain ⟨hreport, hturns⟩ := every_schedule_gives_the_report_of_one_by_one bluntCollaborators
    .standard "" (.empty 3) threePages .standard rfl hsources hroom hlength
    [2, 0, 1, 2, 1, 2, 1, 0, 0]
  obtain ⟨hbatch, halone, -, -⟩ := hreport (hturns (by decide))
  refine ⟨⟨hsources, hroom, hlength⟩, ?_, ?_, hbatch⟩
  · rw [halone]
    decide +kernel
  · rw [halone]
    decide +kernel

end DocPages.Compile
