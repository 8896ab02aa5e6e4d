-- Batches that end with the first page that fails. Such a batch is a row of
-- pages compiled one after another, up to the first failure; the pages behind
-- it leave no trace, neither in the report nor in the memory.
import DocPages.Proofs.Compile.InTurn
import DocPages.Proofs.Compile.Interleaved

namespace DocPages.Compile

open Options (BatchInput)

variable (c : Collaborators) (o : Options.Compiler) (root : String)

/-! ## Up to the first failure -/

/-- Pages are compiled one after another up to the first failure: none but the last one fails, and
that one fails if there are more pages behind. -/
structure UpToFailure (memory : Memory) (front behind : List BatchInput) : Prop where
  ok : ∀ v ∈ (visits c o root memory front).dropLast, (v.result c o root).isOk = true
  failed : behind ≠ [] →
    ∃ v ∈ (visits c o root memory front).getLast?, (v.result c o root).isOk = false

/-- A run of a batch with more pages behind it. -/
def BatchRun.through (run : BatchRun) (inputs : List BatchInput) : BatchRun :=
  ⟨((visits c o root run.memory inputs).map (Visit.result c o root)).reverse ++ run.results,
    run.trace ++ (visits c o root run.memory inputs).flatMap (Visit.trace c o root),
    memoryBehind c o root run.memory inputs⟩

theorem through_nil (run : BatchRun) : run.through c o root [] = run := by
  unfold BatchRun.through
  rw [visits, List.flatMap_nil, List.append_nil]
  rfl

theorem step_eq (run : BatchRun) (input : BatchInput) :
    run.step c o root input =
      ⟨Visit.result c o root ⟨input, run.memory⟩ :: run.results,
        run.trace ++ Visit.trace c o root ⟨input, run.memory⟩,
        Visit.left c o root ⟨input, run.memory⟩⟩ := by
  unfold Visit.trace
  rw [← List.append_assoc]
  rfl

/-- One page more, and then the others. -/
theorem through_cons (run : BatchRun) (input : BatchInput) (inputs : List BatchInput) :
    run.through c o root (input :: inputs) =
      (run.step c o root input).through c o root inputs := by
  rw [step_eq]
  unfold BatchRun.through
  rw [visits, List.map_cons, List.reverse_cons, List.flatMap_cons, List.append_assoc,
    ← List.append_assoc run.trace]
  rfl

theorem hasFailed_step (run : BatchRun) (input : BatchInput) :
    (run.step c o root input).hasFailed =
      !(Visit.result c o root ⟨input, run.memory⟩).isOk := by
  rw [step_eq]
  rfl

/-- A run that stops at a failure goes through the pages up to the first one that fails. -/
theorem steps_stop (run : BatchRun) (inputs : List BatchInput) :
    ∃ front behind, inputs = front ++ behind ∧ UpToFailure c o root run.memory front behind ∧
      BatchRun.steps c o root false run inputs = run.through c o root front := by
  induction inputs generalizing run with
  | nil =>
    have hnone : UpToFailure c o root run.memory [] [] :=
      ⟨List.forall_mem_nil _, fun hmore => absurd rfl hmore⟩
    exact ⟨[], [], rfl, hnone, (through_nil c o root run).symm⟩
  | cons input inputs ih =>
    rw [BatchRun.steps, hasFailed_step]
    cases hok : (Visit.result c o root ⟨input, run.memory⟩).isOk with
    | false =>
      have hfirst : UpToFailure c o root run.memory [input] inputs :=
        ⟨List.forall_mem_nil _, fun _ => ⟨_, rfl, hok⟩⟩
      refine ⟨[input], inputs, rfl, hfirst, ?_⟩
      rw [through_cons, through_nil]
      rfl
    | true =>
      obtain ⟨front, behind, rfl, hupto, hsteps⟩ := ih (run.step c o root input)
      refine ⟨input :: front, behind, rfl, ⟨?_, ?_⟩, ?_⟩
      · rw [visits]
        intro v hv
        cases hvisits : visits c o root (Visit.left c o root ⟨input, run.memory⟩) front with
        | nil =>
          rw [hvisits] at hv
          cases hv
        | cons w vs =>
          rw [hvisits, List.dropLast_cons_cons, List.mem_cons] at hv
          rcases hv with rfl | hv
          · exact hok
          · exact hupto.ok v (hvisits ▸ hv)
      · intro hmore
        obtain ⟨v, hv, hfailed⟩ := hupto.failed hmore
        have hlast : (visits c o root (Visit.left c o root ⟨input, run.memory⟩) front).getLast? =
            some v := hv
        refine ⟨v, ?_, hfailed⟩
        rw [visits, List.getLast?_cons, hlast]
        rfl
      · rw [through_cons, ← hsteps]
        rfl

/-- A row of pages up to a failure holds one failure at most. -/
theorem UpToFailure.failures_le {memory : Memory} {front behind : List BatchInput}
    (h : UpToFailure c o root memory front behind) :
    ((visits c o root memory front).map (Visit.result c o root)).countP (fun r => !r.isOk) ≤ 1 := by
  rw [List.countP_map]
  rcases List.eq_nil_or_concat' (visits c o root memory front) with hnil | ⟨most, last, hvisits⟩
  · rw [hnil]
    exact Nat.zero_le 1
  · have hmost : most.countP ((fun r => !r.isOk) ∘ Visit.result c o root) = 0 := by
      refine List.countP_eq_zero.mpr fun v hv => ?_
      have hok := h.ok v (by rwa [hvisits, List.dropLast_concat])
      rw [Function.comp_apply, hok]
      exact Bool.false_ne_true
    rw [hvisits, List.countP_append, hmost, Nat.zero_add]
    exact List.countP_le_length

/-- A batch that stops at a failure has the results, the trace and the memory of its pages up to the
first one that fails. -/
theorem batch_stop (memory : Memory) (inputs : List BatchInput) (options : Options.Batch)
    (hstops : options.continueOnError = false) :
    ∃ front behind, inputs = front ++ behind ∧ UpToFailure c o root memory front behind ∧
      batch c o memory inputs root options =
        (let report := BatchReport.of ((visits c o root memory front).map (Visit.result c o root))
          inputs.length
        (report, (visits c o root memory front).flatMap (Visit.trace c o root) ++
          [.note (.finished report.succeeded report.total)], memoryBehind c o root memory front)) := by
  obtain ⟨front, behind, hsplit, hupto, hsteps⟩ := steps_stop c o root ⟨[], [], memory⟩ inputs
  have hreport : ((BatchRun.mk [] [] memory).through c o root front).report inputs.length =
      .of ((visits c o root memory front).map (Visit.result c o root)) inputs.length := by
    unfold BatchRun.report BatchRun.through
    rw [List.append_nil, List.reverse_reverse]
    rfl
  refine ⟨front, behind, hsplit, hupto, ?_⟩
  unfold batch
  rw [hstops, hsteps]
  dsimp only
  rw [hreport]
  rfl

/-! ## One by one, with counters -/

/-- A page that has been compiled and counted. -/
def Visit.job (v : Visit) : Job := ⟨v.input, .counted (v.work c o root).outcome⟩

/-- Three turns for each of the first `n` pages behind the first `start` ones. -/
def oneByOne (start n : Nat) : List Nat := (List.range' start n).flatMap (List.replicate 3)

theorem oneByOne_succ (start n : Nat) :
    oneByOne start (n + 1) = List.replicate 3 start ++ oneByOne (start + 1) n := rfl

/-- Three turns for each page in a row take the pages all the way, and leave those behind. -/
theorem work_oneByOne (front : List BatchInput) (shared : Shared) (done behind : List Job) :
    ∃ shared', shared'.memory = memoryBehind c o root shared.memory front ∧
      (Workshop.mk shared (done ++ front.map (Job.mk · .waiting) ++ behind)).work c o root
          (oneByOne done.length front.length) =
        ⟨shared', done ++ (visits c o root shared.memory front).map (Visit.job c o root) ++
          behind⟩ := by
  induction front generalizing shared done with
  | nil => exact ⟨shared, rfl, rfl⟩
  | cons input front ih =>
    obtain ⟨shared₁, hmemory₁, hwork₁⟩ := Workshop.work_page c o root shared done input
      (front.map (Job.mk · .waiting) ++ behind)
    obtain ⟨shared₂, hmemory₂, hwork₂⟩ := ih shared₁
      (done ++ [Visit.job c o root ⟨input, shared.memory⟩])
    rw [hmemory₁] at hmemory₂ hwork₂
    refine ⟨shared₂, hmemory₂, ?_⟩
    rw [List.length_append, List.length_singleton, List.append_assoc, List.append_assoc] at hwork₂
    rw [List.length_cons, oneByOne_succ, Workshop.work_append, List.map_cons, List.append_assoc,
      List.cons_append, hwork₁]
    refine hwork₂.trans ?_
    rw [visits, List.map_cons]
    simp only [List.append_assoc, List.cons_append, List.nil_append]
    rfl

/-- One by one is a schedule: it takes the pages in a row all the way and begins no other one, and
its counters tell the results. -/
theorem report_oneByOne (memory : Memory) (front behind : List BatchInput)
    (hlength : (front ++ behind).length < UInt32.size) :
    ((Workshop.start memory (front ++ behind)).work c o root (oneByOne 0 front.length)).report =
        .of ((visits c o root memory front).map (Visit.result c o root)) (front ++ behind).length ∧
      ((Workshop.start memory (front ++ behind)).work c o root
          (oneByOne 0 front.length)).shared.memory = memoryBehind c o root memory front := by
  obtain ⟨shared, hmemory, hwork⟩ := work_oneByOne c o root front ⟨memory, 0, 0⟩ []
    (behind.map (Job.mk · .waiting))
  rw [List.nil_append, List.nil_append, List.length_nil] at hwork
  have hstart : Workshop.start memory (front ++ behind) =
      ⟨⟨memory, 0, 0⟩, front.map (Job.mk · .waiting) ++ behind.map (Job.mk · .waiting)⟩ := by
    unfold Workshop.start
    rw [List.map_append]
  have hcounted := (Workshop.counted_start memory (front ++ behind)).work c o root
    (oneByOne 0 front.length)
  rw [hstart, hwork] at hcounted
  have hjobs : ((visits c o root memory front).map (Visit.job c o root) ++
      behind.map (Job.mk · .waiting)).length = (front ++ behind).length := by
    rw [List.length_append, List.length_map, List.length_map, length_visits, List.length_append]
  have hresults : ((visits c o root memory front).map (Visit.job c o root) ++
      behind.map (Job.mk · .waiting)).filterMap Job.result? =
        (visits c o root memory front).map (Visit.result c o root) := by
    have hwaiting : (behind.map (Job.mk · .waiting)).filterMap Job.result? = [] := by
      rw [List.filterMap_map]
      exact List.filterMap_eq_nil_iff.mpr fun _ _ => rfl
    rw [List.filterMap_append, hwaiting, List.append_nil, List.filterMap_map]
    exact congrFun List.filterMap_eq_map _
  rw [hstart, hwork]
  refine ⟨?_, hmemory⟩
  rw [hcounted.report_eq (hjobs.symm ▸ hlength), hjobs, hresults]

/-! ## The law -/

/-- A batch that stops at a failure compiles its pages one after another, up to the first one that
fails: that gives its results, its trace and its memory, with the order of use, and the counters of
a batch of fewer than 2 ^ 32 pages tell the results. A page whose text is in the memory that it
finds is answered from there. In a memory with a past, a text that has been compiled in the batch is
answered so exactly if it has room besides the distinct texts compiled since. -/
theorem a_batch_that_stops_goes_up_to_its_first_failure (c : Collaborators) (o : Options.Compiler)
    (root : String) (memory : Memory) (inputs : List BatchInput) (options : Options.Batch)
    (hstops : options.continueOnError = false) (hlength : inputs.length < UInt32.size) :
    ∃ front behind, inputs = front ++ behind ∧
      (batch c o memory inputs root options).1.results =
        (visits c o root memory front).map (Visit.result c o root) ∧
      (∀ r ∈ (batch c o memory inputs root options).1.results.dropLast, r.isOk = true) ∧
      (behind ≠ [] →
        ∃ r ∈ (batch c o memory inputs root options).1.results.getLast?, r.isOk = false) ∧
      (batch c o memory inputs root options).1.total = inputs.length ∧
      (batch c o memory inputs root options).1.succeeded +
          (batch c o memory inputs root options).1.failed =
        (batch c o memory inputs root options).1.results.length ∧
      (batch c o memory inputs root options).1.failed ≤ 1 ∧
      (batch c o memory inputs root options).1 =
        ((Workshop.start memory inputs).work c o root (oneByOne 0 front.length)).report ∧
      (batch c o memory inputs root options).2.1 =
        (visits c o root memory front).flatMap (Visit.trace c o root) ++
          [.note (.finished (batch c o memory inputs root options).1.succeeded inputs.length)] ∧
      (batch c o memory inputs root options).2.2 = memoryBehind c o root memory front ∧
      (∀ v ∈ visits c o root memory front, ∀ p, v.memory.find? v.input.source = some p →
        v.work c o root = ⟨[.note (.cacheHit v.input.file)], .ok p⟩) ∧
      ∀ capacity ops, memory = (Cache.lived capacity ops).memory →
        ∀ before page between again after, front = before ++ page :: between ++ again :: after →
          again.source = page.source → page.source ∉ between.map BatchInput.source →
            Visit.work c o root ⟨again, memoryBehind c o root memory (before ++ page :: between)⟩ =
              if (between.map BatchInput.source).dedup.length < max 1 capacity then
                ⟨[.note (.cacheHit again.file)],
                  (Visit.work c o root ⟨page, memoryBehind c o root memory before⟩).outcome⟩
              else missWork c o (request root again) := by
  obtain ⟨front, behind, rfl, hupto, hbatch⟩ := batch_stop c o root memory inputs options hstops
  rw [hbatch]
  refine ⟨front, behind, rfl, rfl, ?_, ?_, rfl, ?_, hupto.failures_le, ?_, rfl, rfl, ?_, ?_⟩
  · change ∀ r ∈ ((visits c o root memory front).map (Visit.result c o root)).dropLast, r.isOk
    rw [← List.map_dropLast]
    exact List.forall_mem_map.mpr hupto.ok
  · intro hmore
    obtain ⟨v, hv, hfailed⟩ := hupto.failed hmore
    refine ⟨v.result c o root, ?_, hfailed⟩
    change _ ∈ ((visits c o root memory front).map (Visit.result c o root)).getLast?
    rw [List.getLast?_map]
    exact Option.mem_map_of_mem _ hv
  · exact BatchReport.succeeded_add_failed _ _
  · exact (report_oneByOne c o root memory front behind hlength).1.symm
  · exact fun v _ p hp => Visit.work_of_hit hp
  · rintro capacity ops hmemory before page between again after rfl hsource hnot
    have hpast : Cache.Recent capacity ⟨memory, (Cache.lived capacity ops).past⟩ :=
      hmemory ▸ Cache.recent_lived capacity ops
    -- No page in front of another one is the last one, so none of them fails.
    refine work_again hpast (fun v hv => hupto.ok v ?_) hsource hnot
    rw [visits_append, visits, List.dropLast_append_of_ne_nil (List.cons_ne_nil _ _)]
    exact List.mem_append_left _ hv

/-- A batch that stops at a failure. -/
def stopping : Options.Batch := ⟨none, false⟩

/-- Of three pages the second one cannot be shown, so the third one is not begun. -/
theorem three_pages_stop_at_the_second :
    (stopping.continueOnError = false ∧ threePages.length < UInt32.size) ∧
      (batch bluntCollaborators .standard (.empty 3) threePages "" stopping).1.results.map
          (fun r => (r.id, r.isOk)) = [("a.md", true), ("b.md", false)] ∧
        (batch bluntCollaborators .standard (.empty 3) threePages "" stopping).1 =
          ((Workshop.start (.empty 3) threePages).work bluntCollaborators .standard ""
            [0, 0, 0, 1, 1, 1]).report ∧
        (batch bluntCollaborators .standard (.empty 3) threePages "" stopping).2.2 =
          memoryBehind bluntCollaborators .standard "" (.empty 3) (threePages.take 2) := by
  have hlength : threePages.length < UInt32.size := by decide
  have hresults : (batch bluntCollaborators .standard (.empty 3) threePages "" stopping).1.results.map
      (fun r => (r.id, r.isOk)) = [("a.md", true), ("b.md", false)] := by decide +kernel
  obtain ⟨front, behind, hsplit, hvisits, -, -, -, -, -, hreport, -, hmemory, -⟩ :=
    a_batch_that_stops_goes_up_to_its_first_failure bluntCollaborators .standard "" (.empty 3)
      threePages stopping rfl hlength
  have hfront : front.length = 2 := by
    have htwo := congrArg List.length hresults
    rwa [hvisits, List.length_map, List.length_map, length_visits] at htwo
  have htake : front = threePages.take 2 := by rw [hsplit, ← hfront, List.take_left]
  rw [hfront] at hreport
  rw [htake] at hmemory
  exact ⟨⟨rfl, hlength⟩, hresults, hreport, hmemory⟩

/-- Three pages, the last one with the text of the first one. -/
def returningPages : List BatchInput :=
  [⟨"a.md", "one", none⟩, ⟨"b.md", "two", none⟩, ⟨"c.md", "one", none⟩]

/-- In a memory with room for one page, the text of the first page has made room for the second one
when it comes again. So it is compiled twice, though it has been compiled before. -/
theorem returningPages_compile_one_text_twice :
    (batch bluntCollaborators .standard (.empty 1) returningPages "" stopping).1.results.map
        BatchResult.isOk = [true, true, true] ∧
      (returningPages[2]?.map BatchInput.source) = returningPages[0]?.map BatchInput.source ∧
      (memoryBehind bluntCollaborators .standard "" (.empty 1) (returningPages.take 2)).contains
        "one" = false ∧
      Traced.questions
          (batch bluntCollaborators .standard (.empty 1) returningPages "" stopping).2.1 =
        [.extract "one", .render "one", .stat "a.md", .extract "two", .render "two", .stat "b.md",
          .extract "one", .render "one", .stat "c.md"] := by
  decide +kernel

end DocPages.Compile
