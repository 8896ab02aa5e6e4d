-- A batch at work. Its pages share the memory and two counters, and the work
-- on each page goes in steps that touch what is shared once. A schedule says
-- whose turn it is; one by one is one of the schedules.
import Mathlib.Data.UInt
import DocPages.Compile.Batch
import DocPages.Proofs.Compile.Cached

namespace DocPages.Compile

open Options (BatchInput)

/-! ## Jobs -/

/-- Where the work on a page of a batch stands. -/
inductive Stage where
  | waiting
  | compiled (page : Compiled)
  | settled (outcome : Except CompileError Compiled)
  | counted (outcome : Except CompileError Compiled)

/-- A page of a batch, and where the work on it stands. -/
structure Job where
  input : BatchInput
  stage : Stage

/-- What the pages of a batch share: the memory, and two counters of 32 bits. -/
structure Shared where
  memory : Memory
  succeeded : UInt32
  failed : UInt32

/-- What is asked of the compiler for a page of a batch. -/
def request (root : String) (input : BatchInput) : Request := ⟨input.source, input.file, root⟩

/-- The counter of successes or that of failures. -/
def Shared.counter (shared : Shared) (ok : Bool) : UInt32 :=
  if ok then shared.succeeded else shared.failed

/-- Counts an outcome. -/
def Shared.count (shared : Shared) : Except CompileError Compiled → Shared
  | .ok _ => { shared with succeeded := shared.succeeded + 1 }
  | .error _ => { shared with failed := shared.failed + 1 }

/-- The result of a page that has been counted. -/
def Job.result? (job : Job) : Option BatchResult :=
  match job.stage with
  | .counted outcome => some ⟨job.input.id, outcome⟩
  | _ => none

/-- Whether the page has been counted, as a success or as a failure. -/
def Job.counts (ok : Bool) (job : Job) : Bool := job.result?.any fun r => r.isOk == ok

/-- Nothing is left to do. -/
def Job.IsDone (job : Job) : Prop := ∃ outcome, job.stage = .counted outcome

/-- The report on a batch of so many pages, with what has become of them. -/
def BatchReport.of (results : List BatchResult) (total : Nat) : BatchReport :=
  ⟨results, total, results.countP BatchResult.isOk, results.countP fun r => !r.isOk⟩

theorem BatchReport.succeeded_add_failed (results : List BatchResult) (total : Nat) :
    (of results total).succeeded + (of results total).failed = results.length := by
  rw [List.length_eq_countP_add_countP BatchResult.isOk]
  simp [of]

/-- How many steps are left at most. -/
def Job.left (job : Job) : Nat :=
  match job.stage with
  | .waiting => 3
  | .compiled _ => 2
  | .settled _ => 1
  | .counted _ => 0

variable (c : Collaborators) (o : Options.Compiler) (root : String)

/-- What becomes of a page that has been looked up: where nothing is found it is compiled. -/
def lookedUp (r : Request) : Option Compiled → Stage
  | some p => .settled (.ok p)
  | none =>
    match (page c o r).outcome with
    | .ok p => .compiled p
    | .error e => .settled (.error e)

/-- One step of the work on a page: it is looked up, stored, or counted. -/
def Job.step (shared : Shared) (job : Job) : Shared × Job :=
  match job.stage with
  | .waiting =>
    ({ shared with memory := (shared.memory.get job.input.source).2 },
      ⟨job.input, lookedUp c o (request root job.input) (shared.memory.get job.input.source).1⟩)
  | .compiled p =>
    ({ shared with memory := shared.memory.set job.input.source p },
      ⟨job.input, .settled (.ok p)⟩)
  | .settled outcome => (shared.count outcome, ⟨job.input, .counted outcome⟩)
  | .counted _ => (shared, job)

/-! ## One step -/

/-- What a page that waits may come to. -/
theorem step_waiting (shared : Shared) (input : BatchInput) :
    (∃ p, shared.memory.find? input.source = some p ∧
        (Job.mk input .waiting).step c o root shared =
          ({ shared with memory := (shared.memory.get input.source).2 },
            ⟨input, .settled (.ok p)⟩)) ∨
      shared.memory.find? input.source = none ∧
        ((∃ p, (page c o (request root input)).outcome = .ok p ∧
            (Job.mk input .waiting).step c o root shared = (shared, ⟨input, .compiled p⟩)) ∨
          ∃ e, (page c o (request root input)).outcome = .error e ∧
            (Job.mk input .waiting).step c o root shared =
              (shared, ⟨input, .settled (.error e)⟩)) := by
  cases hf : shared.memory.find? input.source with
  | some p =>
    refine .inl ⟨p, rfl, ?_⟩
    simp only [Job.step, Cache.get_fst, hf, lookedUp]
  | none =>
    refine .inr ⟨rfl, ?_⟩
    cases hpage : (page c o (request root input)).outcome with
    | ok p =>
      refine .inl ⟨p, rfl, ?_⟩
      simp only [Job.step, Cache.get_of_find?_eq_none hf, lookedUp, hpage]
    | error e =>
      refine .inr ⟨e, rfl, ?_⟩
      simp only [Job.step, Cache.get_of_find?_eq_none hf, lookedUp, hpage]

theorem isDone_of_left {job : Job} (h : job.left = 0) : job.IsDone := by
  obtain ⟨input, stage⟩ := job
  cases stage with
  | counted outcome => exact ⟨outcome, rfl⟩
  | waiting => cases h
  | compiled p => cases h
  | settled outcome => cases h

/-- Each step leaves one less. -/
theorem left_step (shared : Shared) (job : Job) :
    (job.step c o root shared).2.left ≤ job.left - 1 := by
  obtain ⟨input, stage⟩ := job
  cases stage with
  | waiting =>
    rcases step_waiting c o root shared input with ⟨p, -, hs⟩ | ⟨-, ⟨p, -, hs⟩ | ⟨e, -, hs⟩⟩
    · rw [hs]
      exact Nat.le_succ 1
    · rw [hs]
      exact Nat.le_refl 2
    · rw [hs]
      exact Nat.le_succ 1
  | compiled p => exact Nat.le_refl 1
  | settled outcome => exact Nat.le_refl 0
  | counted outcome => exact Nat.le_refl 0

/-- A step counts its page, once it comes to that, or changes neither the page's mark nor the
counter. -/
theorem step_counts (shared : Shared) (job : Job) (ok : Bool) :
    ((job.step c o root shared).2.counts ok = job.counts ok ∧
        (job.step c o root shared).1.counter ok = shared.counter ok) ∨
      (job.counts ok = false ∧ (job.step c o root shared).2.counts ok = true ∧
        (job.step c o root shared).1.counter ok = shared.counter ok + 1) := by
  obtain ⟨input, stage⟩ := job
  cases stage with
  | waiting =>
    rcases step_waiting c o root shared input with ⟨p, -, hs⟩ | ⟨-, ⟨p, -, hs⟩ | ⟨e, -, hs⟩⟩
    · rw [hs]
      exact .inl ⟨rfl, rfl⟩
    · rw [hs]
      exact .inl ⟨rfl, rfl⟩
    · rw [hs]
      exact .inl ⟨rfl, rfl⟩
  | compiled p => exact .inl ⟨rfl, rfl⟩
  | settled outcome =>
    cases outcome with
    | ok p =>
      cases ok with
      | true => exact .inr ⟨rfl, rfl, rfl⟩
      | false => exact .inl ⟨rfl, rfl⟩
    | error e =>
      cases ok with
      | true => exact .inl ⟨rfl, rfl⟩
      | false => exact .inr ⟨rfl, rfl, rfl⟩
  | counted outcome => exact .inl ⟨rfl, rfl⟩

theorem countP_middle (p : Job → Bool) (front : List Job) (job : Job) (back : List Job) :
    (front ++ job :: back).countP p = (front ++ back).countP p + (p job).toNat := by
  rw [List.countP_append, List.countP_cons, List.countP_append, ← Nat.add_assoc]
  cases p job <;> rfl

theorem countP_results (ok : Bool) (jobs : List Job) :
    (jobs.filterMap Job.result?).countP (fun r => r.isOk == ok) = jobs.countP (Job.counts ok) := by
  induction jobs with
  | nil => rfl
  | cons job jobs ih =>
    rw [List.countP_cons, ← ih]
    unfold Job.counts
    cases hr : job.result? with
    | none =>
      rw [List.filterMap_cons_none hr]
      rfl
    | some r =>
      rw [List.filterMap_cons_some hr, List.countP_cons]
      rfl

/-! ## The workshop -/

/-- A batch at work: what its pages share, and the pages in order. -/
structure Workshop where
  shared : Shared
  jobs : List Job

namespace Workshop

/-- No page has been begun. -/
def start (memory : Memory) (inputs : List BatchInput) : Workshop :=
  ⟨⟨memory, 0, 0⟩, inputs.map fun input => ⟨input, .waiting⟩⟩

/-- Every page has been counted. -/
def IsDone (w : Workshop) : Prop := ∀ job ∈ w.jobs, job.IsDone

/-- The report on a batch. More pages than a counter can tell are told as the most it can tell. -/
def report (w : Workshop) : BatchReport :=
  ⟨w.jobs.filterMap Job.result?, min w.jobs.length (UInt32.size - 1), w.shared.succeeded.toNat,
    w.shared.failed.toNat⟩

/-- A turn for the page of a number. -/
def turn (w : Workshop) (i : Nat) : Workshop :=
  match w.jobs[i]? with
  | some job => ⟨(job.step c o root w.shared).1, w.jobs.set i (job.step c o root w.shared).2⟩
  | none => w

/-- Turns in a row: whose turn it is, the schedule says. -/
def work (w : Workshop) (schedule : List Nat) : Workshop := schedule.foldl (turn c o root) w

theorem work_append (w : Workshop) (front back : List Nat) :
    w.work c o root (front ++ back) = (w.work c o root front).work c o root back :=
  List.foldl_append

theorem turn_of_none {w : Workshop} {i : Nat} (h : w.jobs[i]? = none) :
    w.turn c o root i = w := by
  unfold turn
  rw [h]

theorem turn_middle (shared : Shared) (front : List Job) (job : Job) (back : List Job) :
    (Workshop.mk shared (front ++ job :: back)).turn c o root front.length =
      ⟨(job.step c o root shared).1, front ++ (job.step c o root shared).2 :: back⟩ := by
  have hget : (front ++ job :: back)[front.length]? = some job := by simp
  unfold turn
  dsimp only
  rw [hget]
  simp

/-- A turn does nothing, or it takes one page a step further. -/
theorem turn_cases (w : Workshop) (i : Nat) :
    w.turn c o root i = w ∨ ∃ front job back, w.jobs = front ++ job :: back ∧
      w.turn c o root i =
        ⟨(job.step c o root w.shared).1, front ++ (job.step c o root w.shared).2 :: back⟩ := by
  obtain ⟨shared, jobs⟩ := w
  cases hget : jobs[i]? with
  | none => exact .inl (turn_of_none c o root hget)
  | some job =>
    right
    obtain ⟨hi, rfl⟩ := List.getElem?_eq_some_iff.mp hget
    obtain ⟨front, back, hsplit, hlength, -⟩ :
        ∃ front back, jobs = front ++ jobs[i] :: back ∧ front.length = i ∧
          jobs.set i jobs[i] = front ++ jobs[i] :: back := List.exists_of_set hi
    refine ⟨front, jobs[i], back, hsplit, ?_⟩
    have hturn := turn_middle c o root shared front jobs[i] back
    rwa [← hsplit, hlength] at hturn

/-! ## Enough turns -/

theorem left_turn {w : Workshop} {i j : Nat} {job' : Job}
    (h : (w.turn c o root i).jobs[j]? = some job') :
    ∃ job, w.jobs[j]? = some job ∧ job'.left ≤ job.left - if i = j then 1 else 0 := by
  unfold turn at h
  cases hget : w.jobs[i]? with
  | none =>
    rw [hget] at h
    refine ⟨job', h, ?_⟩
    split
    · rename_i hij
      rw [← hij, hget] at h
      cases h
    · exact Nat.le_refl _
  | some job =>
    rw [hget] at h
    dsimp only at h
    by_cases hij : i = j
    · subst hij
      obtain ⟨hi, -⟩ := List.getElem?_eq_some_iff.mp hget
      rw [List.getElem?_set_self hi] at h
      cases h
      rw [if_pos rfl]
      exact ⟨job, hget, left_step c o root w.shared job⟩
    · rw [List.getElem?_set_ne hij] at h
      rw [if_neg hij]
      exact ⟨job', h, Nat.le_refl _⟩

theorem left_work {w : Workshop} {schedule : List Nat} {j : Nat} {job' : Job}
    (h : (w.work c o root schedule).jobs[j]? = some job') :
    ∃ job, w.jobs[j]? = some job ∧ job'.left ≤ job.left - schedule.count j := by
  induction schedule generalizing w with
  | nil => exact ⟨job', h, Nat.le_refl _⟩
  | cons i schedule ih =>
    obtain ⟨job, hjob, hleft⟩ := ih h
    obtain ⟨first, hfirst, hturn⟩ := left_turn c o root hjob
    refine ⟨first, hfirst, ?_⟩
    rw [List.count_cons]
    by_cases hij : i = j
    · simp only [hij, if_true, beq_self_eq_true] at hturn ⊢
      omega
    · simp only [hij, if_false] at hturn
      have hne : (i == j) = false := by simpa using hij
      simp only [hne, Bool.false_eq_true, if_false]
      omega

/-- Three turns are enough for a page, whenever they come. -/
theorem isDone_of_turns {memory : Memory} {inputs : List BatchInput} {schedule : List Nat}
    (h : ∀ i < inputs.length, 3 ≤ schedule.count i) :
    ((start memory inputs).work c o root schedule).IsDone := by
  intro job' hjob'
  obtain ⟨i, hi⟩ := List.mem_iff_getElem?.mp hjob'
  obtain ⟨job, hjob, hleft⟩ := left_work c o root hi
  unfold start at hjob
  rw [List.getElem?_map] at hjob
  obtain ⟨input, hinput, rfl⟩ := Option.map_eq_some_iff.mp hjob
  have hturns := h i (List.getElem?_eq_some_iff.mp hinput).1
  have hthree : (Job.mk input .waiting).left = 3 := rfl
  exact isDone_of_left (by omega)

/-! ## Counting -/

/-- The counters tell the pages counted, as far as they can count. -/
def Counted (w : Workshop) : Prop :=
  ∀ ok, w.shared.counter ok = UInt32.ofNat (w.jobs.countP (Job.counts ok))

theorem counted_start (memory : Memory) (inputs : List BatchInput) :
    (start memory inputs).Counted := by
  intro ok
  have hnone : (start memory inputs).jobs.countP (Job.counts ok) = 0 := by
    refine List.countP_eq_zero.mpr fun job hjob => ?_
    obtain ⟨input, -, rfl⟩ := List.mem_map.mp hjob
    simp [Job.counts, Job.result?]
  rw [hnone]
  cases ok <;> rfl

theorem Counted.turn {w : Workshop} (h : w.Counted) (i : Nat) : (w.turn c o root i).Counted := by
  rcases turn_cases c o root w i with hsame | ⟨front, job, back, hjobs, hturn⟩
  · rw [hsame]
    exact h
  · intro ok
    have hold := h ok
    rw [hjobs, countP_middle] at hold
    rw [hturn, countP_middle]
    rcases step_counts c o root w.shared job ok with
      ⟨hmark, hcounter⟩ | ⟨hbefore, hmark, hcounter⟩
    · rw [hmark, hcounter]
      exact hold
    · rw [hmark, hcounter, hold, hbefore]
      exact (UInt32.ofNat_add _ _).symm

theorem Counted.work {w : Workshop} (h : w.Counted) (schedule : List Nat) :
    (w.work c o root schedule).Counted := by
  induction schedule generalizing w with
  | nil => exact h
  | cons i schedule ih => exact ih (h.turn c o root i)

/-- Counters that are wide enough tell the results. -/
theorem Counted.counter_eq {w : Workshop} (h : w.Counted) (hlength : w.jobs.length < UInt32.size)
    (ok : Bool) : (w.shared.counter ok).toNat =
      (w.jobs.filterMap Job.result?).countP fun r => r.isOk == ok := by
  rw [h ok, countP_results]
  exact UInt32.toNat_ofNat_of_lt' (Nat.lt_of_le_of_lt List.countP_le_length hlength)

theorem Counted.report_eq {w : Workshop} (h : w.Counted)
    (hlength : w.jobs.length < UInt32.size) :
    w.report = .of (w.jobs.filterMap Job.result?) w.jobs.length := by
  have htotal : min w.jobs.length (UInt32.size - 1) = w.jobs.length := by omega
  have hok := h.counter_eq hlength true
  have hfailed := h.counter_eq hlength false
  have htrue : (fun r : BatchResult => r.isOk == true) = BatchResult.isOk := by
    funext r
    simp
  have hfalse : (fun r : BatchResult => r.isOk == false) = fun r => !r.isOk := by
    funext r
    cases r.isOk <;> rfl
  rw [htrue] at hok
  rw [hfalse] at hfailed
  unfold report BatchReport.of
  rw [htotal]
  change BatchReport.mk _ _ (w.shared.counter true).toNat (w.shared.counter false).toNat = _
  rw [hok, hfailed]

/-! ## One by one -/

/-- Three turns in a row take a page all the way, as compiling with the memory does. -/
theorem work_page (shared : Shared) (front : List Job) (input : BatchInput) (back : List Job) :
    ∃ shared', shared'.memory = (cached c o shared.memory (request root input)).2 ∧
      (Workshop.mk shared (front ++ ⟨input, .waiting⟩ :: back)).work c o root
          (List.replicate 3 front.length) =
        ⟨shared', front ++
          ⟨input, .counted (cached c o shared.memory (request root input)).1.outcome⟩ :: back⟩ := by
  simp only [work, List.replicate, List.foldl_cons, List.foldl_nil, turn_middle]
  rcases step_waiting c o root shared input with
    ⟨p, hf, hs⟩ | ⟨hf, ⟨p, hp, hs⟩ | ⟨e, he, hs⟩⟩
  · rw [hs, cached_of_hit (r := request root input) hf]
    exact ⟨_, rfl, rfl⟩
  · rw [hs, cached_of_miss (r := request root input) hf, missWork_outcome, hp]
    exact ⟨_, rfl, rfl⟩
  · rw [hs, cached_of_miss (r := request root input) hf, missWork_outcome, he]
    exact ⟨shared.count (.error e), rfl, rfl⟩

/-- The pages behind those that are done, taken one by one, give what the run of a batch gives. -/
theorem work_steps (inputs : List BatchInput) (shared : Shared) (front : List Job)
    (run : BatchRun) (hmemory : shared.memory = run.memory) (hdone : ∀ job ∈ front, job.IsDone)
    (hresults : front.filterMap Job.result? = run.results.reverse) :
    ∃ schedule, ∃ w : Workshop,
      (Workshop.mk shared (front ++ inputs.map fun input => ⟨input, .waiting⟩)).work c o root
        schedule = w ∧ w.IsDone ∧
      w.shared.memory = (BatchRun.steps c o root true run inputs).memory ∧
      w.jobs.filterMap Job.result? = (BatchRun.steps c o root true run inputs).results.reverse := by
  induction inputs generalizing shared front run with
  | nil =>
    refine ⟨[], _, rfl, ?_, hmemory, ?_⟩
    · simpa [IsDone, work] using hdone
    · simpa [work, BatchRun.steps] using hresults
  | cons input inputs ih =>
    obtain ⟨shared', hshared', hwork⟩ := work_page c o root shared front input
      (inputs.map fun input => ⟨input, .waiting⟩)
    have hnext : (BatchRun.step c o root run input).memory = shared'.memory := by
      rw [hshared', hmemory]
      rfl
    obtain ⟨schedule, w, hw, hdone', hmemory', hresults'⟩ := ih shared'
      (front ++ [⟨input, .counted (cached c o shared.memory (request root input)).1.outcome⟩])
      (run.step c o root input) hnext.symm
      (by
        intro job hjob
        rcases List.mem_append.mp hjob with hjob | hjob
        · exact hdone job hjob
        · rw [List.mem_singleton.mp hjob]
          exact ⟨_, rfl⟩)
      (by
        rw [List.filterMap_append, hresults, hmemory]
        simp only [BatchRun.step, List.reverse_cons]
        rfl)
    refine ⟨List.replicate 3 front.length ++ schedule, w, ?_, hdone', hmemory', hresults'⟩
    rw [work_append, List.map_cons, hwork, ← hw, List.append_assoc]
    rfl

/-- One by one is a schedule. -/
theorem one_by_one (memory : Memory) (inputs : List BatchInput) (options : Options.Batch)
    (hgoes : options.continueOnError = true) :
    ∃ schedule, ((start memory inputs).work c o root schedule).IsDone ∧
      ((start memory inputs).work c o root schedule).shared.memory =
        (batch c o memory inputs root options).2.2 ∧
      ((start memory inputs).work c o root schedule).jobs.filterMap Job.result? =
        (batch c o memory inputs root options).1.results := by
  obtain ⟨schedule, w, hw, hdone, hmemory, hresults⟩ := work_steps c o root inputs ⟨memory, 0, 0⟩ []
    ⟨[], [], memory⟩ rfl (fun job hjob => absurd hjob List.not_mem_nil) rfl
  refine ⟨schedule, ?_⟩
  have hstart : (start memory inputs).work c o root schedule = w := hw
  unfold batch
  rw [hstart, hgoes]
  exact ⟨hdone, hmemory, hresults⟩

end Workshop

end DocPages.Compile
