-- Work along a plan. A plan is a list of questions to collaborators; work
-- that follows it asks them in order up to the first one that fails, and
-- fails as that one does. Plans of parts put together are a plan of the whole.
import DocPages.Compile.Collaborators

namespace DocPages

/-- The failure of an outcome, if it is one. -/
def failureOf {α : Type} : Except CompileError α → Option CompileError
  | .ok _ => none
  | .error e => some e

/-- How a question fails, if it does. -/
def Collaborators.failure? (c : Collaborators) : Question → Option CompileError
  | .extract source => failureOf (c.extract source)
  | .render text => failureOf (c.render text).outcome
  | .stat file => failureOf (c.modified file)
  | .transpile script => failureOf (c.transpile script)

/-- The questions up to the first one that fails, and that one. -/
def throughFailure (failure? : Question → Option CompileError) : List Question → List Question
  | [] => []
  | q :: rest => if (failure? q).isSome then [q] else q :: throughFailure failure? rest

/-! ## Following a plan -/

/-- The work asks the questions of a plan in order up to the first one that fails, and fails as that
one does. -/
structure Follows {α : Type} (c : Collaborators) (work : Traced α) (plan : List Question) :
    Prop where
  asked : Traced.questions work.trace = throughFailure c.failure? plan
  failed : failureOf work.outcome = plan.findSome? c.failure?

variable {α β : Type} {c : Collaborators}

theorem throughFailure_append_of_none {failure? : Question → Option CompileError}
    {front : List Question} (back : List Question) (h : front.findSome? failure? = none) :
    throughFailure failure? (front ++ back) = front ++ throughFailure failure? back := by
  induction front with
  | nil => rfl
  | cons q rest ih =>
    rw [List.findSome?_cons] at h
    cases hq : failure? q with
    | some e => simp [hq] at h
    | none =>
      rw [hq] at h
      rw [List.cons_append, throughFailure, hq, ih h]
      rfl

theorem throughFailure_of_none {failure? : Question → Option CompileError} {plan : List Question}
    (h : plan.findSome? failure? = none) : throughFailure failure? plan = plan := by
  have happ := throughFailure_append_of_none [] h
  simpa [throughFailure] using happ

theorem throughFailure_append_of_some {failure? : Question → Option CompileError}
    {front : List Question} (back : List Question) {e : CompileError}
    (h : front.findSome? failure? = some e) :
    throughFailure failure? (front ++ back) = throughFailure failure? front := by
  induction front with
  | nil => simp at h
  | cons q rest ih =>
    rw [List.findSome?_cons] at h
    rw [List.cons_append, throughFailure, throughFailure]
    cases hq : failure? q with
    | some e' => rfl
    | none =>
      rw [hq] at h
      rw [ih h]

@[simp]
theorem questions_append (front back : List Event) :
    Traced.questions (front ++ back) = Traced.questions front ++ Traced.questions back :=
  List.filterMap_append

/-- The lines of the log hold no questions. -/
theorem questions_map_note (notes : List Note) :
    Traced.questions (notes.map .note) = [] := by
  unfold Traced.questions
  rw [List.filterMap_map, List.filterMap_eq_nil_iff]
  intro n _
  rfl

theorem follows_pure (a : α) : Follows c (.pure a) [] := ⟨rfl, rfl⟩

theorem follows_note (n : Note) : Follows c (Traced.note n) [] := ⟨rfl, rfl⟩

/-- Work that asks one question follows the plan of that question. -/
theorem follows_ask {q : Question} {answer : Traced α}
    (h : c.failure? q = failureOf answer.outcome) : Follows c (.ask q answer) [q] := by
  constructor
  · have hq : Traced.questions (Traced.ask q answer).trace =
        q :: Traced.questions ((Traced.notes answer.trace).map .note) := rfl
    rw [hq, questions_map_note, throughFailure]
    split <;> rfl
  · rw [List.findSome?_cons, h]
    cases ho : answer.outcome <;> simp [Traced.ask, ho, failureOf]

/-- One work behind another follows one plan behind the other. What the second plan is may hang on
the result of the first work. -/
theorem Follows.bind {work : Traced α} {next : α → Traced β} {front back : List Question}
    (hw : Follows c work front) (hn : ∀ a, work.outcome = .ok a → Follows c (next a) back) :
    Follows c (work.bind next) (front ++ back) := by
  obtain ⟨ha, hf⟩ := hw
  cases ho : work.outcome with
  | error e =>
    rw [ho] at hf
    constructor
    · simp only [Traced.bind, ho]
      rw [ha, throughFailure_append_of_some _ hf.symm]
    · simp only [Traced.bind, ho]
      rw [List.findSome?_append, ← hf]
      rfl
  | ok a =>
    rw [ho] at hf
    obtain ⟨ha', hf'⟩ := hn a ho
    constructor
    · simp only [Traced.bind, ho]
      rw [questions_append, ha, ha', throughFailure_append_of_none _ hf.symm,
        throughFailure_of_none hf.symm]
    · simp only [Traced.bind, ho]
      rw [List.findSome?_append, ← hf, hf']
      rfl

/-- Work that succeeds has come through each of its parts. -/
theorem Traced.bind_ok {work : Traced α} {next : α → Traced β} {b : β}
    (h : (work.bind next).outcome = .ok b) :
    ∃ a, work.outcome = .ok a ∧ (next a).outcome = .ok b := by
  cases ho : work.outcome with
  | error e =>
    simp only [Traced.bind, ho] at h
    cases h
  | ok a =>
    simp only [Traced.bind, ho] at h
    exact ⟨a, rfl, h⟩

/-- What asks nothing in front of work changes no plan. -/
theorem Follows.behind_quiet {work : Traced α} {next : α → Traced β} {plan : List Question}
    (hw : Follows c work []) (hn : ∀ a, work.outcome = .ok a → Follows c (next a) plan) :
    Follows c (work.bind next) plan := hw.bind hn

/-- What asks nothing behind work changes no plan. -/
theorem Follows.then_quiet {work : Traced α} {next : α → Traced β} {plan : List Question}
    (hw : Follows c work plan) (hn : ∀ a, work.outcome = .ok a → Follows c (next a) []) :
    Follows c (work.bind next) plan := by
  have h := hw.bind hn
  rwa [List.append_nil] at h

end DocPages
