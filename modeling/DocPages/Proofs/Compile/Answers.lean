-- The laws of a memory that compilers share. Each value in it is what the
-- latest miss on its text gave, whoever compiled, so an answer is never
-- older than that; and where a text is always compiled in the same way, the
-- memory cannot be told apart from compiling afresh.
import DocPages.Proofs.Compile.Cached

namespace DocPages.Compile

/-! ## Calls and their answers -/

/-- A call on a memory that compilers share: the compiler, and what it is asked for. -/
structure Call where
  collaborators : Collaborators
  options : Options.Compiler
  request : Request

/-- What compiling without a memory gives. -/
def Call.fresh (call : Call) : Except CompileError Compiled :=
  (page call.collaborators call.options call.request).outcome

/-- The answer to a call, and whether its text was missing in the memory. -/
structure Answer where
  call : Call
  missed : Bool
  outcome : Except CompileError Compiled

/-- The text of an answer. -/
def Answer.source (a : Answer) : String := a.call.request.source

/-- The answer to a call, and the memory behind it. -/
def Call.answer (call : Call) (memory : Memory) : Answer × Memory :=
  let (work, later) := cached call.collaborators call.options memory call.request
  (⟨call, !memory.contains call.request.source, work.outcome⟩, later)

/-- The answers to calls in a row. -/
def answers (memory : Memory) : List Call → List Answer
  | [] => []
  | call :: calls => (call.answer memory).1 :: answers (call.answer memory).2 calls

/-- Among the answers so far, `b` is that of the latest call on a text that was missing. -/
def IsLatestMiss (past : List Answer) (source : String) (b : Answer) : Prop :=
  ∃ front later, past = front ++ b :: later ∧ b.missed = true ∧ b.source = source ∧
    ∀ d ∈ later, d.source = source → d.missed = false

/-! ## One call -/

theorem answer_of_hit {call : Call} {memory : Memory} {p : Compiled}
    (h : memory.find? call.request.source = some p) :
    call.answer memory = (⟨call, false, .ok p⟩, (memory.get call.request.source).2) := by
  unfold Call.answer
  rw [cached_of_hit h, Cache.contains_eq_true_iff.mpr ⟨p, h⟩]
  rfl

theorem answer_of_miss {call : Call} {memory : Memory}
    (h : memory.find? call.request.source = none) :
    call.answer memory =
      (⟨call, true, call.fresh⟩,
        match call.fresh with
        | .ok p => memory.set call.request.source p
        | .error _ => memory) := by
  unfold Call.answer
  rw [cached_of_miss h, Cache.contains_eq_false_iff.mpr h]
  rfl

theorem answer_call (call : Call) (memory : Memory) : (call.answer memory).1.call = call := rfl

/-! ## The latest miss -/

theorem isLatestMiss_self (past : List Answer) {a : Answer} (h : a.missed = true) :
    IsLatestMiss (past ++ [a]) a.source a :=
  ⟨past, [], rfl, h, rfl, by simp⟩

/-- A further answer that is on another text, or that was remembered, changes no latest miss. -/
theorem IsLatestMiss.snoc {past : List Answer} {source : String} {a b : Answer}
    (h : IsLatestMiss past source b) (ha : a.source = source → a.missed = false) :
    IsLatestMiss (past ++ [a]) source b := by
  obtain ⟨front, later, hp, hm, hs, hl⟩ := h
  refine ⟨front, later ++ [a], by simp [hp], hm, hs, ?_⟩
  intro d hd
  rcases List.mem_append.mp hd with hd | hd
  · exact hl d hd
  · rw [List.mem_singleton] at hd
    exact hd ▸ ha

theorem IsLatestMiss.mem {past : List Answer} {source : String} {b : Answer}
    (h : IsLatestMiss past source b) : b ∈ past := by
  obtain ⟨front, later, hp, _⟩ := h
  simp [hp]

/-! ## The invariant of a shared memory -/

/-- Each value in the memory is what the latest miss on its text gave. -/
def Faithful (past : List Answer) (memory : Memory) : Prop :=
  ∀ source p, memory.find? source = some p →
    ∃ b, IsLatestMiss past source b ∧ b.call.fresh = .ok p

theorem faithful_empty (capacity : Nat) : Faithful [] (.empty capacity) := by
  intro source p h
  simp at h

/-- One call keeps the invariant. -/
theorem faithful_answer {past : List Answer} {memory : Memory} (call : Call)
    (h : Faithful past memory) :
    Faithful (past ++ [(call.answer memory).1]) (call.answer memory).2 := by
  cases hf : memory.find? call.request.source with
  | some p =>
    rw [answer_of_hit hf]
    intro source q hq
    rw [Cache.find?_get] at hq
    obtain ⟨b, hb, hfresh⟩ := h source q hq
    exact ⟨b, hb.snoc (fun _ => rfl), hfresh⟩
  | none =>
    rw [answer_of_miss hf]
    -- A value that was there before stands under another text, which this call is not on.
    have hold : ∀ source q, source ≠ call.request.source → memory.find? source = some q →
        ∃ b, IsLatestMiss (past ++ [⟨call, true, call.fresh⟩]) source b ∧
          b.call.fresh = .ok q := by
      intro source q hne hq
      obtain ⟨b, hb, hfresh⟩ := h source q hq
      exact ⟨b, hb.snoc (fun he => absurd he.symm hne), hfresh⟩
    intro source q hq
    cases hc : call.fresh with
    | error e =>
      rw [hc] at hq
      rw [← hc]
      refine hold source q ?_ hq
      intro he
      rw [he, hf] at hq
      cases hq
    | ok p =>
      rw [hc] at hq
      rw [← hc]
      rcases Cache.find?_set_eq_some hq with ⟨hs, hv⟩ | ⟨hs, hq'⟩
      · subst hs hv
        exact ⟨_, isLatestMiss_self past rfl, hc⟩
      · exact hold source q hs hq'

/-- An answer that succeeds is what the latest miss on its text gave. -/
theorem answer_ok {past : List Answer} {memory : Memory} (call : Call) {p : Compiled}
    (h : Faithful past memory) (hok : (call.answer memory).1.outcome = .ok p) :
    ∃ b, IsLatestMiss (past ++ [(call.answer memory).1]) call.request.source b ∧
      b.call.fresh = .ok p := by
  cases hf : memory.find? call.request.source with
  | some q =>
    rw [answer_of_hit hf] at hok ⊢
    cases hok
    obtain ⟨b, hb, hfresh⟩ := h _ _ hf
    exact ⟨b, hb.snoc (fun _ => rfl), hfresh⟩
  | none =>
    rw [answer_of_miss hf] at hok ⊢
    exact ⟨_, isLatestMiss_self past rfl, hok⟩

/-! ## A row of calls -/

theorem answers_map_call (memory : Memory) (calls : List Call) :
    (answers memory calls).map Answer.call = calls := by
  induction calls generalizing memory with
  | nil => rfl
  | cons call calls ih => rw [answers, List.map_cons, ih, answer_call]

/-- The invariant goes along a row of calls, so each answer that succeeds is what the latest miss
gave, as far as the row has come. -/
theorem answers_ok {past : List Answer} {memory : Memory} {calls : List Call}
    (h : Faithful past memory) {i : Nat} {a : Answer} {p : Compiled}
    (ha : (answers memory calls)[i]? = some a) (hok : a.outcome = .ok p) :
    ∃ b, IsLatestMiss (past ++ (answers memory calls).take (i + 1)) a.source b ∧
      b.call.fresh = .ok p := by
  induction calls generalizing past memory i with
  | nil => simp [answers] at ha
  | cons call calls ih =>
    rw [answers] at ha ⊢
    cases i with
    | zero =>
      rw [List.getElem?_cons_zero, Option.some.injEq] at ha
      subst ha
      exact answer_ok call h hok
    | succ i =>
      rw [List.getElem?_cons_succ] at ha
      rw [List.take_succ_cons, List.append_cons]
      exact ih (faithful_answer call h) ha

/-- What is remembered never fails, so a failure is that of compiling afresh. -/
theorem outcome_of_error {memory : Memory} {calls : List Call} {a : Answer} {e : CompileError}
    (ha : a ∈ answers memory calls) (he : a.outcome = .error e) : a.outcome = a.call.fresh := by
  induction calls generalizing memory with
  | nil => simp [answers] at ha
  | cons call calls ih =>
    rw [answers, List.mem_cons] at ha
    rcases ha with rfl | ha
    · cases hf : memory.find? call.request.source with
      | some p => rw [answer_of_hit hf] at he; cases he
      | none => rw [answer_of_miss hf]
    · exact ih ha

/-! ## The law -/

/-- Whatever the capacity and whatever was evicted in between: each answer that succeeds is what
compiling afresh gave for the latest call on its text, at or before this one, that was not
remembered. So where a text is always compiled in the same way, each answer is that of compiling
afresh. -/
theorem an_answer_is_that_of_the_latest_miss (capacity : Nat) (calls : List Call) :
    (answers (.empty capacity) calls).map Answer.call = calls ∧
      (∀ i a p, (answers (.empty capacity) calls)[i]? = some a → a.outcome = .ok p →
        ∃ b, IsLatestMiss ((answers (.empty capacity) calls).take (i + 1)) a.source b ∧
          b.call.fresh = .ok p) ∧
      ((∀ call ∈ calls, ∀ other ∈ calls, call.request.source = other.request.source →
          call = other) →
        ∀ a ∈ answers (.empty capacity) calls, a.outcome = a.call.fresh) := by
  have hlatest : ∀ i a p, (answers (.empty capacity) calls)[i]? = some a → a.outcome = .ok p →
      ∃ b, IsLatestMiss ((answers (.empty capacity) calls).take (i + 1)) a.source b ∧
        b.call.fresh = .ok p := by
    intro i a p ha hok
    exact answers_ok (faithful_empty capacity) ha hok
  refine ⟨answers_map_call _ _, hlatest, ?_⟩
  intro hsame a ha
  have hcalls : ∀ b ∈ answers (.empty capacity) calls, b.call ∈ calls := by
    intro b hb
    rw [← answers_map_call (.empty capacity) calls]
    exact List.mem_map_of_mem hb
  cases hout : a.outcome with
  | error e => rw [← hout]; exact outcome_of_error ha hout
  | ok p =>
    obtain ⟨i, hi⟩ := List.mem_iff_getElem?.mp ha
    obtain ⟨b, hb, hfresh⟩ := hlatest i a p hi hout
    have hbm := List.mem_of_mem_take hb.mem
    obtain ⟨_, _, _, _, hs, _⟩ := hb
    rw [← hsame _ (hcalls b hbm) _ (hcalls a ha) hs, hfresh]

end DocPages.Compile
