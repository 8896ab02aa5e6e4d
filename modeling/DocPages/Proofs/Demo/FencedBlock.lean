-- Code between fences reads back as it was. The fence is longer than every run of
-- ticks in the code, so no line of the code closes the block, and the first line
-- that closes it is the last one.
import DocPages.Demo.Fence
import DocPages.Proofs.Text.Lines
import DocPages.Proofs.Text.Search
import DocPages.Proofs.Text.Trim

namespace DocPages.Demo

open Text (isLineBreak joinWith splitBy)

variable {n : Nat} {cs line : List Char} {lines : List (List Char)}

/-! ## Runs of ticks -/

/-- The ticks in front of a text are a part of its first run. -/
theorem le_longestRunFrom_iff (n run : Nat) (cs : List Char) :
    n ≤ longestRunFrom run cs ↔ List.replicate n tick <:+: List.replicate run tick ++ cs := by
  induction cs generalizing run with
  | nil => simp [longestRunFrom, List.infix_replicate_iff]
  | cons c cs ih =>
    rw [longestRunFrom]
    split
    · rename_i hc
      rw [ih, beq_iff_eq.mp hc, List.append_cons, ← List.replicate_succ']
    · rename_i hc
      have hnot : c ∉ List.replicate n tick := by
        intro hmem
        exact hc (beq_iff_eq.mpr (List.eq_of_mem_replicate hmem))
      have hmax : n ≤ max run (longestRunFrom 0 cs) ↔ n ≤ run ∨ n ≤ longestRunFrom 0 cs := by
        omega
      rw [Text.infix_append_cons_iff hnot, hmax, ih]
      simp [List.infix_replicate_iff]

/-- A run of ticks stands in a text if and only if it is no longer than the longest one. -/
theorem le_longestRun_iff (n : Nat) (cs : List Char) :
    n ≤ longestRun cs ↔ List.replicate n tick <:+: cs := le_longestRunFrom_iff n 0 cs

/-- The number of ticks in the fence for code. -/
def fenceLength (code : List Char) : Nat := max 3 (longestRun code + 1)

theorem fenceMark_eq (code : List Char) : fenceMark code = List.replicate (fenceLength code) tick :=
  rfl

/-- The fence stands nowhere in the code. -/
theorem not_infix_fence {code : List Char} (h : cs <:+: code) :
    ¬ List.replicate (fenceLength code) tick <:+: cs := by
  intro hrun
  have hle := (le_longestRun_iff _ _).mpr (hrun.trans h)
  unfold fenceLength at hle
  omega

/-! ## Reading a block -/

/-- A line closes a block that `n` ticks have opened if it begins with as many, behind at most three
spaces. -/
def Closes (n : Nat) (line : List Char) : Prop :=
  ∃ k ≤ 3, List.replicate k ' ' ++ List.replicate n tick <+: line

instance (n : Nat) (line : List Char) : Decidable (Closes n line) :=
  inferInstanceAs (Decidable (∃ k, k ≤ 3 ∧ List.replicate k ' ' ++ List.replicate n tick <+: line))

/-- A block of code as it is read: the ticks that open it, what stands behind them, the lines of the
code, and the lines behind the one that closes it. -/
structure FencedBlock where
  ticks : Nat
  info : List Char
  code : List (List Char)
  behind : List (List Char)
  deriving DecidableEq

/-- Reads a block of code that at least three ticks open, up to the first line that closes it. -/
def FencedBlock.read? : List (List Char) → Option FencedBlock
  | [] => none
  | first :: rest =>
    let ticks := (first.takeWhile (· == tick)).length
    if ticks < 3 then none
    else
      match rest.dropWhile fun line => !decide (Closes ticks line) with
      | [] => none
      | _ :: behind =>
        let code := rest.takeWhile fun line => !decide (Closes ticks line)
        some ⟨ticks, first.drop ticks, code, behind⟩

theorem not_closes (h : ¬ List.replicate n tick <:+: line) : ¬ Closes n line := by
  rintro ⟨k, -, hline⟩
  exact h ((List.suffix_append _ _).isInfix.trans hline.isInfix)

theorem read?_lines (hn : 3 ≤ n) {info : List Char} (hinfo : ∀ c ∈ info.head?, c ≠ tick)
    (hlines : ∀ line ∈ lines, ¬ Closes n line) :
    FencedBlock.read? ((List.replicate n tick ++ info) :: (lines ++ [List.replicate n tick])) =
      some ⟨n, info, lines, []⟩ := by
  have hticks : (List.replicate n tick ++ info).takeWhile (· == tick) = List.replicate n tick := by
    rw [List.takeWhile_append_of_pos fun c hc => beq_iff_eq.mpr (List.eq_of_mem_replicate hc)]
    cases info with
    | nil => exact List.append_nil _
    | cons c info => simp [hinfo c rfl]
  have hcloses : Closes n (List.replicate n tick) := ⟨0, Nat.zero_le _, List.prefix_rfl⟩
  have hopen : ∀ line ∈ lines, (!decide (Closes n line)) = true := by
    intro line hline
    rw [decide_eq_false (hlines line hline), Bool.not_false]
  unfold FencedBlock.read?
  dsimp only
  rw [hticks, List.length_replicate, if_neg (Nat.not_lt.mpr hn), List.dropWhile_append_of_pos hopen,
    List.takeWhile_append_of_pos hopen]
  simp [hcloses]

/-! ## The law -/

/-- The lines of fenced code: that of the fence and the language, those of the code, and that of the
fence. -/
theorem splitBy_fenceChars {ends : Char → Bool} (hfeed : ends '\n' = true)
    (hends : ∀ c, ends c = true → isLineBreak c = true) {lang : List Char}
    (hlang : ∀ c ∈ lang, isLineBreak c = false) (code : List Char) :
    splitBy ends (fenceChars lang code) =
      (fenceMark code ++ lang) :: (splitBy ends (trimBreaks code) ++ [fenceMark code]) := by
  have hunbroken : ∀ c, isLineBreak c = false → ends c = false := by
    intro c hc
    rw [← Bool.not_eq_true]
    intro h
    rw [hends c h] at hc
    cases hc
  have hmark : ∀ c ∈ fenceMark code, ends c = false := by
    intro c hc
    rw [List.eq_of_mem_replicate hc]
    exact hunbroken tick (by decide)
  have hfirst : ∀ c ∈ fenceMark code ++ lang, ends c = false := by
    intro c hc
    rcases List.mem_append.mp hc with hc | hc
    · exact hmark c hc
    · exact hunbroken c (hlang c hc)
  unfold fenceChars
  dsimp only
  rw [Text.splitBy_append_cons hfeed, Text.splitBy_append_cons hfeed,
    Text.splitBy_of_forall hfirst, Text.splitBy_of_forall hmark]
  rfl

/-- Fenced code in a language without ticks and line breaks is one block: a line of at least three
ticks and the language, the code without the line breaks at its end, and a line of as many ticks. No
run of that many ticks stands in between, so the block reads back with its language and with the
lines of the code, and nothing is left behind it, whether or not a carriage return ends a line, too. -/
theorem fenced_code_reads_back (lang code : String)
    (h : ∀ c ∈ lang.toList, c ≠ tick ∧ isLineBreak c = false) :
    ∃ n body breaks, 3 ≤ n ∧
      code.toList = body ++ breaks ∧ (∀ c ∈ breaks, isLineBreak c = true) ∧
      (∀ c ∈ body.getLast?, isLineBreak c = false) ∧
      (fence lang code).toList = List.replicate n tick ++ lang.toList ++
        '\n' :: (body ++ '\n' :: List.replicate n tick) ∧
      ¬ List.replicate n tick <:+: body ∧
      joinWith ['\n'] (splitBy (· == '\n') body) = body ∧
      ∀ ends : Char → Bool, ends '\n' = true → (∀ c, ends c = true → isLineBreak c = true) →
        FencedBlock.read? (splitBy ends (fence lang code).toList) =
          some ⟨n, lang.toList, splitBy ends body, []⟩ := by
  obtain ⟨breaks, hcode, hbreaks, hlast⟩ := Text.trimEndBy_spec isLineBreak code.toList
  have hfence : (fence lang code).toList = fenceChars lang.toList code.toList :=
    String.toList_ofList
  have hrun : ¬ List.replicate (fenceLength code.toList) tick <:+: trimBreaks code.toList :=
    not_infix_fence ⟨[], breaks, hcode.symm⟩
  refine ⟨fenceLength code.toList, trimBreaks code.toList, breaks, Nat.le_max_left _ _, hcode,
    hbreaks, hlast, ?_, hrun, Text.joinWith_splitBy _ _, fun ends hfeed hends => ?_⟩
  · rw [hfence]
    simp [fenceChars, fenceMark_eq]
  · rw [hfence, splitBy_fenceChars hfeed hends fun c hc => (h c hc).2, fenceMark_eq]
    refine read?_lines (Nat.le_max_left _ _) (fun c hc => (h c (List.mem_of_mem_head? hc)).1) ?_
    exact fun line hline => not_closes fun hticks =>
      hrun (hticks.trans (Text.infix_of_mem_splitBy hline))

/-- Code that is fenced itself, with line breaks of both kinds at its end. -/
def fencedCode : String := "````js\nx\n````\r\n\n"

/-- A fence in code is no fence of the block, which is read to its end. -/
theorem fencedCode_reads_back :
    (∀ c ∈ "md".toList, c ≠ tick ∧ isLineBreak c = false) ∧
      ∃ body, FencedBlock.read? (splitBy isLineBreak (fence "md" fencedCode).toList) =
          some ⟨5, "md".toList, splitBy isLineBreak body, []⟩ ∧
        splitBy isLineBreak body = ["````js".toList, "x".toList, "````".toList] := by
  have hlang : ∀ c ∈ "md".toList, c ≠ tick ∧ isLineBreak c = false := by
    simp [isLineBreak, tick]
  obtain ⟨n, body, breaks, -, -, -, -, -, -, -, hread⟩ :=
    fenced_code_reads_back "md" fencedCode hlang
  have hblock := hread isLineBreak rfl fun _ h => h
  have hshown : FencedBlock.read? (splitBy isLineBreak (fence "md" fencedCode).toList) =
      some ⟨5, "md".toList, ["````js".toList, "x".toList, "````".toList], []⟩ := by
    decide +kernel
  rw [hshown, Option.some_inj, FencedBlock.mk.injEq] at hblock
  obtain ⟨rfl, -, hlines, -⟩ := hblock
  refine ⟨hlang, body, ?_, hlines.symm⟩
  rw [hshown, hlines]

end DocPages.Demo
