-- Escaped text. A text in which a backslash stands in front of every character
-- that can be escaped comes through both pipelines as it was before the escaping.
-- One fact carries the steps up to the one that drops the backslashes: in escaped
-- text such a character stands only behind a backslash, and there none of these
-- steps takes it for a mark or for the start of a tag.
import DocPages.Proofs.HeaderText.Emphasis
import DocPages.Proofs.HeaderText.Links

namespace DocPages.HeaderText

/-- The text with a backslash in front of every character that can be escaped. -/
def escaped (cs : List Char) : List Char :=
  cs.flatMap fun c => if c ∈ escapable then ['\\', c] else [c]

theorem escaped_cons_of_mem {c : Char} (h : c ∈ escapable) (cs : List Char) :
    escaped (c :: cs) = '\\' :: c :: escaped cs := by
  rw [escaped, List.flatMap_cons, if_pos h]
  rfl

theorem escaped_cons_of_not_mem {c : Char} (h : c ∉ escapable) (cs : List Char) :
    escaped (c :: cs) = c :: escaped cs := by
  rw [escaped, List.flatMap_cons, if_neg h]
  rfl

/-- Escaping brings in nothing but backslashes. -/
theorem mem_of_mem_escaped {c : Char} {cs : List Char} (hc : c ≠ '\\') (h : c ∈ escaped cs) :
    c ∈ cs := by
  obtain ⟨d, hd, hcd⟩ := List.mem_flatMap.mp h
  split at hcd
  · rw [List.mem_cons, List.mem_singleton] at hcd
    exact (hcd.resolve_left hc) ▸ hd
  · exact List.mem_singleton.mp hcd ▸ hd

/-! ## Where the characters stand -/

/-- Every character that can be escaped stands behind a backslash, but perhaps the first one. -/
def Guarded (cs : List Char) : Prop := cs.IsChain fun b c => c ∈ escapable → b = '\\'

theorem Guarded.of_suffix {rest cs : List Char} (h : Guarded cs) (hrest : rest <:+ cs) :
    Guarded rest := List.IsChain.suffix h hrest

theorem Guarded.backslash {b c : Char} {cs : List Char} (h : Guarded (b :: c :: cs))
    (hc : c ∈ escapable) : b = '\\' := (List.isChain_cons_cons.mp h).1 hc

/-- Escaped text begins with no character that can be escaped. -/
theorem head_escaped {c : Char} {cs : List Char} (h : (escaped cs).head? = some c) :
    c ∉ escapable := by
  cases cs with
  | nil => cases h
  | cons d cs =>
    by_cases hd : d ∈ escapable
    · rw [escaped_cons_of_mem hd] at h
      cases h
      decide
    · rw [escaped_cons_of_not_mem hd] at h
      cases h
      exact hd

theorem guarded_escaped (cs : List Char) : Guarded (escaped cs) := by
  induction cs with
  | nil => exact List.IsChain.nil
  | cons c cs ih =>
    have hfirst : Guarded (c :: escaped cs) :=
      List.isChain_cons.mpr ⟨fun d hd hmem => absurd hmem (head_escaped hd), ih⟩
    by_cases hc : c ∈ escapable
    · rw [escaped_cons_of_mem hc]
      exact List.isChain_cons_cons.mpr ⟨fun _ => rfl, hfirst⟩
    · rw [escaped_cons_of_not_mem hc]
      exact hfirst

/-! ## Tags -/

theorem tagAt_of_guarded {start : Bool} {cs : List Char} (h : Guarded cs)
    (hstart : start = true → ∀ c, cs.head? = some c → c ∉ escapable) : tagAt start cs = none := by
  have hlt : '<' ∈ escapable := by decide
  unfold tagAt
  split
  · exact absurd hlt (hstart rfl _ rfl)
  · rw [if_neg]
    rw [h.backslash hlt]
    decide
  · rfl

/-- A tag starts with a character that can be escaped. -/
theorem dropTags_escaped (cs : List Char) : dropTags (escaped cs) = escaped cs := by
  refine Text.replaceBy_of_none fun start rest hrest hwhole => ?_
  refine tagAt_of_guarded ((guarded_escaped cs).of_suffix hrest) fun hs c hc => ?_
  rw [hwhole hs] at hc
  exact head_escaped hc

/-! ## Character references -/

theorem prefix_of_prefix_escaped {needle cs : List Char}
    (hplain : ∀ c ∈ needle, c ≠ '\\' ∧ c ∉ escapable) (h : needle <+: escaped cs) :
    needle <+: cs := by
  induction cs generalizing needle with
  | nil => exact h
  | cons c cs ih =>
    cases needle with
    | nil => exact List.nil_prefix
    | cons d needle =>
      obtain ⟨hd, hneedle⟩ := List.forall_mem_cons.mp hplain
      by_cases hc : c ∈ escapable
      · rw [escaped_cons_of_mem hc, List.cons_prefix_cons] at h
        exact absurd h.1 hd.1
      · rw [escaped_cons_of_not_mem hc, List.cons_prefix_cons] at h
        exact List.cons_prefix_cons.mpr ⟨h.1, ih hneedle h.2⟩

/-- What holds neither a backslash nor a character that can be escaped is found in escaped text
only where it was before. -/
theorem infix_of_infix_escaped {needle cs : List Char}
    (hplain : ∀ c ∈ needle, c ≠ '\\' ∧ c ∉ escapable) (h : needle <:+: escaped cs) :
    needle <:+: cs := by
  induction cs with
  | nil => exact h
  | cons c cs ih =>
    have hrest : needle <:+: escaped cs → needle <:+: c :: cs := fun h =>
      (ih h).trans (List.suffix_cons c cs).isInfix
    by_cases hc : c ∈ escapable
    · rw [escaped_cons_of_mem hc, List.infix_cons_iff, List.infix_cons_iff] at h
      rcases h with h | h | h
      · rw [← escaped_cons_of_mem hc] at h
        exact (prefix_of_prefix_escaped hplain h).isInfix
      · cases needle with
        | nil => exact List.nil_infix
        | cons d needle =>
          obtain ⟨rfl, -⟩ := List.cons_prefix_cons.mp h
          exact absurd hc (hplain d List.mem_cons_self).2
      · exact hrest h
    · rw [escaped_cons_of_not_mem hc, List.infix_cons_iff] at h
      rcases h with h | h
      · rw [← escaped_cons_of_not_mem hc] at h
        exact (prefix_of_prefix_escaped hplain h).isInfix
      · exact hrest h

theorem decodeEach_of_not_infix {list : List (List Char × Char)} {cs : List Char}
    (h : ∀ e ∈ list, ¬ e.1 <:+: cs) : decodeEach list cs = cs := by
  refine List.foldlRecOn (motive := fun text => text = cs) list _ rfl fun text ih e he => ?_
  rw [ih]
  exact Text.replaceAll_of_not_infix (h e he) _

theorem decodeEntities_of_not_infix {cs : List Char} (h : ∀ e ∈ entities, ¬ e.1 <:+: cs) :
    decodeEntities cs = cs := by
  unfold decodeEntities
  split
  · exact decodeEach_of_not_infix h
  · rfl

theorem decodeEntities_escaped {cs : List Char} (h : ∀ e ∈ entities, ¬ e.1 <:+: cs) :
    decodeEntities (escaped cs) = escaped cs := by
  have hplain : ∀ e ∈ entities, e.1.all (fun c => c != '\\' && !escapable.contains c) = true := by
    decide
  refine decodeEntities_of_not_infix fun e he hin => h e he (infix_of_infix_escaped ?_ hin)
  simpa using hplain e he

/-! ## Links -/

theorem unwrapLinks_escaped {cs : List Char} (h : '[' ∉ cs) :
    unwrapLinks (escaped cs) = escaped cs :=
  unwrapLinks_of_not_mem fun hin => h (mem_of_mem_escaped (by decide) hin)

/-! ## Emphasis -/

theorem markChars_subset : markChars ⊆ escapable := by decide

theorem Guarded.blocked {m : Char} {cs : List Char} (hm : m ∈ escapable) (h : Guarded cs) :
    Blocked m cs := List.IsChain.imp (fun _ _ hguard hc => hguard (hc ▸ hm)) h

/-- In guarded text no mark takes in a text. -/
theorem emphasisAt_of_guarded {c : Char} {cs : List Char} (h : Guarded cs) :
    emphasisAt (c :: cs) = none := by
  by_cases hc : c ∈ markChars
  · exact emphasisAt_of_blocked (h.blocked (markChars_subset hc))
  · exact emphasisAt_of_not_mem hc cs

theorem unwrapEmphasis_escaped (cs : List Char) : unwrapEmphasis (escaped cs) = escaped cs := by
  have hnone : ∀ c rest, c :: rest <:+ escaped cs → emphasisAt (c :: (rest ++ [])) = none := by
    intro c rest hrest
    rw [List.append_nil]
    apply emphasisAt_of_guarded
    exact (guarded_escaped cs).of_suffix ((List.suffix_cons c rest).trans hrest)
  have hend : unwrapEmphasis [] = [] := rfl
  simpa [hend] using unwrapEmphasis_keep hnone

/-! ## Escapes -/

theorem escapeAt_of_mem {c : Char} (h : c ∈ escapable) (start : Bool) (cs : List Char) :
    escapeAt start ('\\' :: c :: cs) = some ⟨1, [c]⟩ := by
  rw [escapeAt, if_pos (List.contains_iff_mem.mpr h)]

/-- In front of any other character a backslash stays. -/
theorem escapeAt_of_head {cs : List Char} (h : ∀ d, cs.head? = some d → d ∉ escapable)
    (start : Bool) (c : Char) : escapeAt start (c :: cs) = none := by
  unfold escapeAt
  split
  · rename_i d rest heq
    rw [List.cons.injEq] at heq
    have hd : d ∉ escapable := h d (by rw [heq.2]; rfl)
    rw [if_neg (by rwa [List.contains_iff_mem])]
  · rfl

/-- Behind escaped text the search goes on, if nothing that can be escaped follows it. -/
theorem unescapePunctuation_append (cs : List Char) {back : List Char}
    (hback : ∀ d, back.head? = some d → d ∉ escapable) :
    unescapePunctuation (escaped cs ++ back) = cs ++ unescapePunctuation back := by
  induction cs with
  | nil => rfl
  | cons c cs ih =>
    have hhead : ∀ d, (escaped cs ++ back).head? = some d → d ∉ escapable := by
      intro d hd
      rw [List.head?_append, Option.or_eq_some_iff] at hd
      rcases hd with hd | ⟨-, hd⟩
      · exact head_escaped hd
      · exact hback d hd
    by_cases hc : c ∈ escapable
    · have hhere := escapeAt_of_mem hc true (escaped cs ++ back)
      have hstep : unescapePunctuation ('\\' :: ([c] ++ (escaped cs ++ back))) =
          [c] ++ unescapePunctuation (escaped cs ++ back) :=
        Text.replaceBy_of_some (fun _ => rfl) hhere
      rw [escaped_cons_of_mem hc, List.cons_append, List.cons_append, List.cons_append, ← ih]
      exact hstep
    · rw [escaped_cons_of_not_mem hc, List.cons_append, List.cons_append, ← ih]
      exact Text.replaceBy_cons (fun _ => rfl) (escapeAt_of_head hhead true c)

/-- Dropping the backslashes undoes the escaping. -/
theorem unescapePunctuation_escaped (cs : List Char) : unescapePunctuation (escaped cs) = cs := by
  have hend : unescapePunctuation [] = [] := rfl
  have hhead : ∀ d, ([] : List Char).head? = some d → d ∉ escapable := nofun
  simpa [hend] using unescapePunctuation_append cs hhead

/-! ## The pipelines -/

/-- A run gives the text behind its last step. -/
theorem getLast?_trace {steps : List Step} (h : steps ≠ []) (cs : List Char) :
    (trace steps cs).getLast?.map Prod.snd = some (String.ofList (runChars steps cs)) := by
  induction steps generalizing cs with
  | nil => exact absurd rfl h
  | cons step steps ih =>
    rw [trace, runChars_cons]
    cases steps with
    | nil => rfl
    | cons next steps =>
      rw [← ih (List.cons_ne_nil next steps), trace, List.getLast?_cons_cons]

theorem trace_escaped {cs : List Char} (hlinks : '[' ∉ cs)
    (hentities : ∀ e ∈ entities, ¬ e.1 <:+: cs) :
    trace shallowSteps (escaped cs) =
      [(.decodeEntities, String.ofList (escaped cs)), (.unwrapLinks, String.ofList (escaped cs)),
        (.unwrapEmphasis, String.ofList (escaped cs)), (.unescapePunctuation, String.ofList cs),
        (.trim, String.ofList (Text.trim cs))] := by
  simp only [shallowSteps, trace, Step.apply, decodeEntities_escaped hentities,
    unwrapLinks_escaped hlinks, unwrapEmphasis_escaped, unescapePunctuation_escaped]

/-- Text without links and character references, once it is escaped, comes out of both pipelines
trimmed: every step up to the one for escapes leaves it unchanged, and that one drops the
backslashes of the escaping and no others. -/
theorem escaped_text_comes_out_as_it_was (text : String) (hlinks : '[' ∉ text.toList)
    (hentities : ∀ e ∈ entities, ¬ e.1 <:+: text.toList) :
    let written := String.ofList (escaped text.toList)
    let trimmed := String.ofList (Text.trim text.toList)
    shallow written = trimmed ∧ deep written = trimmed ∧
      trace shallowSteps written.toList =
        [(.decodeEntities, written), (.unwrapLinks, written), (.unwrapEmphasis, written),
          (.unescapePunctuation, text), (.trim, trimmed)] ∧
      trace deepSteps written.toList =
        (.dropTags, written) :: trace shallowSteps written.toList := by
  intro written trimmed
  have hwritten : written.toList = escaped text.toList := String.toList_ofList
  have htrace := trace_escaped hlinks hentities
  have hshallow : shallow written = trimmed := by
    have hsteps : shallowSteps ≠ [] := by decide
    have hlast := getLast?_trace hsteps (escaped text.toList)
    rw [htrace] at hlast
    rw [shallow, run, hwritten]
    exact (Option.some.inj hlast).symm
  have hdrop : Step.dropTags.apply (escaped text.toList) = escaped text.toList :=
    dropTags_escaped text.toList
  refine ⟨hshallow, ?_, ?_, ?_⟩
  · rw [← hshallow, deep, run, deepSteps, runChars_cons, hwritten, hdrop, shallow, run, hwritten]
  · rw [hwritten, htrace, String.ofList_toList]
  · rw [hwritten, deepSteps, trace, hdrop]

/-- A text with every kind of mark, marks in a row and behind backslashes, a tag that begins a line,
references that are not decoded, and white space at both ends. -/
def markedText : String := " \\*a**_\x60\n<b _c_>\\ $&amp; &lt\\; ***!\n"

theorem markedText_comes_out_as_it_was :
    '[' ∉ markedText.toList ∧ (∀ e ∈ entities, ¬ e.1 <:+: markedText.toList) ∧
      shallow " \\\\*a\\*\\*\\_\\\x60\n\\<b \\_c\\_>\\ \\$&amp; &lt\\; \\*\\*\\*\\!\n" =
        "\\*a**_\x60\n<b _c_>\\ $&amp; &lt\\; ***!" ∧
      deep " \\\\*a\\*\\*\\_\\\x60\n\\<b \\_c\\_>\\ \\$&amp; &lt\\; \\*\\*\\*\\!\n" =
        "\\*a**_\x60\n<b _c_>\\ $&amp; &lt\\; ***!" := by
  have hlinks : '[' ∉ markedText.toList := by decide
  have hsearched : ∀ e ∈ entities, Text.contains e.1 markedText.toList = false := by decide
  have hentities : ∀ e ∈ entities, ¬ e.1 <:+: markedText.toList := fun e he => by
    rw [← Text.contains_iff, hsearched e he]
    exact Bool.false_ne_true
  have hwritten : escaped markedText.toList =
      " \\\\*a\\*\\*\\_\\\x60\n\\<b \\_c\\_>\\ \\$&amp; &lt\\; \\*\\*\\*\\!\n".toList := by decide
  have htrimmed : Text.trim markedText.toList =
      "\\*a**_\x60\n<b _c_>\\ $&amp; &lt\\; ***!".toList := by decide
  obtain ⟨hshallow, hdeep, -, -⟩ := escaped_text_comes_out_as_it_was markedText hlinks hentities
  rw [hwritten, htrimmed, String.ofList_toList, String.ofList_toList] at hshallow hdeep
  exact ⟨hlinks, hentities, hshallow, hdeep⟩

end DocPages.HeaderText
