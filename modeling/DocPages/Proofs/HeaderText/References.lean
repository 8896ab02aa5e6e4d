-- Character references. They are decoded one kind after another, each over what
-- the ones before it have left. No character that stands for a reference can be a
-- part of one, and no two references overlap, so none is made or broken on the
-- way: the order does not matter, and one pass over the text gives the same.
import DocPages.Proofs.HeaderText.Escaped

namespace DocPages.HeaderText

variable {e : List Char × Char} {list done : List (List Char × Char)} {c : Char}
  {cs t : List Char}

/-! ## One pass -/

/-- One pass over a text from left to right. A reference that stands at a place is replaced by its
character, and every other character is copied. -/
def decodeOnce (list : List (List Char × Char)) : List Char → List Char
  | [] => []
  | c :: cs =>
    match list.find? fun e => e.1.isPrefixOf (c :: cs) with
    | some e => e.2 :: decodeOnce list (cs.drop (e.1.length - 1))
    | none => c :: decodeOnce list cs
termination_by cs => cs.length
decreasing_by
  · rw [List.length_drop, List.length_cons]
    omega
  · exact Nat.lt_succ_self _

/-- References that cannot get into each other's way: an ampersand stands at the start of each and
nowhere else, none is the start of another, and none holds a character that stands for one. -/
structure Apart (list : List (List Char × Char)) : Prop where
  opens : ∀ e ∈ list, e.1.head? = some '&' ∧ '&' ∉ e.1.tail
  chars : ∀ e ∈ list, ∀ f ∈ list, e.2 ∉ f.1
  starts : ∀ e ∈ list, ∀ f ∈ list, e.1 <+: f.1 → e = f

theorem apart_entities : Apart entities := ⟨by decide, by decide, by decide⟩

theorem Apart.of_subset (h : Apart list) (hsub : done ⊆ list) : Apart done :=
  ⟨fun e he => h.opens e (hsub he), fun e he f hf => h.chars e (hsub he) f (hsub hf),
    fun e he f hf => h.starts e (hsub he) f (hsub hf)⟩

theorem Apart.exists_stem (h : Apart list) (he : e ∈ list) :
    ∃ stem, e.1 = '&' :: stem ∧ '&' ∉ stem := by
  obtain ⟨hhead, htail⟩ := h.opens e he
  obtain ⟨stem, hstem⟩ := List.head?_eq_some_iff.mp hhead
  rw [hstem] at htail
  exact ⟨stem, hstem, htail⟩

/-- Only one reference stands at a place. -/
theorem Apart.eq_of_prefix (h : Apart list) {f : List Char × Char} (he : e ∈ list) (hf : f ∈ list)
    (hecs : e.1 <+: cs) (hfcs : f.1 <+: cs) : e = f := by
  rcases List.prefix_or_prefix_of_prefix hecs hfcs with hef | hfe
  · exact h.starts e he f hf hef
  · exact (h.starts f hf e he hfe).symm

/-- Where no reference stands a character is copied. -/
theorem decodeOnce_cons (h : ∀ e ∈ list, ¬ e.1 <+: c :: cs) :
    decodeOnce list (c :: cs) = c :: decodeOnce list cs := by
  have hnone : list.find? (fun e => e.1.isPrefixOf (c :: cs)) = none := by
    rw [List.find?_eq_none]
    intro e he
    rw [List.isPrefixOf_iff_prefix]
    exact h e he
  rw [decodeOnce, hnone]

/-- Where a reference stands its character is written. -/
theorem decodeOnce_append (h : Apart list) (he : e ∈ list) (cs : List Char) :
    decodeOnce list (e.1 ++ cs) = e.2 :: decodeOnce list cs := by
  obtain ⟨stem, hstem, -⟩ := h.exists_stem he
  have hfind : list.find? (fun f => f.1.isPrefixOf ('&' :: (stem ++ cs))) = some e := by
    cases hfound : list.find? fun f => f.1.isPrefixOf ('&' :: (stem ++ cs)) with
    | none =>
      rw [List.find?_eq_none] at hfound
      refine absurd ?_ (hfound e he)
      rw [List.isPrefixOf_iff_prefix, hstem]
      exact List.prefix_append _ cs
    | some f =>
      have hstart := List.find?_some hfound
      rw [List.isPrefixOf_iff_prefix] at hstart
      rw [h.eq_of_prefix (List.mem_of_find?_eq_some hfound) he hstart]
      rw [hstem]
      exact List.prefix_append _ cs
  rw [hstem, List.cons_append, decodeOnce, hfind]
  dsimp only
  rw [hstem, List.length_cons, Nat.add_sub_cancel, List.drop_left]

/-- A text is empty, or a reference stands at its front, or a character that is copied. -/
theorem reference_induction {motive : List Char → Prop} (h : Apart list) (nil : motive [])
    (reference : ∀ e ∈ list, ∀ cs, motive cs → motive (e.1 ++ cs))
    (copied : ∀ c cs, (∀ e ∈ list, ¬ e.1 <+: c :: cs) → motive cs → motive (c :: cs))
    (cs : List Char) : motive cs := by
  match cs with
  | [] => exact nil
  | c :: rest =>
    by_cases hhere : ∃ e ∈ list, e.1 <+: c :: rest
    · obtain ⟨e, he, after, hafter⟩ := hhere
      obtain ⟨stem, hstem, -⟩ := h.exists_stem he
      have hshorter : after.length < (c :: rest).length := by
        rw [← hafter, hstem, List.length_append, List.length_cons]
        omega
      rw [← hafter]
      exact reference e he after (reference_induction h nil reference copied after)
    · refine copied c rest (fun e he hfront => hhere ⟨e, he, hfront⟩) ?_
      exact reference_induction h nil reference copied rest
termination_by cs.length
decreasing_by
  · exact hshorter
  · exact Nat.lt_succ_self _

/-- A text with none of the characters that stand for references is found at the front only where it
stood before. -/
theorem prefix_of_prefix_decodeOnce (h : Apart list) (ht : ∀ e ∈ list, e.2 ∉ t)
    (hfront : t <+: decodeOnce list cs) : t <+: cs := by
  induction cs using reference_induction h generalizing t with
  | nil => rwa [decodeOnce] at hfront
  | reference e he cs ih =>
    cases t with
    | nil => exact List.nil_prefix
    | cons d t =>
      rw [decodeOnce_append h he, List.cons_prefix_cons] at hfront
      exact absurd (hfront.1 ▸ List.mem_cons_self) (ht e he)
  | copied c cs hnone ih =>
    cases t with
    | nil => exact List.nil_prefix
    | cons d t =>
      rw [decodeOnce_cons hnone, List.cons_prefix_cons] at hfront
      rw [List.cons_prefix_cons]
      exact ⟨hfront.1, ih (fun e he hmem => ht e he (List.mem_cons_of_mem d hmem)) hfront.2⟩

/-- A pass leaves no reference behind. -/
theorem not_infix_decodeOnce (h : Apart list) (he : e ∈ list) (cs : List Char) :
    ¬ e.1 <:+: decodeOnce list cs := by
  have hchars : ∀ f ∈ list, f.2 ∉ e.1 := fun f hf => h.chars f hf e he
  induction cs using reference_induction h with
  | nil =>
    obtain ⟨stem, hstem, -⟩ := h.exists_stem he
    rw [decodeOnce, List.infix_nil, hstem]
    exact List.cons_ne_nil _ _
  | reference f hf cs ih =>
    rw [decodeOnce_append h hf, List.infix_cons_iff, not_or]
    refine ⟨fun hfront => ?_, ih⟩
    obtain ⟨stem, hstem, -⟩ := h.exists_stem he
    have hmem := hchars f hf
    rw [hstem] at hfront hmem
    exact hmem ((List.cons_prefix_cons.mp hfront).1 ▸ List.mem_cons_self)
  | copied c cs hnone ih =>
    rw [decodeOnce_cons hnone, List.infix_cons_iff, not_or, ← decodeOnce_cons hnone]
    exact ⟨fun hfront => hnone e he (prefix_of_prefix_decodeOnce h hchars hfront), ih⟩

/-- A pass over a text without references copies it. -/
theorem decodeOnce_eq_self (h : ∀ e ∈ list, ¬ e.1 <:+: cs) : decodeOnce list cs = cs := by
  induction cs with
  | nil => rw [decodeOnce]
  | cons c cs ih =>
    rw [decodeOnce_cons fun e he hfront => h e he hfront.isInfix,
      ih fun e he hin => h e he (hin.trans (List.suffix_cons c cs).isInfix)]

/-- A pass does not look at the order of the references. -/
theorem decodeOnce_congr (h : Apart list) (hmem : ∀ e, e ∈ done ↔ e ∈ list) (cs : List Char) :
    decodeOnce done cs = decodeOnce list cs := by
  have hdone : Apart done := h.of_subset fun e he => (hmem e).mp he
  induction cs using reference_induction h with
  | nil => rw [decodeOnce, decodeOnce]
  | reference e he cs ih =>
    rw [decodeOnce_append h he, decodeOnce_append hdone ((hmem e).mpr he), ih]
  | copied c cs hnone ih =>
    rw [decodeOnce_cons hnone, decodeOnce_cons fun e he => hnone e ((hmem e).mp he), ih]

/-! ## One kind after another -/

/-- A reference of another kind is copied. -/
theorem decodeOnce_other (h : Apart (e :: done)) (he : e ∉ done) (cs : List Char) :
    decodeOnce done (e.1 ++ cs) = e.1 ++ decodeOnce done cs := by
  obtain ⟨stem, hstem, hamp⟩ := h.exists_stem List.mem_cons_self
  have hdone : Apart done := h.of_subset (List.subset_cons_self e done)
  have hcopied : ∀ q : List Char, '&' ∉ q →
      decodeOnce done (q ++ cs) = q ++ decodeOnce done cs := by
    intro q hq
    induction q with
    | nil => rfl
    | cons d q ih =>
      rw [List.mem_cons, not_or] at hq
      rw [List.cons_append, decodeOnce_cons, ih hq.2, List.cons_append]
      intro f hf hfront
      obtain ⟨other, hother, -⟩ := hdone.exists_stem hf
      rw [hother] at hfront
      exact hq.1 (List.cons_prefix_cons.mp hfront).1
  rw [hstem, List.cons_append, decodeOnce_cons, hcopied stem hamp, List.cons_append]
  intro f hf hfront
  refine he (h.eq_of_prefix List.mem_cons_self (List.mem_cons_of_mem e hf) ?_ hfront ▸ hf)
  rw [hstem]
  exact List.prefix_append _ _

/-- What one more kind of references becomes behind a pass it becomes in the pass. -/
theorem replaceAll_decodeOnce (h : Apart (e :: done)) (cs : List Char) :
    Text.replaceAll e.1 [e.2] (decodeOnce done cs) = decodeOnce (e :: done) cs := by
  obtain ⟨stem, hstem, -⟩ := h.exists_stem List.mem_cons_self
  have hne : e.1 ≠ [] := by
    rw [hstem]
    exact List.cons_ne_nil _ _
  have hdone : Apart done := h.of_subset (List.subset_cons_self e done)
  have hchars : ∀ f ∈ e :: done, f.2 ∉ e.1 := fun f hf => h.chars f hf e List.mem_cons_self
  induction cs using reference_induction h with
  | nil =>
    rw [decodeOnce, decodeOnce]
    rfl
  | reference f hf cs ih =>
    rw [decodeOnce_append h hf, ← ih]
    by_cases hmem : f ∈ done
    · rw [decodeOnce_append hdone hmem, Text.replaceAll_cons]
      rw [hstem]
      intro hfront
      have hnot := hchars f hf
      rw [hstem, ← (List.cons_prefix_cons.mp hfront).1] at hnot
      exact hnot List.mem_cons_self
    · obtain rfl : f = e := (List.mem_cons.mp hf).resolve_right hmem
      rw [decodeOnce_other h hmem, Text.replaceAll_append hne]
      rfl
  | copied c cs hnone ih =>
    have hrest : ∀ f ∈ done, ¬ f.1 <+: c :: cs := fun f hf => hnone f (List.mem_cons_of_mem e hf)
    rw [decodeOnce_cons hnone, decodeOnce_cons hrest, Text.replaceAll_cons, ih]
    -- A reference at the front of what the pass has left stood there before.
    rw [← decodeOnce_cons hrest]
    intro hfront
    refine hnone e List.mem_cons_self (prefix_of_prefix_decodeOnce hdone ?_ hfront)
    exact fun f hf => hchars f (List.mem_cons_of_mem e hf)

/-- Decoding one kind after another is one pass. -/
theorem decodeEach_eq_decodeOnce (h : Apart list) (cs : List Char) :
    decodeEach list cs = decodeOnce list cs := by
  induction list using List.reverseRecOn with
  | nil => exact (decodeOnce_eq_self (List.forall_mem_nil _)).symm
  | append_singleton init e ih =>
    have hmem : ∀ f, f ∈ e :: init ↔ f ∈ init ++ [e] := by
      intro f
      rw [List.mem_append, List.mem_singleton, List.mem_cons, or_comm]
    have hcons : Apart (e :: init) := h.of_subset fun f hf => (hmem f).mp hf
    have hstep : decodeEach (init ++ [e]) cs = Text.replaceAll e.1 [e.2] (decodeEach init cs) :=
      List.foldl_concat _ _ _ _
    rw [hstep, ih (h.of_subset (List.subset_append_left init [e])),
      replaceAll_decodeOnce hcons, decodeOnce_congr h hmem]

/-! ## The law -/

/-- The early return makes no difference. -/
theorem decodeEntities_eq (cs : List Char) : decodeEntities cs = decodeOnce entities cs := by
  unfold decodeEntities
  split
  · exact decodeEach_eq_decodeOnce apart_entities cs
  · rename_i hnot
    refine (decodeOnce_eq_self fun e he hin => hnot ?_).symm
    obtain ⟨stem, hstem, -⟩ := apart_entities.exists_stem he
    rw [List.contains_iff_mem]
    exact hin.subset (hstem ▸ List.mem_cons_self)

/-- Decoding the references of a text, with its early return, is one pass over the text from left to
right in which each reference is replaced by its character and all else is copied. Decoding one kind
after another gives the same in every order of the kinds. No reference is left, so nothing is
decoded twice. -/
theorem references_are_decoded_as_in_one_pass (cs : List Char) :
    decodeEntities cs = decodeOnce entities cs ∧
      (∀ order, order.Perm entities → decodeEach order cs = decodeEntities cs) ∧
      (∀ e ∈ entities, ¬ e.1 <:+: decodeEntities cs) ∧
      decodeEntities (decodeEntities cs) = decodeEntities cs := by
  have hleft : ∀ e ∈ entities, ¬ e.1 <:+: decodeEntities cs := by
    rw [decodeEntities_eq]
    exact fun e he => not_infix_decodeOnce apart_entities he cs
  refine ⟨decodeEntities_eq cs, fun order horder => ?_, hleft, decodeEntities_of_not_infix hleft⟩
  rw [decodeEach_eq_decodeOnce (apart_entities.of_subset horder.subset),
    decodeOnce_congr apart_entities fun _ => horder.mem_iff, decodeEntities_eq]

/-- References inside of others that are cut off or not decoded. -/
def tornReferences : List Char := "&amp;lt; &l&#39;t; &#x3A;&quot&gt; &&lt;".toList

theorem tornReferences_are_decoded_in_any_order :
    entities.reverse.Perm entities ∧
      decodeEach entities.reverse tornReferences = decodeEntities tornReferences ∧
      decodeEntities tornReferences = "&amp;lt; &l\x27t; :&quot> &<".toList := by
  have hperm : entities.reverse.Perm entities := List.reverse_perm entities
  obtain ⟨-, horder, -, -⟩ := references_are_decoded_as_in_one_pass tornReferences
  exact ⟨hperm, horder entities.reverse hperm, by decide⟩

end DocPages.HeaderText
