-- Escaped markup. Escaping looks for a pair first, and hands markup without one
-- back; what it gives is in any case the markup with its pairs broken, so the
-- look ahead of the loop and the early return are told apart by nothing.
import DocPages.Proofs.Text.Breaks
import DocPages.Proofs.Text.Search

namespace DocPages.TemplateTokens

variable {cs w front : List Char}

theorem hasPair_eq_false_iff : hasPair cs = false ↔ Tokenless cs := by
  unfold hasPair Tokenless tokens
  rw [Bool.or_eq_false_iff, Text.contains_eq_false_iff, Text.contains_eq_false_iff,
    List.forall_mem_cons, List.forall_mem_singleton]

/-- A text without tokens has no pair to be broken. -/
theorem Tokenless.breakPairs_eq (h : Tokenless cs) : breakPairs cs = cs := by
  rw [tokenless_iff] at h
  induction cs with
  | nil => rfl
  | cons c cs ih =>
    obtain ⟨hfirst, hrest⟩ := List.isChain_cons.mp h
    rw [breakPairs_cons hfirst, ih hrest]

theorem breakPairs_eq_self_iff : breakPairs cs = cs ↔ Tokenless cs := by
  refine ⟨fun h => ?_, Tokenless.breakPairs_eq⟩
  rw [← h]
  exact tokenless_breakPairs cs

/-- What the loop would give is what is handed back where the loop does not run. -/
theorem escape_eq (html : String) : escape html = String.ofList (breakPairs html.toList) := by
  unfold escape
  split
  · rfl
  · rename_i hpair
    rw [Bool.not_eq_true, hasPair_eq_false_iff] at hpair
    rw [hpair.breakPairs_eq, String.ofList_toList]

@[simp]
theorem toList_escape (html : String) : (escape html).toList = breakPairs html.toList := by
  rw [escape_eq, String.toList_ofList]

theorem escape_eq_self_iff {html : String} : escape html = html ↔ Tokenless html.toList := by
  rw [← breakPairs_eq_self_iff, ← toList_escape, String.toList_inj]

/-- Broken markup is cut at a text without braces where the markup itself is cut, if the text is no
part of a break. -/
theorem cutAt_breakPairs (hw : Plain w) (hmark : ¬ w <:+: breakMark)
    (h : Text.CutAt w cs front) : Text.CutAt w (breakPairs cs) (breakPairs front) := by
  rcases h with ⟨⟨back, hsplit⟩, hfirst⟩ | ⟨hnone, rfl⟩
  · refine Or.inl ⟨⟨breakPairs back, ?_⟩, fun a b hab => ?_⟩
    · exact (breakPairs_eq_append_iff hw hmark).mpr ⟨front, back, hsplit, rfl, rfl⟩
    · obtain ⟨a, b, ha, rfl, rfl⟩ := (breakPairs_eq_append_iff hw hmark).mp hab
      have hprefix : front <+: a := List.prefix_of_prefix_length_le
        (hsplit ▸ List.prefix_append _ _) (ha ▸ List.prefix_append _ _) (hfirst a b ha)
      obtain ⟨more, rfl⟩ := hprefix
      exact length_breakPairs_le_append front more
  · refine Or.inr ⟨?_, rfl⟩
    rintro ⟨a, b, hab⟩
    rw [List.append_assoc] at hab
    obtain ⟨a, b, rfl, -, -⟩ := (breakPairs_eq_append_iff hw hmark).mp hab.symm
    exact hnone ⟨a, b, List.append_assoc _ _ _⟩

/-! ## The law -/

/-- Escaped markup holds no token, and escaping it again changes nothing. Markup stays as it is if
and only if it holds no token. However markup is cut in two, its halves are escaped one by one, and a
break is put between them if and only if they meet in a pair. Where no pair is found, and the loop
does not run, it would have given the same. -/
theorem escaping_breaks_each_pair_and_nothing_else (html : String) :
    Tokenless (escape html).toList ∧
      escape (escape html) = escape html ∧
      (escape html = html ↔ Tokenless html.toList) ∧
      (∀ a b : String, html = a ++ b → escape html =
        escape a ++ (if MeetInPair a.toList b.toList then "<wbr>" else "") ++ escape b) ∧
      escape html = String.ofList (breakPairs html.toList) ∧
      (hasPair html.toList = false → String.ofList (breakPairs html.toList) = html) := by
  have htokenless : Tokenless (escape html).toList := by
    rw [toList_escape]
    exact tokenless_breakPairs _
  refine ⟨htokenless, escape_eq_self_iff.mpr htokenless, escape_eq_self_iff, ?_, escape_eq html, ?_⟩
  · rintro a b rfl
    have hjoint : (if MeetInPair a.toList b.toList then "<wbr>" else "").toList =
        joint a.toList b.toList := by
      unfold joint
      split <;> rfl
    rw [← String.toList_inj]
    simp only [String.toList_append, toList_escape, hjoint, breakPairs_append_eq,
      List.append_assoc]
  · intro hpair
    rw [← escape_eq]
    exact escape_eq_self_iff.mpr (hasPair_eq_false_iff.mp hpair)

end DocPages.TemplateTokens
