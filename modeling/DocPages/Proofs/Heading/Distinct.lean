-- No anchor is given twice. A slug that is given out is one that was free,
-- and it is taken from then on. The search for a free number cannot run out:
-- as many numbers are tried as slugs are taken, and one of them is free.
import DocPages.Proofs.Heading.Entries
import Mathlib.Data.List.Nodup
import Std.Data.String.ToNat

namespace DocPages.Heading

namespace Slugger

/-! ## What is taken -/

/-- The slugs that are taken. -/
def keys (s : Slugger) : List String := s.taken.map (·.1)

theorem contains_iff (s : Slugger) (slug : String) : s.contains slug = true ↔ slug ∈ s.keys := by
  unfold contains lastNumber? keys
  rw [Option.isSome_map, List.find?_isSome, List.mem_map]
  simp only [beq_iff_eq]

theorem mem_keys_set (s : Slugger) (slug : String) (number : Nat) (x : String) :
    x ∈ (s.set slug number).keys ↔ x = slug ∨ x ∈ s.keys := by
  unfold set keys
  simp only [List.map_cons, List.mem_cons, List.mem_map, List.mem_filter, bne_iff_ne]
  constructor
  · rintro (rfl | ⟨t, ⟨ht, -⟩, rfl⟩)
    · exact .inl rfl
    · exact .inr ⟨t, ht, rfl⟩
  · rintro (rfl | ⟨t, ht, rfl⟩)
    · exact .inl rfl
    · by_cases h : t.1 = slug
      · exact .inl h
      · exact .inr ⟨t, ⟨ht, h⟩, rfl⟩

/-! ## Free numbers -/

theorem numbered_inj {slug : String} {m n : Nat} (h : numbered slug m = numbered slug n) :
    m = n := by
  unfold numbered at h
  rw [String.append_right_inj] at h
  exact Nat.repr_injective h

/-- Of more numbers in a row than there are slugs taken, one is free. -/
theorem exists_free (s : Slugger) (slug : String) (number : Nat) :
    ∃ n, number ≤ n ∧ n ≤ number + s.taken.length ∧ numbered slug n ∉ s.keys := by
  by_contra hall
  push Not at hall
  have hnodup : ((List.range' number (s.taken.length + 1)).map (numbered slug)).Nodup :=
    List.Nodup.map (fun _ _ h => numbered_inj h) List.nodup_range'
  have hsubset : (List.range' number (s.taken.length + 1)).map (numbered slug) ⊆ s.keys := by
    intro x hx
    obtain ⟨n, hn, rfl⟩ := List.mem_map.mp hx
    rw [List.mem_range'_1] at hn
    exact hall n hn.1 (by omega)
  have hlength := hnodup.length_le_of_subset hsubset
  rw [List.length_map, List.length_range', keys, List.length_map] at hlength
  omega

/-- The search ends at a free number if it passes one. -/
theorem freeFrom_free {s : Slugger} {slug : String} {tries number : Nat}
    (h : ∃ n, number ≤ n ∧ n ≤ number + tries ∧ numbered slug n ∉ s.keys) :
    numbered slug (s.freeFrom slug tries number) ∉ s.keys := by
  induction tries generalizing number with
  | zero =>
    obtain ⟨n, hlow, hhigh, hfree⟩ := h
    have hn : n = number := by omega
    rw [freeFrom, ← hn]
    exact hfree
  | succ tries ih =>
    obtain ⟨n, hlow, hhigh, hfree⟩ := h
    rw [freeFrom]
    split
    · rename_i htaken
      rw [contains_iff] at htaken
      have hne : n ≠ number := by
        rintro rfl
        exact hfree htaken
      exact ih ⟨n, by omega, by omega, hfree⟩
    · rename_i hopen
      rw [contains_iff] at hopen
      exact hopen

/-! ## Claims -/

/-- A claim gives a slug that was free. -/
theorem claim_free (s : Slugger) (slug : String) : (s.claim slug).1 ∉ s.keys := by
  unfold claim
  split
  · rename_i hnone
    intro hmem
    rw [← contains_iff, contains, hnone] at hmem
    cases hmem
  · exact freeFrom_free (exists_free s slug _)

/-- Behind a claim the slug that it gave is taken, and so are those from before. -/
theorem mem_keys_claim (s : Slugger) (slug x : String)
    (h : x = (s.claim slug).1 ∨ x ∈ s.keys) : x ∈ (s.claim slug).2.keys := by
  unfold claim at h ⊢
  split at h
  · rw [mem_keys_set]
    exact h
  · rw [mem_keys_set, mem_keys_set]
    rcases h with h | h
    · exact .inl h
    · exact .inr (.inr h)

/-- A heading text gets a slug that was free. -/
theorem named_free (s : Slugger) (text : String) : (s.named text).2.1 ∉ s.keys := by
  unfold named
  split
  · exact claim_free s _
  · exact claim_free s _

theorem mem_keys_named (s : Slugger) (text x : String)
    (h : x = (s.named text).2.1 ∨ x ∈ s.keys) : x ∈ (s.named text).2.2.keys := by
  unfold named at h ⊢
  split at h
  · exact mem_keys_claim s _ x h
  · exact mem_keys_claim s _ x h

end Slugger

/-! ## Anchors of a page -/

/-- Headings get slugs that were free when their page began, and no two get the same. -/
theorem headersFrom_distinct (s : Slugger) (list : List Entry) :
    ((headersFrom s list).map Header.slug).Nodup ∧
      ∀ h ∈ headersFrom s list, h.slug ∉ s.keys := by
  induction list generalizing s with
  | nil => exact ⟨List.nodup_nil, fun h hh => by cases hh⟩
  | cons e rest ih =>
    cases e with
    | heading level text =>
      obtain ⟨hnodup, hfree⟩ := ih (s.named text).2.2
      refine ⟨List.nodup_cons.mpr ⟨?_, hnodup⟩, ?_⟩
      · intro hmem
        obtain ⟨h, hh, heq⟩ := List.mem_map.mp hmem
        exact hfree h hh (heq ▸ s.mem_keys_named text _ (.inl rfl))
      · intro h hh
        rcases List.mem_cons.mp hh with rfl | hh
        · exact s.named_free text
        · intro hmem
          exact hfree h hh (s.mem_keys_named text _ (.inr hmem))
    | text text => exact ih s
    | bareTag => exact ih s

/-- The anchors of the headings of a page are distinct. -/
theorem outline_slugs_nodup (root : Markdown.Node) :
    ((outline root).headers.map Header.slug).Nodup := by
  rw [outline_eq, ofEntries_eq]
  exact (headersFrom_distinct .empty _).1

end DocPages.Heading
