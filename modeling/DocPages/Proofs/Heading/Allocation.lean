-- Requests to one slugger. The number that is remembered for a slug only saves
-- work: all numbers up to it are taken, so the search that starts behind it
-- finds what an allocator finds that knows nothing but the slugs given out.
import DocPages.Proofs.Heading.Distinct
import Mathlib.Data.Finset.Insert
import Mathlib.Data.Set.Finite.Basic

namespace DocPages.Heading

/-! ## Requests -/

/-- A request for an anchor: for one made from a heading text, or for the author's own. -/
inductive Request where
  | next (text : String)
  | claim (slug : String)
  deriving DecidableEq

/-- The slug that is asked for. -/
def Request.slug : Request → String
  | .next text => slugify text
  | .claim slug => slug

/-- The answer to a request, and the slugger behind it. -/
def Slugger.answer (s : Slugger) : Request → String × Slugger
  | .next text => s.next text
  | .claim slug => s.claim slug

/-- The answers to requests in a row. -/
def Slugger.answers (s : Slugger) : List Request → List String
  | [] => []
  | r :: rest => (s.answer r).1 :: (s.answer r).2.answers rest

/-- The slugger behind requests in a row. -/
def Slugger.after (s : Slugger) (requests : List Request) : Slugger :=
  requests.foldl (fun s r => (s.answer r).2) s

theorem Slugger.answer_eq (s : Slugger) (r : Request) : s.answer r = s.claim r.slug := by
  cases r <;> rfl

/-! ## The plain allocator -/

theorem exists_free_number (given : Finset String) (slug : String) :
    ∃ n, 1 ≤ n ∧ Slugger.numbered slug n ∉ given := by
  have hinj : Function.Injective fun n => Slugger.numbered slug (n + 1) :=
    fun _ _ h => Nat.succ.inj (Slugger.numbered_inj h)
  obtain ⟨x, ⟨n, rfl⟩, hfree⟩ := (Set.infinite_range_of_injective hinj).exists_notMem_finset given
  exact ⟨n + 1, Nat.le_add_left 1 n, hfree⟩

/-- The least number, from one on, that is free behind a slug. -/
def leastFree (given : Finset String) (slug : String) : Nat :=
  Nat.find (exists_free_number given slug)

/-- The slug that an allocator gives that keeps only the slugs given out: the one asked for if it is
free, and else that one with the least free number. -/
def plainSlug (given : Finset String) (slug : String) : String :=
  if slug ∈ given then Slugger.numbered slug (leastFree given slug) else slug

/-- The slugs that it gives in a row. -/
def plainSlugs (given : Finset String) : List String → List String
  | [] => []
  | slug :: rest => plainSlug given slug :: plainSlugs (insert (plainSlug given slug) given) rest

theorem plainSlug_free (given : Finset String) (slug : String) : plainSlug given slug ∉ given := by
  unfold plainSlug
  split
  · exact (Nat.find_spec (exists_free_number given slug)).2
  · assumption

theorem plainSlugs_distinct (given : Finset String) (slugs : List String) :
    (plainSlugs given slugs).Nodup ∧ ∀ x ∈ plainSlugs given slugs, x ∉ given := by
  induction slugs generalizing given with
  | nil => exact ⟨List.nodup_nil, List.forall_mem_nil _⟩
  | cons slug rest ih =>
    obtain ⟨hnodup, hfree⟩ := ih (insert (plainSlug given slug) given)
    refine ⟨List.nodup_cons.mpr ⟨fun hmem => ?_, hnodup⟩, List.forall_mem_cons.mpr ⟨?_, ?_⟩⟩
    · exact hfree _ hmem (Finset.mem_insert_self _ _)
    · exact plainSlug_free given slug
    · exact fun x hx hgiven => hfree x hx (Finset.mem_insert_of_mem hgiven)

/-- A number is the least free one if it is free and all below it are taken. -/
theorem eq_leastFree {given : Finset String} {slug : String} {n : Nat} (hpos : 1 ≤ n)
    (hfree : Slugger.numbered slug n ∉ given)
    (hpassed : ∀ m, 1 ≤ m → m < n → Slugger.numbered slug m ∈ given) :
    n = leastFree given slug := by
  refine ((Nat.find_eq_iff (exists_free_number given slug)).mpr ⟨⟨hpos, hfree⟩, ?_⟩).symm
  rintro m hlt ⟨hm, hnot⟩
  exact hnot (hpassed m hm hlt)

theorem leastFree_passed {given : Finset String} {slug : String} {n : Nat} (hpos : 1 ≤ n)
    (hn : n < leastFree given slug) : Slugger.numbered slug n ∈ given := by
  by_contra hfree
  exact Nat.find_min (exists_free_number given slug) hn ⟨hpos, hfree⟩

namespace Slugger

variable {s : Slugger} {given : Finset String}

/-! ## The remembered numbers -/

theorem lastNumber?_set (s : Slugger) (slug : String) (number : Nat) (x : String) :
    (s.set slug number).lastNumber? x = if x = slug then some number else s.lastNumber? x := by
  unfold lastNumber? set
  rw [List.find?_cons]
  by_cases h : x = slug
  · rw [if_pos h, beq_iff_eq.mpr h.symm]
    rfl
  · have hsame : (fun t : String × Nat => decide ((t.1 != slug) = true ∧ (t.1 == x) = true)) =
        fun t => t.1 == x := by
      funext t
      by_cases ht : t.1 = x
      · simp [ht, h]
      · simp [ht]
    rw [if_neg h, beq_false_of_ne (Ne.symm h), List.find?_filter, hsame]

/-- The search passes over taken numbers only. -/
theorem freeFrom_passed (s : Slugger) (slug : String) (tries number n : Nat) (hlow : number ≤ n)
    (hn : n < s.freeFrom slug tries number) : numbered slug n ∈ s.keys := by
  induction tries generalizing number with
  | zero =>
    rw [freeFrom] at hn
    omega
  | succ tries ih =>
    rw [freeFrom] at hn
    split at hn
    · rename_i htaken
      rcases hlow.eq_or_lt with rfl | hlt
      · exact (s.contains_iff _).mp htaken
      · exact ih (number + 1) hlt hn
    · omega

theorem le_freeFrom (s : Slugger) (slug : String) (tries number : Nat) :
    number ≤ s.freeFrom slug tries number := by
  induction tries generalizing number with
  | zero => rw [freeFrom]
  | succ tries ih =>
    rw [freeFrom]
    split
    · exact (Nat.le_succ number).trans (ih (number + 1))
    · exact Nat.le_refl number

/-- What a slugger has taken is what has been given out, and no number up to a remembered one is
free. -/
structure Keeps (s : Slugger) (given : Finset String) : Prop where
  keys : ∀ x, x ∈ s.keys ↔ x ∈ given
  passed : ∀ slug last, s.lastNumber? slug = some last →
    ∀ n, 1 ≤ n → n ≤ last → numbered slug n ∈ given

theorem keeps_empty : Keeps .empty ∅ :=
  ⟨fun _ => iff_of_false List.not_mem_nil (Finset.notMem_empty _), fun _ _ h => by cases h⟩

/-- However many tries above the number of taken slugs it has, the search ends at the least free
number. -/
theorem Keeps.freeFrom_eq (h : s.Keeps given) {slug : String} {last tries : Nat}
    (hlast : s.lastNumber? slug = some last) (htries : s.taken.length ≤ tries) :
    s.freeFrom slug tries (last + 1) = leastFree given slug := by
  refine eq_leastFree ((Nat.le_add_left 1 last).trans (s.le_freeFrom slug tries _)) ?_ ?_
  · obtain ⟨n, hlow, hhigh, hfree⟩ := s.exists_free slug (last + 1)
    rw [← h.keys]
    exact freeFrom_free ⟨n, hlow, by omega, hfree⟩
  · intro n hpos hn
    by_cases hle : n ≤ last
    · exact h.passed slug last hlast n hpos hle
    · rw [← h.keys]
      exact s.freeFrom_passed slug tries (last + 1) n (by omega) hn

/-- A claim is answered as the plain allocator answers it, and keeps to what has been given out. -/
theorem Keeps.claim (h : s.Keeps given) (slug : String) :
    (s.claim slug).1 = plainSlug given slug ∧
      (s.claim slug).2.Keeps (insert (plainSlug given slug) given) := by
  have htaken : slug ∈ given ↔ (s.lastNumber? slug).isSome = true := by
    rw [← h.keys, ← contains_iff]
    rfl
  unfold Slugger.claim plainSlug
  split
  · rename_i hnone
    rw [hnone, Option.isSome_none] at htaken
    rw [if_neg (by simp [htaken])]
    refine ⟨rfl, fun x => ?_, fun x last hlast n hpos hle => ?_⟩
    · rw [mem_keys_set, Finset.mem_insert, h.keys]
    · rw [lastNumber?_set] at hlast
      split at hlast
      · cases hlast
        omega
      · exact Finset.mem_insert_of_mem (h.passed x last hlast n hpos hle)
  · rename_i last hlast
    rw [hlast, Option.isSome_some] at htaken
    have hgiven : slug ∈ given := htaken.mpr rfl
    rw [if_pos hgiven, h.freeFrom_eq hlast le_rfl]
    refine ⟨rfl, fun x => ?_, fun x number hnumber n hpos hle => ?_⟩
    · rw [mem_keys_set, mem_keys_set, Finset.mem_insert, h.keys]
      exact or_congr_right (or_iff_right_of_imp fun hx => hx ▸ hgiven)
    · rw [lastNumber?_set, lastNumber?_set] at hnumber
      split at hnumber
      · cases hnumber
        omega
      · split at hnumber
        · -- The number that is remembered now is the one that has just been given.
          rename_i hx
          cases hnumber
          subst hx
          rcases hle.lt_or_eq with hlt | rfl
          · exact Finset.mem_insert_of_mem (leastFree_passed hpos hlt)
          · exact Finset.mem_insert_self _ _
        · exact Finset.mem_insert_of_mem (h.passed x number hnumber n hpos hle)

/-! ## Requests in a row -/

theorem Keeps.answers_eq (h : s.Keeps given) (requests : List Request) :
    s.answers requests = plainSlugs given (requests.map Request.slug) := by
  induction requests generalizing s given with
  | nil => rfl
  | cons r rest ih =>
    obtain ⟨hslug, hkeeps⟩ := h.claim r.slug
    rw [answers, List.map_cons, plainSlugs, answer_eq, hslug, ih hkeeps]

theorem Keeps.after (h : s.Keeps given) (requests : List Request) :
    (s.after requests).Keeps (given ∪ (s.answers requests).toFinset) := by
  induction requests generalizing s given with
  | nil => simpa [Slugger.after, answers] using h
  | cons r rest ih =>
    obtain ⟨hslug, hkeeps⟩ := h.claim r.slug
    have hrest := ih hkeeps
    rw [Slugger.after, List.foldl_cons, answers, List.toFinset_cons, answer_eq, hslug,
      Finset.union_insert, ← Finset.insert_union]
    exact hrest

end Slugger

/-- Requests to one slugger are answered with distinct slugs, the same as by an allocator that keeps
only the slugs given out. Behind them no number up to a remembered one is free, and the search
behind it ends at the least number that is free, with any number of tries from that of the taken
slugs on. -/
theorem requests_are_answered_as_by_the_plain_allocator (requests : List Request) :
    Slugger.empty.answers requests = plainSlugs ∅ (requests.map Request.slug) ∧
      (Slugger.empty.answers requests).Nodup ∧
      ∀ s given, s = Slugger.empty.after requests →
        given = (Slugger.empty.answers requests).toFinset →
        s.Keeps given ∧
          ∀ slug last tries, s.lastNumber? slug = some last → s.taken.length ≤ tries →
            s.freeFrom slug tries (last + 1) = leastFree given slug := by
  have hanswers := Slugger.keeps_empty.answers_eq requests
  refine ⟨hanswers, ?_, ?_⟩
  · rw [hanswers]
    exact (plainSlugs_distinct ∅ _).1
  · rintro s given rfl rfl
    have hkeeps := Slugger.keeps_empty.after requests
    rw [Finset.empty_union] at hkeeps
    exact ⟨hkeeps, fun slug last tries hlast htries => hkeeps.freeFrom_eq hlast htries⟩

example : Slugger.empty.answers [.claim "a-1", .next "A", .next "a", .claim "a-1", .claim "a-2"] =
    ["a-1", "a", "a-2", "a-1-1", "a-2-1"] := by decide +kernel

end DocPages.Heading
