-- The description of a page. The head of the front matter holds entries of any
-- shape. Each one is looked at by itself: it gives a description, or it says
-- nothing and the search goes on.
import DocPages.Page.Metadata

namespace DocPages.Page

variable {entry : Json} {text : String} {entries front : List Json} {metadata : Fields}

/-! ## Entries -/

/-- The entry is a `meta` tag by the name of a description, with a text that is not empty. -/
def Describes (entry : Json) (text : String) : Prop :=
  ∃ attributes more, entry = .array (.string "meta" :: .object attributes :: more) ∧
    Fields.get? "name" attributes = some (.string "description") ∧
    Fields.get? "content" attributes = some (.string text) ∧ text ≠ ""

/-- The entry gives no description. -/
def Silent (entry : Json) : Prop := ∀ text, ¬ Describes entry text

theorem describes?_eq_some_iff : describes? entry = some text ↔ Describes entry text := by
  constructor
  · intro h
    unfold describes? at h
    split at h
    · rename_i tag attributes more
      split at h
      · rename_i name content hname hcontent
        split at h
        · rename_i hall
          simp only [Bool.and_eq_true, beq_iff_eq, Bool.not_eq_true', String.isEmpty_eq_false_iff]
            at hall
          obtain ⟨⟨rfl, rfl⟩, hne⟩ := hall
          cases h
          exact ⟨attributes, more, rfl, hname, hcontent, hne⟩
        · cases h
      · cases h
    · cases h
  · rintro ⟨attributes, more, rfl, hname, hcontent, hne⟩
    simp [describes?, hname, hcontent, hne]

theorem silent_iff : Silent entry ↔ describes? entry = none := by
  unfold Silent
  rw [Option.eq_none_iff_forall_ne_some]
  simp only [ne_eq, describes?_eq_some_iff]

/-! ## The head -/

theorem description_eq (h : metadata.get? "head" = some (.array entries)) :
    description metadata = (entries.findSome? describes?).getD "" := by
  simp [description, h, Json.array?]

/-- Entries that say nothing do not stop the search. -/
theorem findSome?_describes?_append (h : ∀ e ∈ front, Silent e) :
    (front ++ entries).findSome? describes? = entries.findSome? describes? := by
  have hfront : front.findSome? describes? = none :=
    List.findSome?_eq_none_iff.mpr fun e he => silent_iff.mp (h e he)
  rw [List.findSome?_append, hfront, Option.none_or]

/-- A description ends the search. -/
theorem findSome?_describes?_of_mem (hmem : entry ∈ entries) (h : ¬ Silent entry)
    (back : List Json) :
    (entries ++ back).findSome? describes? = entries.findSome? describes? := by
  rw [List.findSome?_append, Option.or_eq_left_of_isSome]
  rw [List.findSome?_isSome_iff]
  refine ⟨entry, hmem, ?_⟩
  rw [Option.isSome_iff_ne_none]
  exact fun hnone => h (silent_iff.mpr hnone)

/-- The description of a page is the text of the first entry of its head that gives one, and empty if
there is none. So entries that give none, of whatever shape, change nothing in front of the others,
and no entry does behind one that gives a description. -/
theorem the_first_description_of_the_head_counts (metadata : Fields) (entries : List Json)
    (h : metadata.get? "head" = some (.array entries)) :
    (∀ front entry back text, entries = front ++ entry :: back → (∀ e ∈ front, Silent e) →
        Describes entry text → description metadata = text) ∧
      ((∀ e ∈ entries, Silent e) → description metadata = "") ∧
      (∀ longer front, Fields.get? "head" longer = some (.array (front ++ entries)) →
        (∀ e ∈ front, Silent e) → description longer = description metadata) ∧
      ∀ longer back, Fields.get? "head" longer = some (.array (entries ++ back)) →
        (∃ e ∈ entries, ¬ Silent e) → description longer = description metadata := by
  refine ⟨?_, ?_, ?_, ?_⟩
  · rintro front entry back text rfl hfront hentry
    rw [description_eq h, findSome?_describes?_append hfront, List.findSome?_cons,
      describes?_eq_some_iff.mpr hentry, Option.getD_some]
  · intro hsilent
    have hnone : entries.findSome? describes? = none :=
      List.findSome?_eq_none_iff.mpr fun e he => silent_iff.mp (hsilent e he)
    rw [description_eq h, hnone]
    rfl
  · intro longer front hlonger hfront
    rw [description_eq hlonger, description_eq h, findSome?_describes?_append hfront]
  · rintro longer back hlonger ⟨entry, hmem, hentry⟩
    rw [description_eq hlonger, description_eq h, findSome?_describes?_of_mem hmem hentry]

/-- Entries that fail a condition each: no list, a list that is too short, other tags and attributes,
another name, and a text that is missing, empty or none. -/
def silentEntries : List Json :=
  [.string "garbage", .null, .array [], .array [.string "meta"], .array [.string "meta", .null],
    .array [.array [.string "meta"], .object [("content", .string "a"), ("name", .string "description")]],
    .array [.string "link", .object [("content", .string "a"), ("name", .string "description")]],
    .array [.string "meta", .object [("content", .string "a"), ("name", .string "author")]],
    .array [.string "meta", .object [("content", .string "a")]],
    .array [.string "meta", .object [("name", .string "description")]],
    .array [.string "meta", .object [("content", .string ""), ("name", .string "description")]],
    .array [.string "meta", .object [("content", .array [.string "a"]), ("name", .string "description")]]]

/-- A tag that gives a description, with more behind its attributes than is looked at. -/
def describing (text : String) : Json :=
  .array [.string "meta", .object [("content", .string text), ("name", .string "description")], .null]

theorem describes_describing (h : text ≠ "") : Describes (describing text) text :=
  ⟨_, _, rfl, rfl, rfl, h⟩

theorem silent_silentEntries : ∀ e ∈ silentEntries, Silent e := by
  simp [silentEntries, silent_iff, describes?, Fields.get?]

/-- Front matter with these entries in its head. -/
def headed (entries : List Json) : Fields := [("head", .array entries)]

/-- The search passes over all of these entries, and a second description behind the first one is not
reached. -/
theorem silentEntries_are_passed_over :
    description (headed (silentEntries ++ [describing "first"])) = "first" ∧
      description (headed (silentEntries ++ [describing "first"])) =
        description (headed [describing "first"]) ∧
      description (headed (silentEntries ++ [describing "first"] ++ [describing "second"])) =
        "first" := by
  have hdescribes : Describes (describing "first") "first" := describes_describing (by decide)
  have hspeaks : ∃ e ∈ silentEntries ++ [describing "first"], ¬ Silent e :=
    ⟨_, List.mem_append_right _ List.mem_cons_self, fun h => h _ hdescribes⟩
  obtain ⟨hfirst, -, -, hback⟩ :=
    the_first_description_of_the_head_counts (headed (silentEntries ++ [describing "first"])) _ rfl
  obtain ⟨-, -, hfront, -⟩ :=
    the_first_description_of_the_head_counts (headed [describing "first"]) _ rfl
  have htext := hfirst silentEntries _ _ _ rfl silent_silentEntries hdescribes
  refine ⟨htext, hfront _ silentEntries rfl silent_silentEntries, ?_⟩
  rw [hback _ [describing "second"] rfl hspeaks, htext]

end DocPages.Page
