-- Brackets among the tokens. What is read of a node opens and closes the same brackets, so tokens
-- that leave a bracket open spell no text.
import DocPages.Proofs.Yaml.Places
import DocPages.Yaml.Node

namespace DocPages.Yaml

variable {ts rest back used : List Token} {t : Token} {fuel : Nat}

/-! ## Depth -/

/-- How many brackets are open behind a token, from how many are in front of it. -/
def Token.deepen : Token → Nat → Nat
  | .openList, d => d + 1
  | .openMap, d => d + 1
  | .closeList, d => d - 1
  | .closeMap, d => d - 1
  | _, d => d

/-- How many brackets are open behind tokens, from how many are in front of them. -/
def deepened (ts : List Token) (d : Nat) : Nat := ts.foldl (fun d t => t.deepen d) d

/-- A token that is no bracket. -/
def Token.Flat (t : Token) : Prop := ∀ d, t.deepen d = d

/-- Tokens that close the brackets that they open, and no others. -/
def Level (ts : List Token) : Prop := ∀ d, deepened ts d = d

theorem deepened_append (ts back : List Token) (d : Nat) :
    deepened (ts ++ back) d = deepened back (deepened ts d) := List.foldl_append

theorem deepened_cons (t : Token) (ts : List Token) (d : Nat) :
    deepened (t :: ts) d = deepened ts (t.deepen d) := rfl

theorem Level.append (h : Level ts) (hback : Level back) : Level (ts ++ back) := by
  intro d
  rw [deepened_append, h, hback]

theorem Level.cons (ht : t.Flat) (h : Level ts) : Level (t :: ts) := by
  intro d
  rw [deepened_cons, ht, h]

theorem level_nil : Level [] := fun _ => rfl

theorem level_of_forall (h : ∀ t ∈ ts, t.Flat) : Level ts := by
  induction ts with
  | nil => exact level_nil
  | cons t ts ih =>
    rw [List.forall_mem_cons] at h
    exact .cons h.1 (ih h.2)

/-! ## Reading -/

/-- What has been read in front of `rest` closes the brackets that it opens. -/
def Reads (ts rest : List Token) : Prop := ∃ used, ts = used ++ rest ∧ Level used

namespace Reads

theorem refl (ts : List Token) : Reads ts ts := ⟨[], rfl, level_nil⟩

theorem trans (h : Reads ts rest) (hrest : Reads rest back) : Reads ts back := by
  obtain ⟨used, rfl, hused⟩ := h
  obtain ⟨more, rfl, hmore⟩ := hrest
  exact ⟨used ++ more, (List.append_assoc _ _ _).symm, hused.append hmore⟩

/-- One more token in front, if it is no bracket. -/
theorem cons (ht : t.Flat) (h : Reads ts rest) : Reads (t :: ts) rest := by
  obtain ⟨used, rfl, hused⟩ := h
  exact ⟨t :: used, rfl, hused.cons ht⟩

/-- Square brackets around what has been read. -/
theorem list (h : Reads ts (.closeList :: rest)) : Reads (.openList :: ts) rest := by
  obtain ⟨used, rfl, hused⟩ := h
  refine ⟨.openList :: used ++ [.closeList], by simp, fun d => ?_⟩
  rw [List.cons_append, deepened_cons, deepened_append, hused]
  rfl

/-- Braces around what has been read. -/
theorem map (h : Reads ts (.closeMap :: rest)) : Reads (.openMap :: ts) rest := by
  obtain ⟨used, rfl, hused⟩ := h
  refine ⟨.openMap :: used ++ [.closeMap], by simp, fun d => ?_⟩
  rw [List.cons_append, deepened_cons, deepened_append, hused]
  rfl

end Reads

theorem reads_takeName (ts : List Token) : Reads ts (takeName ts).2 := by
  unfold takeName
  split
  · exact .cons (fun _ => rfl) (.refl _)
  · exact .refl _

theorem reads_takeTag (ts : List Token) : Reads ts (takeTag ts).2 := by
  unfold takeTag
  split
  · exact .cons (fun _ => rfl) (.refl _)
  · exact .refl _

variable {handles : Handles}

theorem reads_takeMarks? {marks : Marks} (h : takeMarks? handles ts = some (marks, rest)) :
    Reads ts rest := by
  have htag := (reads_takeName ts).trans (reads_takeTag (takeName ts).2)
  have hname : Reads ts (if (takeName ts).1.isSome then
      ((takeName ts).1, (takeTag (takeName ts).2).2)
    else takeName (takeTag (takeName ts).2).2).2 := by
    split
    · exact htag
    · exact htag.trans (reads_takeName _)
  unfold takeMarks? at h
  simp only [Option.bind_eq_bind] at h
  split at h
  · cases h
    exact hname
  · rw [Option.bind_eq_some_iff] at h
    obtain ⟨full, -, h⟩ := h
    cases h
    exact hname

theorem starts_singleton (h : starts [t] ts = true) : ts = t :: ts.drop 1 := by
  cases ts with
  | nil => cases h
  | cons u ts =>
    simp only [starts, List.head?_cons, Option.any_some, List.contains_iff_mem,
      List.mem_singleton] at h
    rw [h]
    rfl

/-- The node behind its marks. -/
def unmarked? (handles : Handles) (inBlock dashes : Bool) (fuel : Nat) (marks : Marks) :
    List Token → Option (Node × List Token)
  | .scalar plain text :: ts => some (.scalar marks plain text, ts)
  | .openList :: ts =>
    (listItems? handles fuel true [] ts).map fun r => (.sequence marks r.1, r.2)
  | .openMap :: ts => (mapEntries? handles fuel true [] ts).map fun r => (.mapping marks r.1, r.2)
  | ts =>
    if dashes && starts [.entry] ts then
      (dashItems? handles fuel [] ts).map fun r => (.sequence marks r.1, r.2)
    else if inBlock && starts [.sequenceBlock] ts then
      (blockItems? handles fuel [] (ts.drop 1)).map fun r => (.sequence marks r.1, r.2)
    else if inBlock && starts [.mappingBlock] ts then
      (blockEntries? handles fuel [] (ts.drop 1)).map fun r => (.mapping marks r.1, r.2)
    else if marks == .none then none
    else some (.absent marks, ts)

theorem node?_eq (handles : Handles) (inBlock dashes : Bool) (fuel : Nat)
    (h : ∀ name rest, ts ≠ .alias name :: rest) :
    node? handles inBlock dashes (fuel + 1) ts =
      (takeMarks? handles ts).bind fun r => unmarked? handles inBlock dashes fuel r.1 r.2 := by
  unfold node? unmarked?
  split
  · exact absurd rfl (h _ _)
  · cases takeMarks? handles ts <;> rfl

/-- What every reader of nodes leaves behind, with so much fuel. Readers of lists and maps between
brackets stop behind the closing one. -/
structure ReadsLevel (handles : Handles) (fuel : Nat) : Prop where
  node {inBlock dashes ts n rest} :
    node? handles inBlock dashes fuel ts = some (n, rest) → Reads ts rest
  nodeOr {inBlock dashes ends ts n rest} :
    nodeOr? handles inBlock dashes ends fuel ts = some (n, rest) → Reads ts rest
  blockItems {done ts ns rest} :
    blockItems? handles fuel done ts = some (ns, rest) → Reads ts rest
  dashItems {done ts ns rest} :
    dashItems? handles fuel done ts = some (ns, rest) → Reads ts rest
  blockValue {ts n rest} : blockValue? handles fuel ts = some (n, rest) → Reads ts rest
  blockEntries {done ts ns rest} :
    blockEntries? handles fuel done ts = some (ns, rest) → Reads ts rest
  flowValue {ends ts n rest} : flowValue? handles ends fuel ts = some (n, rest) → Reads ts rest
  listItem {ts n rest} : listItem? handles fuel ts = some (n, rest) → Reads ts rest
  listItems {first done ts ns rest} :
    listItems? handles fuel first done ts = some (ns, rest) → Reads ts (.closeList :: rest)
  mapEntry {ts n rest} : mapEntry? handles fuel ts = some (n, rest) → Reads ts rest
  mapEntries {first done ts ns rest} :
    mapEntries? handles fuel first done ts = some (ns, rest) → Reads ts (.closeMap :: rest)

section Readers

variable {inBlock dashes first : Bool} {ends : List Token} {n : Node} {ns done : List Node}
  {entry : Node × Node} {es known : List (Node × Node)}

theorem ReadsLevel.unmarked {marks : Marks} (ih : ReadsLevel handles fuel)
    (h : unmarked? handles inBlock dashes fuel marks ts = some (n, rest)) : Reads ts rest := by
  unfold unmarked? at h
  split at h
  · cases h
    exact .cons (fun _ => rfl) (.refl _)
  · obtain ⟨r, hr, h⟩ := Option.map_eq_some_iff.mp h
    cases h
    exact .list (ih.listItems hr)
  · obtain ⟨r, hr, h⟩ := Option.map_eq_some_iff.mp h
    cases h
    exact .map (ih.mapEntries hr)
  split at h
  · obtain ⟨r, hr, h⟩ := Option.map_eq_some_iff.mp h
    cases h
    exact ih.dashItems hr
  split at h
  · rename_i hstarts
    rw [Bool.and_eq_true] at hstarts
    obtain ⟨r, hr, h⟩ := Option.map_eq_some_iff.mp h
    cases h
    rw [starts_singleton hstarts.2]
    exact .cons (fun _ => rfl) (ih.blockItems hr)
  split at h
  · rename_i hstarts
    rw [Bool.and_eq_true] at hstarts
    obtain ⟨r, hr, h⟩ := Option.map_eq_some_iff.mp h
    cases h
    rw [starts_singleton hstarts.2]
    exact .cons (fun _ => rfl) (ih.blockEntries hr)
  split at h
  · cases h
  · cases h
    exact .refl _

theorem ReadsLevel.node_succ (ih : ReadsLevel handles fuel)
    (h : node? handles inBlock dashes (fuel + 1) ts = some (n, rest)) : Reads ts rest := by
  by_cases halias : ∃ name behind, ts = .alias name :: behind
  · obtain ⟨name, behind, rfl⟩ := halias
    cases h
    exact .cons (fun _ => rfl) (.refl _)
  · rw [node?_eq _ _ _ _ fun name behind hts => halias ⟨name, behind, hts⟩] at h
    obtain ⟨r, hmarks, h⟩ := Option.bind_eq_some_iff.mp h
    exact (reads_takeMarks? hmarks).trans (ih.unmarked h)

theorem ReadsLevel.nodeOr_succ (ih : ReadsLevel handles fuel)
    (h : nodeOr? handles inBlock dashes ends (fuel + 1) ts = some (n, rest)) : Reads ts rest := by
  unfold nodeOr? at h
  split at h
  · cases h
    exact .refl _
  · exact ih.node h

theorem ReadsLevel.blockItems_succ (ih : ReadsLevel handles fuel)
    (h : blockItems? handles (fuel + 1) done ts = some (ns, rest)) : Reads ts rest := by
  unfold blockItems? at h
  split at h
  · obtain ⟨r, hr, h⟩ := Option.bind_eq_some_iff.mp h
    exact .cons (fun _ => rfl) ((ih.nodeOr hr).trans (ih.blockItems h))
  · cases h
    exact .cons (fun _ => rfl) (.refl _)
  · cases h

theorem ReadsLevel.dashItems_succ (ih : ReadsLevel handles fuel)
    (h : dashItems? handles (fuel + 1) done ts = some (ns, rest)) : Reads ts rest := by
  unfold dashItems? at h
  split at h
  · obtain ⟨r, hr, h⟩ := Option.bind_eq_some_iff.mp h
    exact .cons (fun _ => rfl) ((ih.nodeOr hr).trans (ih.dashItems h))
  · cases h
    exact .refl _

theorem ReadsLevel.blockValue_succ (ih : ReadsLevel handles fuel)
    (h : blockValue? handles (fuel + 1) ts = some (n, rest)) : Reads ts rest := by
  unfold blockValue? at h
  split at h
  · exact .cons (fun _ => rfl) (ih.nodeOr h)
  · cases h
    exact .refl _

theorem ReadsLevel.blockEntries_succ (ih : ReadsLevel handles fuel)
    (h : blockEntries? handles (fuel + 1) known ts = some (es, rest)) : Reads ts rest := by
  unfold blockEntries? at h
  split at h
  · obtain ⟨key, hkey, h⟩ := Option.bind_eq_some_iff.mp h
    obtain ⟨value, hvalue, h⟩ := Option.bind_eq_some_iff.mp h
    exact .cons (fun _ => rfl)
      (((ih.nodeOr hkey).trans (ih.blockValue hvalue)).trans (ih.blockEntries h))
  · cases h
    exact .cons (fun _ => rfl) (.refl _)
  · cases h

theorem ReadsLevel.flowValue_succ (ih : ReadsLevel handles fuel)
    (h : flowValue? handles ends (fuel + 1) ts = some (n, rest)) : Reads ts rest := by
  unfold flowValue? at h
  split at h
  · exact .cons (fun _ => rfl) (ih.nodeOr h)
  · cases h
    exact .refl _

theorem ReadsLevel.listItem_succ (ih : ReadsLevel handles fuel)
    (h : listItem? handles (fuel + 1) ts = some (n, rest)) : Reads ts rest := by
  unfold listItem? at h
  split at h
  · obtain ⟨key, hkey, h⟩ := Option.bind_eq_some_iff.mp h
    obtain ⟨value, hvalue, h⟩ := Option.bind_eq_some_iff.mp h
    cases h
    exact .cons (fun _ => rfl) ((ih.nodeOr hkey).trans (ih.flowValue hvalue))
  · exact ih.node h

theorem ReadsLevel.listItems_succ (ih : ReadsLevel handles fuel)
    (h : listItems? handles (fuel + 1) first done ts = some (ns, rest)) :
    Reads ts (.closeList :: rest) := by
  unfold listItems? at h
  split at h
  · cases h
    exact .refl _
  split at h
  · obtain ⟨r, hr, h⟩ := Option.bind_eq_some_iff.mp h
    exact (ih.listItem hr).trans (ih.listItems h)
  · cases h
    exact .cons (fun _ => rfl) (.refl _)
  · obtain ⟨r, hr, h⟩ := Option.bind_eq_some_iff.mp h
    exact .cons (fun _ => rfl) ((ih.listItem hr).trans (ih.listItems h))
  · cases h

theorem ReadsLevel.mapEntry_succ (ih : ReadsLevel handles fuel)
    (h : mapEntry? handles (fuel + 1) ts = some (entry, rest)) : Reads ts rest := by
  unfold mapEntry? at h
  split at h
  · obtain ⟨key, hkey, h⟩ := Option.bind_eq_some_iff.mp h
    obtain ⟨value, hvalue, h⟩ := Option.bind_eq_some_iff.mp h
    cases h
    exact .cons (fun _ => rfl) ((ih.nodeOr hkey).trans (ih.flowValue hvalue))
  · obtain ⟨key, hkey, h⟩ := Option.bind_eq_some_iff.mp h
    cases h
    exact ih.node hkey

theorem ReadsLevel.mapEntries_succ (ih : ReadsLevel handles fuel)
    (h : mapEntries? handles (fuel + 1) first known ts = some (es, rest)) :
    Reads ts (.closeMap :: rest) := by
  unfold mapEntries? at h
  split at h
  · cases h
    exact .refl _
  split at h
  · obtain ⟨r, hr, h⟩ := Option.bind_eq_some_iff.mp h
    exact (ih.mapEntry hr).trans (ih.mapEntries h)
  · cases h
    exact .cons (fun _ => rfl) (.refl _)
  · obtain ⟨r, hr, h⟩ := Option.bind_eq_some_iff.mp h
    exact .cons (fun _ => rfl) ((ih.mapEntry hr).trans (ih.mapEntries h))
  · cases h

end Readers

theorem readsLevel (handles : Handles) (fuel : Nat) : ReadsLevel handles fuel := by
  induction fuel with
  | zero => constructor <;> intros <;> contradiction
  | succ fuel ih =>
    exact {
      node := ih.node_succ
      nodeOr := ih.nodeOr_succ
      blockItems := ih.blockItems_succ
      dashItems := ih.dashItems_succ
      blockValue := ih.blockValue_succ
      blockEntries := ih.blockEntries_succ
      flowValue := ih.flowValue_succ
      listItem := ih.listItem_succ
      listItems := ih.listItems_succ
      mapEntry := ih.mapEntry_succ
      mapEntries := ih.mapEntries_succ }

/-! ## Documents -/

theorem reads_directives? {versioned : Bool} {before after : Handles}
    (h : directives? versioned before ts = some (after, rest)) : Reads ts rest := by
  induction ts generalizing versioned before with
  | nil =>
    cases h
    exact .refl _
  | cons t ts ih =>
    unfold directives? at h
    split at h
    · rename_i hcons
      cases hcons
      split at h
      · exact .cons (fun _ => rfl) (ih h)
      · cases h
    · rename_i hcons
      cases hcons
      split at h
      · cases h
      · exact .cons (fun _ => rfl) (ih h)
    · cases h
      exact .refl _

theorem reads_marked? {n : Node} (h : marked? handles fuel ts = some (n, rest)) :
    Reads ts rest := by
  unfold marked? at h
  split at h
  · cases h
    exact .refl _
  · cases h
    exact .refl _
  · cases h
    exact .refl _
  · cases h
    exact .refl _
  · cases h
    exact .refl _
  · exact (readsLevel handles fuel).node h

/-- Whether a token stands in front of a document: a directive, or the mark at its start. -/
def Token.heads : Token → Bool
  | .version .. | .tagHandle .. | .documentStart => true
  | _ => false

/-- The node of a document behind its directives. -/
def opened? (fuel : Nat) (handles : Handles) : List Token → Option (Node × List Token)
  | .documentStart :: ts => marked? (handles ++ Handles.known) fuel ts
  | _ => none

theorem document?_of_heads {t : Token} (h : t.heads = true) (ts : List Token) :
    document? (t :: ts) =
      (directives? false [] (t :: ts)).bind fun r =>
        opened? (4 * (t :: ts).length + 4) r.1 r.2 := by
  cases t <;> cases h
  all_goals
    unfold document?
    dsimp only
    split
    · rename_i hread
      rw [hread]
      rfl
    · rename_i hread
      refine (Option.bind_eq_none_iff.mpr ?_).symm
      rintro ⟨handles, us⟩ hr
      dsimp only
      unfold opened?
      split
      · exact absurd hr (hread _ _)
      · rfl

theorem document?_of_not_heads {t : Token} (h : t.heads = false) (ts : List Token) :
    document? (t :: ts) =
      node? Handles.known true false (4 * (t :: ts).length + 4) (t :: ts) := by
  cases t <;> first | rfl | cases h

theorem reads_opened? {n : Node} (h : opened? fuel handles ts = some (n, rest)) :
    Reads ts rest := by
  unfold opened? at h
  split at h
  · exact .cons (fun _ => rfl) (reads_marked? h)
  · cases h

theorem reads_document? {n : Node} (h : document? ts = some (n, rest)) : Reads ts rest := by
  cases ts with
  | nil =>
    cases h
    exact .refl _
  | cons t ts =>
    cases hheads : t.heads with
    | true =>
      rw [document?_of_heads hheads] at h
      obtain ⟨r, hdirectives, hopened⟩ := Option.bind_eq_some_iff.mp h
      exact (reads_directives? hdirectives).trans (reads_opened? hopened)
    | false =>
      rw [document?_of_not_heads hheads] at h
      exact (readsLevel Handles.known _).node h

/-- The node of tokens, where they spell a single document. -/
def nodeOf? (ts : List Token) : Option Node :=
  (document? ts).bind fun r => if (r.2.dropWhile isDocumentEnd).isEmpty then some r.1 else none

theorem read?_eq (cs : List Char) : Node.read? cs = (tokens? cs).bind nodeOf? := rfl

/-- A document closes all brackets that it opens. -/
theorem level_of_nodeOf? {n : Node} (h : nodeOf? ts = some n) : Level ts := by
  obtain ⟨⟨m, rest⟩, hdocument, hrest⟩ := Option.bind_eq_some_iff.mp h
  obtain ⟨used, rfl, hused⟩ := reads_document? hdocument
  split at hrest
  · rename_i hempty
    rw [List.isEmpty_iff, List.dropWhile_eq_nil_iff] at hempty
    refine hused.append (level_of_forall fun t ht => ?_)
    have hend := hempty t ht
    unfold isDocumentEnd at hend
    split at hend
    · exact fun _ => rfl
    · cases hend
  · cases hrest

end DocPages.Yaml
