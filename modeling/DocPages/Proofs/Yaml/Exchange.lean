-- The nodes of tokens that differ in the text of one scalar. Readers of nodes never look into the
-- text of a scalar, so they take the same tokens, and what they make of them differs in that text
-- alone, wherever in the tree it stands.
import DocPages.Proofs.Yaml.Brackets

namespace DocPages.Yaml

variable {α β : Type} {x y : List Char} {ts us : List Token} {handles : Handles} {fuel : Nat}

/-! ## One difference -/

/-- Two lists that differ in one place, where their elements are related. -/
def OneOf (R : α → α → Prop) (l l' : List α) : Prop :=
  ∃ front a b back, R a b ∧ l = front ++ a :: back ∧ l' = front ++ b :: back

/-- Two trees that differ in one scalar: the text `x` in the first, and `y` in the second. -/
inductive Exchanged (x y : List Char) : Node → Node → Prop where
  | scalar (marks : Marks) : Exchanged x y (.scalar marks false x) (.scalar marks false y)
  | item {a b : Node} (marks : Marks) (front back : List Node) (h : Exchanged x y a b) :
    Exchanged x y (.sequence marks (front ++ a :: back)) (.sequence marks (front ++ b :: back))
  | key {a b : Node} (marks : Marks) (front : List (Node × Node)) (value : Node)
      (back : List (Node × Node)) (h : Exchanged x y a b) :
    Exchanged x y (.mapping marks (front ++ (a, value) :: back))
      (.mapping marks (front ++ (b, value) :: back))
  | value {a b : Node} (marks : Marks) (front : List (Node × Node)) (key : Node)
      (back : List (Node × Node)) (h : Exchanged x y a b) :
    Exchanged x y (.mapping marks (front ++ (key, a) :: back))
      (.mapping marks (front ++ (key, b) :: back))

/-- Two entries that differ in one scalar of the key or of the value. -/
inductive EntryExchanged (x y : List Char) : Node × Node → Node × Node → Prop where
  | key {a b : Node} (value : Node) (h : Exchanged x y a b) :
    EntryExchanged x y (a, value) (b, value)
  | value {a b : Node} (key : Node) (h : Exchanged x y a b) : EntryExchanged x y (key, a) (key, b)

/-- Two rows of tokens that differ in the text of one scalar. -/
inductive Differ (x y : List Char) : List Token → List Token → Prop where
  | here (ts : List Token) : Differ x y (.scalar false x :: ts) (.scalar false y :: ts)
  | there (t : Token) {ts us : List Token} (h : Differ x y ts us) : Differ x y (t :: ts) (t :: us)

theorem differ_append (before after : List Token) :
    Differ x y (before ++ .scalar false x :: after) (before ++ .scalar false y :: after) := by
  induction before with
  | nil => exact .here after
  | cons t before ih => exact .there t ih

theorem Differ.length_eq (h : Differ x y ts us) : us.length = ts.length := by
  induction h with
  | here ts => rfl
  | there t h ih => rw [List.length_cons, List.length_cons, ih]

/-- Two readings of which one difference is in what has been read, or else in what is left. -/
def OneApart (x y : List Char) (R : α → α → Prop) (r s : α × List Token) : Prop :=
  (s.1 = r.1 ∧ Differ x y r.2 s.2) ∨ (R r.1 s.1 ∧ s.2 = r.2)

theorem OneApart.either {R : α → α → Prop} {a b : α} (h : OneApart x y R (a, ts) (b, us)) :
    (b = a ∧ Differ x y ts us) ∨ (R a b ∧ us = ts) := h

theorem OneOf.cons {R : α → α → Prop} {l l' : List α} (a : α) (h : OneOf R l l') :
    OneOf R (a :: l) (a :: l') := by
  obtain ⟨front, b, c, back, hbc, rfl, rfl⟩ := h
  exact ⟨a :: front, b, c, back, hbc, rfl, rfl⟩

theorem OneOf.reverse {R : α → α → Prop} {l l' : List α} (h : OneOf R l l') :
    OneOf R l.reverse l'.reverse := by
  obtain ⟨front, b, c, back, hbc, rfl, rfl⟩ := h
  exact ⟨back.reverse, b, c, front.reverse, hbc, by simp, by simp⟩

theorem OneOf.sequence {l l' : List Node} (marks : Marks) (h : OneOf (Exchanged x y) l l') :
    Exchanged x y (.sequence marks l) (.sequence marks l') := by
  obtain ⟨front, b, c, back, hbc, rfl, rfl⟩ := h
  exact .item marks front back hbc

theorem OneOf.mapping {l l' : List (Node × Node)} (marks : Marks)
    (h : OneOf (EntryExchanged x y) l l') :
    Exchanged x y (.mapping marks l) (.mapping marks l') := by
  obtain ⟨front, b, c, back, hbc, rfl, rfl⟩ := h
  cases hbc with
  | key value h => exact .key marks front value back h
  | value key h => exact .value marks front key back h

namespace OneApart

variable {R : α → α → Prop} {r s : α × List Token}

/-- One more element of a row that is read last one first. -/
theorem cons (h : OneApart x y R r s) (done : List α) :
    OneApart x y (OneOf R) (r.1 :: done, r.2) (s.1 :: done, s.2) := by
  rcases h with ⟨hsame, hts⟩ | ⟨hone, hts⟩
  · exact .inl ⟨by rw [hsame], hts⟩
  · exact .inr ⟨⟨[], r.1, s.1, done, hone, rfl, rfl⟩, hts⟩

/-- What is made of what has been read. -/
theorem map {S : β → β → Prop} {f : α → β} (h : OneApart x y R r s)
    (hf : ∀ a b, R a b → S (f a) (f b)) : OneApart x y S (f r.1, r.2) (f s.1, s.2) := by
  rcases h with ⟨hsame, hts⟩ | ⟨hone, hts⟩
  · exact .inl ⟨by rw [hsame], hts⟩
  · exact .inr ⟨hf _ _ hone, hts⟩

end OneApart

/-- Readings that go on from one place with different rows behind them. -/
theorem rel_bind_same {γ : Type} {S : γ → γ → Prop} {z : Option α} {f g : α → Option γ}
    (h : ∀ a, Option.Rel S (f a) (g a)) : Option.Rel S (z.bind f) (z.bind g) := by
  cases z with
  | none => exact .none
  | some a => exact h a

theorem rel_ite {γ : Type} {S : γ → γ → Prop} {p : Prop} [Decidable p] {a b a' b' : Option γ}
    (h : Option.Rel S a b) (h' : Option.Rel S a' b') :
    Option.Rel S (if p then a else a') (if p then b else b') := by
  split
  · exact h
  · exact h'

/-! ## Marks -/

theorem takeName_differ (h : Differ x y ts us) :
    (takeName us).1 = (takeName ts).1 ∧ Differ x y (takeName ts).2 (takeName us).2 := by
  cases h with
  | here ts => exact ⟨rfl, .here ts⟩
  | there t h =>
    cases t with
    | anchor name => exact ⟨rfl, h⟩
    | _ => exact ⟨rfl, .there _ h⟩

theorem takeTag_differ (h : Differ x y ts us) :
    (takeTag us).1 = (takeTag ts).1 ∧ Differ x y (takeTag ts).2 (takeTag us).2 := by
  cases h with
  | here ts => exact ⟨rfl, .here ts⟩
  | there t h =>
    cases t with
    | tag name => exact ⟨rfl, h⟩
    | _ => exact ⟨rfl, .there _ h⟩

theorem takeMarks?_differ (handles : Handles) (h : Differ x y ts us) :
    Option.Rel (fun r s => s.1 = r.1 ∧ Differ x y r.2 s.2)
      (takeMarks? handles ts) (takeMarks? handles us) := by
  obtain ⟨hname, hbehind⟩ := takeName_differ h
  obtain ⟨htag, hback⟩ := takeTag_differ hbehind
  obtain ⟨hname', hlast⟩ := takeName_differ hback
  unfold takeMarks?
  simp only [hname, htag, Option.bind_eq_bind]
  cases (takeTag (takeName ts).2).1 with
  | none =>
    dsimp only
    split
    · exact .some ⟨rfl, hback⟩
    · exact .some ⟨by rw [hname'], hlast⟩
  | some tag =>
    refine rel_bind_same fun full => ?_
    split
    · exact .some ⟨rfl, hback⟩
    · exact .some ⟨by rw [hname'], hlast⟩

/-- No scalar is among the tokens. -/
def NoScalar (ends : List Token) : Prop := ∀ text, ends.contains (.scalar false text) = false

theorem starts_differ {ends : List Token} (hends : NoScalar ends) (h : Differ x y ts us) :
    starts ends us = starts ends ts := by
  cases h with
  | here ts =>
    simp only [starts, List.head?_cons, Option.any_some, hends x, hends y]
  | there t h => rfl

/-! ## Readers -/

/-- What every reader of nodes makes of tokens that differ in one scalar, with so much fuel. Readers
of several nodes are given those read before, of which one may differ already. -/
structure Exchanges (x y : List Char) (handles : Handles) (fuel : Nat) : Prop where
  node {inBlock dashes} {ts us : List Token} : Differ x y ts us →
    Option.Rel (OneApart x y (Exchanged x y)) (node? handles inBlock dashes fuel ts)
      (node? handles inBlock dashes fuel us)
  nodeOr {inBlock dashes ends} {ts us : List Token} : NoScalar ends → Differ x y ts us →
    Option.Rel (OneApart x y (Exchanged x y)) (nodeOr? handles inBlock dashes ends fuel ts)
      (nodeOr? handles inBlock dashes ends fuel us)
  blockItems {done done' : List Node} {ts us : List Token} :
    OneApart x y (OneOf (Exchanged x y)) (done, ts) (done', us) →
    Option.Rel (OneApart x y (OneOf (Exchanged x y))) (blockItems? handles fuel done ts)
      (blockItems? handles fuel done' us)
  dashItems {done done' : List Node} {ts us : List Token} :
    OneApart x y (OneOf (Exchanged x y)) (done, ts) (done', us) →
    Option.Rel (OneApart x y (OneOf (Exchanged x y))) (dashItems? handles fuel done ts)
      (dashItems? handles fuel done' us)
  blockValue {ts us : List Token} : Differ x y ts us →
    Option.Rel (OneApart x y (Exchanged x y)) (blockValue? handles fuel ts)
      (blockValue? handles fuel us)
  blockEntries {done done' : List (Node × Node)} {ts us : List Token} :
    OneApart x y (OneOf (EntryExchanged x y)) (done, ts) (done', us) →
    Option.Rel (OneApart x y (OneOf (EntryExchanged x y))) (blockEntries? handles fuel done ts)
      (blockEntries? handles fuel done' us)
  flowValue {ends} {ts us : List Token} : NoScalar ends → Differ x y ts us →
    Option.Rel (OneApart x y (Exchanged x y)) (flowValue? handles ends fuel ts)
      (flowValue? handles ends fuel us)
  listItem {ts us : List Token} : Differ x y ts us →
    Option.Rel (OneApart x y (Exchanged x y)) (listItem? handles fuel ts)
      (listItem? handles fuel us)
  listItems {first} {done done' : List Node} {ts us : List Token} :
    OneApart x y (OneOf (Exchanged x y)) (done, ts) (done', us) →
    Option.Rel (OneApart x y (OneOf (Exchanged x y))) (listItems? handles fuel first done ts)
      (listItems? handles fuel first done' us)
  mapEntry {ts us : List Token} : Differ x y ts us →
    Option.Rel (OneApart x y (EntryExchanged x y)) ( mapEntry? handles fuel ts)
      ( mapEntry? handles fuel us)
  mapEntries {first} {done done' : List (Node × Node)} {ts us : List Token} :
    OneApart x y (OneOf (EntryExchanged x y)) (done, ts) (done', us) →
    Option.Rel (OneApart x y (OneOf (EntryExchanged x y))) (mapEntries? handles fuel first done ts)
      (mapEntries? handles fuel first done' us)

namespace Exchanges

variable {inBlock dashes first : Bool} {ends : List Token} {marks : Marks}

theorem unmarked_cons (ih : Exchanges x y handles fuel) (t : Token) (h : Differ x y ts us) :
    Option.Rel (OneApart x y (Exchanged x y))
      (unmarked? handles inBlock dashes fuel marks (t :: ts))
      (unmarked? handles inBlock dashes fuel marks (t :: us)) := by
  have hblock : Option.Rel (OneApart x y (Exchanged x y))
      (if dashes && starts [.entry] (t :: ts) then
        (dashItems? handles fuel [] (t :: ts)).map fun r => (.sequence marks r.1, r.2)
      else if inBlock && starts [.sequenceBlock] (t :: ts) then
        (blockItems? handles fuel [] ts).map fun r => (.sequence marks r.1, r.2)
      else if inBlock && starts [.mappingBlock] (t :: ts) then
        (blockEntries? handles fuel [] ts).map fun r => (.mapping marks r.1, r.2)
      else if marks == .none then none
      else some (.absent marks, t :: ts))
      (if dashes && starts [.entry] (t :: us) then
        (dashItems? handles fuel [] (t :: us)).map fun r => (.sequence marks r.1, r.2)
      else if inBlock && starts [.sequenceBlock] (t :: us) then
        (blockItems? handles fuel [] us).map fun r => (.sequence marks r.1, r.2)
      else if inBlock && starts [.mappingBlock] (t :: us) then
        (blockEntries? handles fuel [] us).map fun r => (.mapping marks r.1, r.2)
      else if marks == .none then none
      else some (.absent marks, t :: us)) := by
    refine rel_ite (rel_map (ih.dashItems (.inl ⟨rfl, .there t h⟩)) fun r s hrs =>
      hrs.map fun _ _ => OneOf.sequence marks) ?_
    refine rel_ite (rel_map (ih.blockItems (.inl ⟨rfl, h⟩)) fun r s hrs =>
      hrs.map fun _ _ => OneOf.sequence marks) ?_
    refine rel_ite (rel_map (ih.blockEntries (.inl ⟨rfl, h⟩)) fun r s hrs =>
      hrs.map fun _ _ => OneOf.mapping marks) ?_
    exact rel_ite .none (.some (.inl ⟨rfl, .there t h⟩))
  cases t with
  | scalar plain text => exact .some (.inl ⟨rfl, h⟩)
  | openList =>
    exact rel_map (ih.listItems (.inl ⟨rfl, h⟩)) fun r s hrs =>
      hrs.map fun _ _ => OneOf.sequence marks
  | openMap =>
    exact rel_map (ih.mapEntries (.inl ⟨rfl, h⟩)) fun r s hrs =>
      hrs.map fun _ _ => OneOf.mapping marks
  | _ => exact hblock

theorem unmarked (ih : Exchanges x y handles fuel) (h : Differ x y ts us) :
    Option.Rel (OneApart x y (Exchanged x y)) (unmarked? handles inBlock dashes fuel marks ts)
      (unmarked? handles inBlock dashes fuel marks us) := by
  cases h with
  | here ts => exact .some (.inr ⟨.scalar marks, rfl⟩)
  | there t h => exact ih.unmarked_cons t h

theorem node_succ (ih : Exchanges x y handles fuel) (h : Differ x y ts us) :
    Option.Rel (OneApart x y (Exchanged x y)) (node? handles inBlock dashes (fuel + 1) ts)
      (node? handles inBlock dashes (fuel + 1) us) := by
  by_cases halias : ∃ name behind, ts = .alias name :: behind
  · obtain ⟨name, behind, rfl⟩ := halias
    cases h with
    | there t h => exact .some (.inl ⟨rfl, h⟩)
  · have halias' : ∀ name behind, us ≠ .alias name :: behind := by
      rintro name behind rfl
      cases h with
      | there t h => exact halias ⟨_, _, rfl⟩
    rw [node?_eq _ _ _ _ fun name behind hts => halias ⟨name, behind, hts⟩,
      node?_eq _ _ _ _ halias']
    refine rel_bind (takeMarks?_differ handles h) fun r s _ hrs => ?_
    rw [hrs.1]
    exact ih.unmarked hrs.2

theorem nodeOr_succ (ih : Exchanges x y handles fuel) (hends : NoScalar ends)
    (h : Differ x y ts us) :
    Option.Rel (OneApart x y (Exchanged x y)) (nodeOr? handles inBlock dashes ends (fuel + 1) ts)
      (nodeOr? handles inBlock dashes ends (fuel + 1) us) := by
  unfold nodeOr?
  rw [starts_differ hends h]
  split
  · exact .some (.inl ⟨rfl, h⟩)
  · exact ih.node h

variable {done done' : List Node} {known known' : List (Node × Node)}

theorem blockItems_succ (ih : Exchanges x y handles fuel)
    (h : OneApart x y (OneOf (Exchanged x y)) (done, ts) (done', us)) :
    Option.Rel (OneApart x y (OneOf (Exchanged x y))) (blockItems? handles (fuel + 1) done ts)
      (blockItems? handles (fuel + 1) done' us) := by
  unfold blockItems?
  rcases h.either with ⟨rfl, hts⟩ | ⟨hdone, rfl⟩
  · cases hts with
    | here ts => exact .none
    | there t hts =>
      cases t with
      | entry =>
        refine rel_bind (ih.nodeOr (fun _ => rfl) hts) fun a b _ hab => ?_
        exact ih.blockItems (hab.cons done')
      | blockEnd => exact .some (.inl ⟨rfl, hts⟩)
      | _ => exact .none
  · cases us with
    | nil => exact .none
    | cons t us =>
      cases t with
      | entry => exact rel_bind_same fun a => ih.blockItems (.inr ⟨hdone.cons a.1, rfl⟩)
      | blockEnd => exact .some (.inr ⟨hdone.reverse, rfl⟩)
      | _ => exact .none

theorem dashItems_succ (ih : Exchanges x y handles fuel)
    (h : OneApart x y (OneOf (Exchanged x y)) (done, ts) (done', us)) :
    Option.Rel (OneApart x y (OneOf (Exchanged x y))) (dashItems? handles (fuel + 1) done ts)
      (dashItems? handles (fuel + 1) done' us) := by
  unfold dashItems?
  rcases h.either with ⟨rfl, hts⟩ | ⟨hdone, rfl⟩
  · cases hts with
    | here ts => exact .some (.inl ⟨rfl, .here ts⟩)
    | there t hts =>
      cases t with
      | entry =>
        refine rel_bind (ih.nodeOr (fun _ => rfl) hts) fun a b _ hab => ?_
        exact ih.dashItems (hab.cons done')
      | _ => exact .some (.inl ⟨rfl, .there _ hts⟩)
  · cases us with
    | nil => exact .some (.inr ⟨hdone.reverse, rfl⟩)
    | cons t us =>
      cases t with
      | entry => exact rel_bind_same fun a => ih.dashItems (.inr ⟨hdone.cons a.1, rfl⟩)
      | _ => exact .some (.inr ⟨hdone.reverse, rfl⟩)

theorem blockValue_succ (ih : Exchanges x y handles fuel) (h : Differ x y ts us) :
    Option.Rel (OneApart x y (Exchanged x y)) (blockValue? handles (fuel + 1) ts)
      (blockValue? handles (fuel + 1) us) := by
  unfold blockValue?
  cases h with
  | here ts => exact .some (.inl ⟨rfl, .here ts⟩)
  | there t h =>
    cases t with
    | value => exact ih.nodeOr (fun _ => rfl) h
    | _ => exact .some (.inl ⟨rfl, .there _ h⟩)

theorem flowValue_succ (ih : Exchanges x y handles fuel) (hends : NoScalar ends)
    (h : Differ x y ts us) :
    Option.Rel (OneApart x y (Exchanged x y)) (flowValue? handles ends (fuel + 1) ts)
      (flowValue? handles ends (fuel + 1) us) := by
  unfold flowValue?
  cases h with
  | here ts => exact .some (.inl ⟨rfl, .here ts⟩)
  | there t h =>
    cases t with
    | value => exact ih.nodeOr hends h
    | _ => exact .some (.inl ⟨rfl, .there _ h⟩)

/-- A key and then its value, of which one may differ. -/
theorem rel_entry {r s : Node × List Token} (h : OneApart x y (Exchanged x y) r s)
    {value? : List Token → Option (Node × List Token)}
    (hvalue : ∀ {ts us}, Differ x y ts us →
      Option.Rel (OneApart x y (Exchanged x y)) (value? ts) (value? us)) :
    Option.Rel (OneApart x y (EntryExchanged x y))
      ((value? r.2).map fun v => ((r.1, v.1), v.2))
      ((value? s.2).map fun v => ((s.1, v.1), v.2)) := by
  obtain ⟨key, ts⟩ := r
  obtain ⟨key', us⟩ := s
  rcases h.either with ⟨rfl, hts⟩ | ⟨hkey, rfl⟩
  · refine rel_map (hvalue hts) fun a b hab => ?_
    rcases hab with ⟨hvalue, hts⟩ | ⟨hvalue, hts⟩
    · exact .inl ⟨by rw [hvalue], hts⟩
    · exact .inr ⟨.value key' hvalue, hts⟩
  · cases value? us with
    | none => exact .none
    | some v => exact .some (.inr ⟨.key v.1 hkey, rfl⟩)

theorem blockEntries_succ (ih : Exchanges x y handles fuel)
    (h : OneApart x y (OneOf (EntryExchanged x y)) (known, ts) (known', us)) :
    Option.Rel (OneApart x y (OneOf (EntryExchanged x y)))
      (blockEntries? handles (fuel + 1) known ts) (blockEntries? handles (fuel + 1) known' us) := by
  unfold blockEntries?
  rcases h.either with ⟨rfl, hts⟩ | ⟨hknown, rfl⟩
  · cases hts with
    | here ts => exact .none
    | there t hts =>
      cases t with
      | key =>
        refine rel_bind (ih.nodeOr (fun _ => rfl) hts) fun a b _ hab => ?_
        have hentries := rel_bind (rel_entry hab ih.blockValue) fun e e' _ he =>
          ih.blockEntries (he.cons known')
        rw [Option.bind_map, Option.bind_map] at hentries
        exact hentries
      | blockEnd => exact .some (.inl ⟨rfl, hts⟩)
      | _ => exact .none
  · cases us with
    | nil => exact .none
    | cons t us =>
      cases t with
      | key =>
        exact rel_bind_same fun a => rel_bind_same fun b =>
          ih.blockEntries (.inr ⟨hknown.cons (a.1, b.1), rfl⟩)
      | blockEnd => exact .some (.inr ⟨hknown.reverse, rfl⟩)
      | _ => exact .none

theorem listItem_succ (ih : Exchanges x y handles fuel) (h : Differ x y ts us) :
    Option.Rel (OneApart x y (Exchanged x y)) (listItem? handles (fuel + 1) ts)
      (listItem? handles (fuel + 1) us) := by
  unfold listItem?
  cases h with
  | here ts => exact ih.node (.here ts)
  | there t h =>
    cases t with
    | key =>
      refine rel_bind (ih.nodeOr (fun _ => rfl) h) fun a b _ hab => ?_
      have hvalue : NoScalar [.comma, .closeList] := fun _ => rfl
      have hentry := rel_map (rel_entry hab (ih.flowValue hvalue)) fun e e' he =>
        he.map fun _ _ hone => OneOf.mapping Marks.none ⟨[], _, _, [], hone, rfl, rfl⟩
      rw [Option.map_map, Option.map_map, Option.map_eq_bind, Option.map_eq_bind] at hentry
      exact hentry
    | _ => exact ih.node (.there _ h)

theorem mapEntry_succ (ih : Exchanges x y handles fuel) (h : Differ x y ts us) :
    Option.Rel (OneApart x y (EntryExchanged x y)) ( mapEntry? handles (fuel + 1) ts)
      ( mapEntry? handles (fuel + 1) us) := by
  have hnode : ∀ {ts us}, Differ x y ts us → Option.Rel (OneApart x y (EntryExchanged x y))
      ((node? handles false false fuel ts).bind fun r => some ((r.1, .absent .none), r.2))
      ((node? handles false false fuel us).bind fun r => some ((r.1, .absent .none), r.2)) :=
    fun h => rel_bind (ih.node h) fun r s _ hrs =>
      .some (hrs.map (f := (·, Node.absent .none)) fun _ _ hkey => EntryExchanged.key _ hkey)
  unfold mapEntry?
  cases h with
  | here ts => exact hnode (.here ts)
  | there t h =>
    cases t with
    | key =>
      refine rel_bind (ih.nodeOr (fun _ => rfl) h) fun a b _ hab => ?_
      have hvalue : NoScalar [.comma, .closeMap] := fun _ => rfl
      have hentry := rel_entry hab (ih.flowValue hvalue)
      rw [Option.map_eq_bind, Option.map_eq_bind] at hentry
      exact hentry
    | _ => exact hnode (.there _ h)

theorem listItem_bind (ih : Exchanges x y handles fuel)
    (h : OneApart x y (OneOf (Exchanged x y)) (done, ts) (done', us)) :
    Option.Rel (OneApart x y (OneOf (Exchanged x y)))
      ((listItem? handles fuel ts).bind fun r => listItems? handles fuel false (r.1 :: done) r.2)
      ((listItem? handles fuel us).bind fun r =>
        listItems? handles fuel false (r.1 :: done') r.2) := by
  rcases h.either with ⟨rfl, hts⟩ | ⟨hdone, rfl⟩
  · exact rel_bind (ih.listItem hts) fun a b _ hab => ih.listItems (hab.cons done')
  · exact rel_bind_same fun a => ih.listItems (.inr ⟨hdone.cons a.1, rfl⟩)

theorem listItems_succ (ih : Exchanges x y handles fuel)
    (h : OneApart x y (OneOf (Exchanged x y)) (done, ts) (done', us)) :
    Option.Rel (OneApart x y (OneOf (Exchanged x y))) (listItems? handles (fuel + 1) first done ts)
      (listItems? handles (fuel + 1) first done' us) := by
  unfold listItems?
  rcases h.either with ⟨rfl, hts⟩ | ⟨hdone, rfl⟩
  · cases hts with
    | here ts =>
      cases first with
      | true => exact ih.listItem_bind (.inl ⟨rfl, .here ts⟩)
      | false => exact .none
    | there t hts =>
      cases t with
      | closeList => exact .some (.inl ⟨rfl, hts⟩)
      | comma =>
        cases first with
        | true => exact ih.listItem_bind (.inl ⟨rfl, .there _ hts⟩)
        | false =>
          cases hts with
          | here ts => exact ih.listItem_bind (.inl ⟨rfl, .here ts⟩)
          | there t hts =>
            cases t with
            | closeList => exact .some (.inl ⟨rfl, hts⟩)
            | _ => exact ih.listItem_bind (.inl ⟨rfl, .there _ hts⟩)
      | _ =>
        cases first with
        | true => exact ih.listItem_bind (.inl ⟨rfl, .there _ hts⟩)
        | false => exact .none
  · split
    · exact .some (.inr ⟨hdone.reverse, rfl⟩)
    split
    · exact ih.listItem_bind (.inr ⟨hdone, rfl⟩)
    · exact .some (.inr ⟨hdone.reverse, rfl⟩)
    · exact ih.listItem_bind (.inr ⟨hdone, rfl⟩)
    · exact .none

theorem mapEntry_bind (ih : Exchanges x y handles fuel)
    (h : OneApart x y (OneOf (EntryExchanged x y)) (known, ts) (known', us)) :
    Option.Rel (OneApart x y (OneOf (EntryExchanged x y)))
      (( mapEntry? handles fuel ts).bind fun r => mapEntries? handles fuel false (r.1 :: known) r.2)
      (( mapEntry? handles fuel us).bind fun r =>
        mapEntries? handles fuel false (r.1 :: known') r.2) := by
  rcases h.either with ⟨rfl, hts⟩ | ⟨hknown, rfl⟩
  · exact rel_bind (ih.mapEntry hts) fun a b _ hab => ih.mapEntries (hab.cons known')
  · exact rel_bind_same fun a => ih.mapEntries (.inr ⟨hknown.cons a.1, rfl⟩)

theorem mapEntries_succ (ih : Exchanges x y handles fuel)
    (h : OneApart x y (OneOf (EntryExchanged x y)) (known, ts) (known', us)) :
    Option.Rel (OneApart x y (OneOf (EntryExchanged x y)))
      (mapEntries? handles (fuel + 1) first known ts)
      (mapEntries? handles (fuel + 1) first known' us) := by
  unfold mapEntries?
  rcases h.either with ⟨rfl, hts⟩ | ⟨hknown, rfl⟩
  · cases hts with
    | here ts =>
      cases first with
      | true => exact ih.mapEntry_bind (.inl ⟨rfl, .here ts⟩)
      | false => exact .none
    | there t hts =>
      cases t with
      | closeMap => exact .some (.inl ⟨rfl, hts⟩)
      | comma =>
        cases first with
        | true => exact ih.mapEntry_bind (.inl ⟨rfl, .there _ hts⟩)
        | false =>
          cases hts with
          | here ts => exact ih.mapEntry_bind (.inl ⟨rfl, .here ts⟩)
          | there t hts =>
            cases t with
            | closeMap => exact .some (.inl ⟨rfl, hts⟩)
            | _ => exact ih.mapEntry_bind (.inl ⟨rfl, .there _ hts⟩)
      | _ =>
        cases first with
        | true => exact ih.mapEntry_bind (.inl ⟨rfl, .there _ hts⟩)
        | false => exact .none
  · split
    · exact .some (.inr ⟨hknown.reverse, rfl⟩)
    split
    · exact ih.mapEntry_bind (.inr ⟨hknown, rfl⟩)
    · exact .some (.inr ⟨hknown.reverse, rfl⟩)
    · exact ih.mapEntry_bind (.inr ⟨hknown, rfl⟩)
    · exact .none

end Exchanges

theorem exchanges (x y : List Char) (handles : Handles) (fuel : Nat) :
    Exchanges x y handles fuel := by
  induction fuel with
  | zero => constructor <;> intros <;> exact .none
  | succ fuel ih =>
    exact {
      node := ih.node_succ
      nodeOr := ih.nodeOr_succ
      blockItems := ih.blockItems_succ
      dashItems := ih.dashItems_succ
      blockValue := ih.blockValue_succ
      blockEntries := ih.blockEntries_succ
      flowValue := ih.flowValue_succ
      listItem := ih.listItem_succ
      listItems := ih.listItems_succ
      mapEntry := ih.mapEntry_succ
      mapEntries := ih.mapEntries_succ }

/-! ## Documents -/

theorem directives?_differ {versioned : Bool} {known : Handles} (h : Differ x y ts us) :
    Option.Rel (fun r s => s.1 = r.1 ∧ Differ x y r.2 s.2)
      (directives? versioned known ts) (directives? versioned known us) := by
  induction h generalizing versioned known with
  | here ts => exact .some ⟨rfl, .here ts⟩
  | there t h ih =>
    cases t with
    | version major minor => exact rel_ite ih .none
    | tagHandle handle start => exact rel_ite .none ih
    | _ => exact .some ⟨rfl, .there _ h⟩

theorem marked?_differ (h : Differ x y ts us) :
    Option.Rel (OneApart x y (Exchanged x y)) (marked? handles fuel ts)
      (marked? handles fuel us) := by
  have hnode : Option.Rel (OneApart x y (Exchanged x y)) (node? handles true false fuel ts)
      (node? handles true false fuel us) := (exchanges x y handles fuel).node h
  cases h with
  | here ts => exact hnode
  | there t h =>
    cases t with
    | version major minor => exact .some (.inl ⟨rfl, .there _ h⟩)
    | tagHandle handle start => exact .some (.inl ⟨rfl, .there _ h⟩)
    | documentStart => exact .some (.inl ⟨rfl, .there _ h⟩)
    | documentEnd => exact .some (.inl ⟨rfl, .there _ h⟩)
    | _ => exact hnode

theorem opened?_differ (h : Differ x y ts us) :
    Option.Rel (OneApart x y (Exchanged x y)) (opened? fuel handles ts)
      (opened? fuel handles us) := by
  cases h with
  | here ts => exact .none
  | there t h =>
    cases t with
    | documentStart => exact marked?_differ h
    | _ => exact .none

theorem document?_differ (h : Differ x y ts us) :
    Option.Rel (OneApart x y (Exchanged x y)) (document? ts) (document? us) := by
  have hlength := h.length_eq
  have hnode : Option.Rel (OneApart x y (Exchanged x y))
      (node? Handles.known true false (4 * ts.length + 4) ts)
      (node? Handles.known true false (4 * ts.length + 4) us) := (exchanges x y _ _).node h
  have hdirectives : Option.Rel (fun r s => s.1 = r.1 ∧ Differ x y r.2 s.2)
      (directives? false [] ts) (directives? false [] us) := directives?_differ h
  cases h with
  | here ts => exact hnode
  | @there t ts us h =>
    cases hheads : t.heads with
    | true =>
      rw [document?_of_heads hheads, document?_of_heads hheads, hlength]
      refine rel_bind hdirectives fun r s _ hrs => ?_
      rw [hrs.1]
      exact opened?_differ hrs.2
    | false =>
      rw [document?_of_not_heads hheads, document?_of_not_heads hheads, hlength]
      exact hnode

theorem Differ.symm (h : Differ x y ts us) : Differ y x us ts := by
  induction h with
  | here ts => exact .here ts
  | there t h ih => exact .there t ih

/-- The marks at the end of a document do not reach past a scalar. -/
theorem Differ.not_isDocumentEnd (h : Differ x y ts us) :
    (ts.dropWhile isDocumentEnd).isEmpty = false := by
  induction h with
  | here ts => rfl
  | there t h ih =>
    rw [List.dropWhile_cons]
    split
    · exact ih
    · rfl

/-- A document whose tokens differ in one scalar differs in that scalar alone. -/
theorem nodeOf?_differ (h : Differ x y ts us) :
    Option.Rel (Exchanged x y) (nodeOf? ts) (nodeOf? us) := by
  refine rel_bind (document?_differ h) fun r s _ hrs => ?_
  rcases hrs with ⟨_, hrest⟩ | ⟨hnode, hrest⟩
  · rw [hrest.not_isDocumentEnd, hrest.symm.not_isDocumentEnd]
    exact .none
  · rw [hrest]
    exact rel_ite (.some hnode) .none

end DocPages.Yaml
