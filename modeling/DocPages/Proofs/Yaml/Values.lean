-- The values of trees that differ in the text of one scalar. Where the scalar is a value, and no
-- tag makes it anything but its text, the values differ in that text alone. An alias can repeat it
-- in other places, as a part of what the alias stands for, but never as a key.
import DocPages.Proofs.Json.Alike
import DocPages.Proofs.Yaml.Exchange
import DocPages.Yaml.Value

namespace DocPages.Yaml

variable {x y : List Char}

/-! ## Scalars that are values -/

/-- The tags under which a text stands for something else. -/
def typedTags : List String := ["bool", "int", "float", "null"].map coreTag

/-- Whether a scalar that is not plain is its text under a tag, or without one. -/
def Textual (tag : Option (List Char)) : Prop := ∀ full ∈ tag, String.ofList full ∉ typedTags

theorem scalar?_of_textual {tag : Option (List Char)} (h : Textual tag) (text : List Char) :
    scalar? tag false text = some (.text text) := by
  cases tag with
  | none => rfl
  | some full =>
    have hfull := h full rfl
    simp only [typedTags, List.map_cons, List.map_nil, List.mem_cons, List.not_mem_nil, or_false,
      not_or] at hfull
    unfold scalar? ofTagged?
    simp [hfull]

/-- Two trees that differ in one scalar that is a value: it stands in no key, has no name under
which it could be repeated, and no tag that makes it anything but its text. -/
inductive ValueExchanged (x y : List Char) : Node → Node → Prop where
  | scalar {tag : Option (List Char)} (htag : Textual tag) :
    ValueExchanged x y (.scalar ⟨none, tag⟩ false x) (.scalar ⟨none, tag⟩ false y)
  | item {a b : Node} (marks : Marks) (front back : List Node) (h : ValueExchanged x y a b) :
    ValueExchanged x y (.sequence marks (front ++ a :: back)) (.sequence marks (front ++ b :: back))
  | value {a b : Node} (marks : Marks) (front : List (Node × Node)) (key : Node)
      (back : List (Node × Node)) (h : ValueExchanged x y a b) :
    ValueExchanged x y (.mapping marks (front ++ (key, a) :: back))
      (.mapping marks (front ++ (key, b) :: back))

/-! ## Parts -/

/-- Two parts that differ in scalars that are values: `x` in the first, and `y` in the second. -/
inductive Part.Apart (x y : List Char) : Part → Part → Prop where
  | same (p : Part) : Apart x y p p
  | scalar {tag : Option (List Char)} (htag : Textual tag) :
    Apart x y (.scalar tag false x) (.scalar tag false y)
  | sequence {items items' : List Part} (tag : Option (List Char))
      (h : List.Forall₂ (Apart x y) items items') :
    Apart x y (.sequence tag items) (.sequence tag items')
  | mapping {entries entries' : List (Part × Part)} (tag : Option (List Char))
      (h : List.Forall₂ (Keyed (Apart x y)) entries entries') :
    Apart x y (.mapping tag entries) (.mapping tag entries')

/-- Two such parts that are the same as a key: equal, or no scalars themselves. -/
def Part.Close (x y : List Char) (p p' : Part) : Prop :=
  Apart x y p p' ∧ (p' = p ∨ ∀ tag plain text, p ≠ .scalar tag plain text)

theorem Part.close_refl (p : Part) : Close x y p p := ⟨.same p, .inl rfl⟩

/-- What has numbers differs inside collections only. -/
def TargetsClose (x y : List Char) : Targets → Targets → Prop :=
  List.Forall₂ (Keyed (Part.Close x y))

theorem targetsClose_refl (targets : Targets) : TargetsClose x y targets targets :=
  List.forall₂_same.mpr fun t _ => .mk t.1 (Part.close_refl t.2)

theorem Names.target_close (names : Names) (name : Option (List Char)) {p p' : Part}
    (h : p.Close x y p') : TargetsClose x y (names.target name p) (names.target name p') := by
  cases name with
  | none => exact .nil
  | some name => exact .cons (.mk _ h) .nil

/-! ## Numbers for aliases -/

/-- Two readings of nodes as parts: the same names behind them, and parts that differ. -/
def LinkedApart {α : Type} (x y : List Char) (R : α → α → Prop)
    (r s : α × Names × Targets) : Prop :=
  R r.1 s.1 ∧ s.2.1 = r.2.1 ∧ TargetsClose x y r.2.2 s.2.2

section Rows

variable {a b : Node}
  (h : ∀ names, Option.Rel (LinkedApart x y (Part.Apart x y)) (link? names a) (link? names b))

include h

theorem linkItems?_apart (front back : List Node) (names : Names) :
    Option.Rel (LinkedApart x y (List.Forall₂ (Part.Apart x y)))
      (linkItems? names (front ++ a :: back)) (linkItems? names (front ++ b :: back)) := by
  induction front generalizing names with
  | nil =>
    refine rel_bind (h names) fun r s _ hrs => ?_
    obtain ⟨p, behind, targets⟩ := r
    obtain ⟨p', behind', targets'⟩ := s
    obtain ⟨hp, rfl, htargets⟩ := hrs
    refine rel_bind_same fun rest => .some ⟨.cons hp ?_, rfl, ?_⟩
    · exact List.forall₂_same.mpr fun p _ => .same p
    · exact List.rel_append htargets (targetsClose_refl _)
  | cons item front ih =>
    refine rel_bind_same fun first => rel_bind (ih _) fun r s _ hrs => .some ?_
    exact ⟨.cons (.same _) hrs.1, hrs.2.1, List.rel_append (targetsClose_refl _) hrs.2.2⟩

theorem linkEntries?_apart (front : List (Node × Node)) (key : Node) (back : List (Node × Node))
    (names : Names) :
    Option.Rel (LinkedApart x y (List.Forall₂ (Keyed (Part.Apart x y))))
      (linkEntries? names (front ++ (key, a) :: back))
      (linkEntries? names (front ++ (key, b) :: back)) := by
  induction front generalizing names with
  | nil =>
    refine rel_bind_same fun first => rel_bind (h _) fun r s _ hrs => ?_
    obtain ⟨p, behind, targets⟩ := r
    obtain ⟨p', behind', targets'⟩ := s
    obtain ⟨hp, rfl, htargets⟩ := hrs
    refine rel_bind_same fun rest => .some ⟨.cons (.mk _ hp) ?_, rfl, ?_⟩
    · exact List.forall₂_same.mpr fun e _ => .mk e.1 (.same e.2)
    · exact List.rel_append (List.rel_append (targetsClose_refl _) htargets) (targetsClose_refl _)
  | cons entry front ih =>
    obtain ⟨key', value⟩ := entry
    refine rel_bind_same fun first => rel_bind_same fun second => rel_bind (ih _) fun r s _ hrs =>
      .some ?_
    exact ⟨.cons (.mk _ (.same _)) hrs.1, hrs.2.1, List.rel_append (targetsClose_refl _) hrs.2.2⟩

end Rows

theorem link?_apart {a b : Node} (h : ValueExchanged x y a b) (names : Names) :
    Option.Rel (LinkedApart x y (Part.Apart x y)) (link? names a) (link? names b) := by
  induction h generalizing names with
  | scalar htag => exact .some ⟨.scalar htag, rfl, .nil⟩
  | item marks front back h ih =>
    refine rel_bind (linkItems?_apart ih front back _) fun r s _ hrs => .some ?_
    have hpart := Part.Apart.sequence marks.tag hrs.1
    have hclose := names.target_close marks.name ⟨hpart, .inr nofun⟩
    exact ⟨hpart, hrs.2.1, List.rel_append hclose hrs.2.2⟩
  | value marks front key back h ih =>
    refine rel_bind (linkEntries?_apart ih front key back _) fun r s _ hrs => .some ?_
    have hpart := Part.Apart.mapping marks.tag hrs.1
    have hclose := names.target_close marks.name ⟨hpart, .inr nofun⟩
    exact ⟨hpart, hrs.2.1, List.rel_append hclose hrs.2.2⟩

/-! ## Meanings -/

/-- Two meanings behind which as many aliases can be replaced, and whose values are alike. Where the
parts are the same as keys, they are the same atom, if any. -/
def MeaningApart (x y : List Char) (same : Prop) (r s : Meaning × Nat) : Prop :=
  Json.Alike (String.ofList x) (String.ofList y) r.1.json s.1.json ∧ s.2 = r.2 ∧
    (same → s.1.atom = r.1.atom)

theorem lookup_keyed {R : Part → Part → Prop} {targets targets' : Targets}
    (h : List.Forall₂ (Keyed R) targets targets') (number : Nat) :
    Option.Rel R (targets.lookup number) (targets'.lookup number) := by
  induction h with
  | nil => exact .none
  | cons hfirst hrest ih =>
    cases hfirst with
    | mk key hpart =>
      rw [List.lookup_cons, List.lookup_cons]
      split
      · exact .some hpart
      · exact ih

variable {targets targets' : Targets}

theorem follow?_apart (htargets : TargetsClose x y targets targets') (left : Nat) {p p' : Part}
    (h : p.Apart x y p') :
    Option.Rel (fun r s => r.1.Apart x y s.1 ∧ s.2 = r.2 ∧ (p.Close x y p' → r.1.Close x y s.1))
      (follow? targets left p) (follow? targets' left p') := by
  cases h with
  | same p =>
    rcases p with number | _ | _ | _
    · cases left with
      | zero => exact .none
      | succ left =>
        exact rel_map (lookup_keyed htargets number) fun q q' hq => ⟨hq.1, rfl, fun _ => hq⟩
    all_goals exact .some ⟨.same _, rfl, id⟩
  | scalar htag => exact .some ⟨.scalar htag, rfl, id⟩
  | sequence tag h => exact .some ⟨.sequence tag h, rfl, id⟩
  | mapping tag h => exact .some ⟨.mapping tag h, rfl, id⟩

/-- The same tag leaves values alike. -/
theorem meaningApart_under (tag : Option (List Char)) {same : Prop} {m m' : Meaning} {left : Nat}
    (h : MeaningApart x y same (m, left) (m', left)) :
    MeaningApart x y same (m.under tag, left) (m'.under tag, left) := by
  unfold Meaning.under
  cases ownTag? tag with
  | none => exact h
  | some name => exact ⟨.object (.cons (.mk name h.1) .nil), rfl, fun _ => rfl⟩

section Inner

variable {inner? inner'? : Nat → Part → Option (Meaning × Nat)}
  (hinner : ∀ left p p', p.Apart x y p' →
    Option.Rel (MeaningApart x y (p.Close x y p')) (inner? left p) (inner'? left p'))

include hinner

theorem items?_apart {items items' : List Part} (h : List.Forall₂ (Part.Apart x y) items items')
    (left : Nat) :
    Option.Rel (fun r s => List.Forall₂ (Json.Alike (String.ofList x) (String.ofList y)) r.1 s.1 ∧
      s.2 = r.2) (items? inner? left items) (items? inner'? left items') := by
  induction h generalizing left with
  | nil => exact .some ⟨.nil, rfl⟩
  | cons hitem hrest ih =>
    refine rel_bind (hinner left _ _ hitem) fun r s _ hrs => ?_
    obtain ⟨m, left⟩ := r
    obtain ⟨m', left'⟩ := s
    obtain ⟨hvalue, rfl, -⟩ := hrs
    exact rel_bind (ih _) fun r s _ hrs => .some ⟨.cons hvalue hrs.1, hrs.2⟩

theorem entries?_apart {entries entries' : List (Part × Part)}
    (h : List.Forall₂ (Keyed (Part.Apart x y)) entries entries') (seen : List Atom) (left : Nat) :
    Option.Rel (fun r s => Fields.Alike (String.ofList x) (String.ofList y) r.1 s.1 ∧ s.2 = r.2)
      (entries? inner? seen left entries) (entries? inner'? seen left entries') := by
  induction h generalizing seen left with
  | nil => exact .some ⟨.nil, rfl⟩
  | cons hentry hrest ih =>
    cases hentry with
    | mk key hvalue =>
      refine rel_bind (hinner left _ _ (.same key)) fun r s _ hrs => ?_
      obtain ⟨k, left⟩ := r
      obtain ⟨k', left'⟩ := s
      obtain ⟨-, rfl, hatom⟩ := hrs
      dsimp only at hatom ⊢
      rw [hatom (Part.close_refl key)]
      refine rel_bind_same fun atom => rel_bind_same fun text => rel_ite .none ?_
      refine rel_bind (hinner _ _ _ hvalue) fun r s _ hrs => ?_
      obtain ⟨m, left⟩ := r
      obtain ⟨m', left'⟩ := s
      obtain ⟨hjson, rfl, -⟩ := hrs
      exact rel_bind (ih _ _) fun r s _ hrs => .some ⟨.cons (.mk text hjson) hrs.1, hrs.2⟩

end Inner

theorem body?_apart {inner? inner'? : Option (Nat → Part → Option (Meaning × Nat))}
    (hinner : Option.Rel (fun f g => ∀ left p p', p.Apart x y p' →
      Option.Rel (MeaningApart x y (p.Close x y p')) (f left p) (g left p')) inner? inner'?)
    (left : Nat) {p p' : Part} (h : p.Apart x y p') :
    Option.Rel (MeaningApart x y (p.Close x y p')) (body? inner? left p)
      (body? inner'? left p') := by
  have hsequence : ∀ same tag {items items' : List Part},
      List.Forall₂ (Part.Apart x y) items items' → Option.Rel (MeaningApart x y same)
        (body? inner? left (.sequence tag items)) (body? inner'? left (.sequence tag items')) := by
    intro same tag items items' hitems
    refine rel_bind hinner fun f g _ hfg => rel_bind (items?_apart hfg hitems left) fun r s _ hrs =>
      ?_
    obtain ⟨values, left⟩ := r
    obtain ⟨values', left'⟩ := s
    obtain ⟨hvalues, rfl⟩ := hrs
    exact .some (meaningApart_under tag ⟨.array hvalues, rfl, fun _ => rfl⟩)
  have hmapping : ∀ same tag {entries entries' : List (Part × Part)},
      List.Forall₂ (Keyed (Part.Apart x y)) entries entries' →
      Option.Rel (MeaningApart x y same) (body? inner? left (.mapping tag entries))
        (body? inner'? left (.mapping tag entries')) := by
    intro same tag entries entries' hentries
    refine rel_bind hinner fun f g _ hfg => rel_bind (entries?_apart hfg hentries [] left)
      fun r s _ hrs => ?_
    obtain ⟨fields, left⟩ := r
    obtain ⟨fields', left'⟩ := s
    obtain ⟨hfields, rfl⟩ := hrs
    exact .some (meaningApart_under tag ⟨.object hfields.ofList, rfl, fun _ => rfl⟩)
  cases h with
  | same p =>
    cases p with
    | scalar tag plain text => exact rel_bind_same fun a => .some ⟨.same _, rfl, fun _ => rfl⟩
    | sequence tag items => exact hsequence _ tag (List.forall₂_same.mpr fun p _ => .same p)
    | mapping tag entries =>
      exact hmapping _ tag (List.forall₂_same.mpr fun e _ => .mk e.1 (.same e.2))
    | _ => exact .none
  | scalar htag =>
    rw [body?, body?, scalar?_of_textual htag, scalar?_of_textual htag]
    refine .some (meaningApart_under _ ⟨.string, rfl, fun hclose => ?_⟩)
    rcases hclose.2 with hsame | hnone
    · cases hsame
      rfl
    · exact absurd rfl (hnone _ false x)
  | sequence tag h => exact hsequence _ tag h
  | mapping tag h => exact hmapping _ tag h

theorem follow?_bind_apart (htargets : TargetsClose x y targets targets')
    {inner? inner'? : Option (Nat → Part → Option (Meaning × Nat))}
    (hinner : Option.Rel (fun f g => ∀ left p p', p.Apart x y p' →
      Option.Rel (MeaningApart x y (p.Close x y p')) (f left p) (g left p')) inner? inner'?)
    (left : Nat) {p p' : Part} (h : p.Apart x y p') :
    Option.Rel (MeaningApart x y (p.Close x y p'))
      ((follow? targets left p).bind fun r => body? inner? r.2 r.1)
      ((follow? targets' left p').bind fun r => body? inner'? r.2 r.1) := by
  refine rel_bind (follow?_apart htargets left h) fun r s _ hrs => ?_
  rw [hrs.2.1]
  exact rel_mono (body?_apart hinner r.2 hrs.1) fun m m' hm => ⟨hm.1, hm.2.1, hm.2.2 ∘ hrs.2.2⟩

/-- Parts that differ in values mean values that are alike. The induction is on how many collections
may stand inside each other, since an alias leads to a part that is no smaller. -/
theorem meaning?_apart (htargets : TargetsClose x y targets targets') (depth left : Nat)
    (p p' : Part) (h : p.Apart x y p') :
    Option.Rel (MeaningApart x y (p.Close x y p')) (meaning? targets depth left p)
      (meaning? targets' depth left p') := by
  induction depth generalizing left p p' with
  | zero => exact follow?_bind_apart htargets .none left h
  | succ depth ih => exact follow?_bind_apart htargets (.some ih) left h

/-! ## Trees -/

theorem sizes_append (front back : List Node) :
    sizes (front ++ back) = sizes front + sizes back := by
  induction front with
  | nil => rw [List.nil_append, sizes, Nat.zero_add]
  | cons node front ih => rw [List.cons_append, sizes, sizes, ih, Nat.add_assoc]

theorem entrySizes_append (front back : List (Node × Node)) :
    entrySizes (front ++ back) = entrySizes front + entrySizes back := by
  induction front with
  | nil => rw [List.nil_append, entrySizes, Nat.zero_add]
  | cons entry front ih =>
    rw [List.cons_append, entrySizes, entrySizes, ih]
    omega

theorem size_exchanged {a b : Node} (h : ValueExchanged x y a b) : b.size = a.size := by
  induction h with
  | scalar htag => rfl
  | item marks front back h ih =>
    rw [Node.size, Node.size, sizes_append, sizes_append, sizes, sizes, ih]
  | value marks front key back h ih =>
    rw [Node.size, Node.size, entrySizes_append, entrySizes_append, entrySizes, entrySizes, ih]

/-- Trees that differ in one scalar that is a value spell values that are alike. -/
theorem value?_exchanged {a b : Node} (h : ValueExchanged x y a b) :
    Option.Rel (Json.Alike (String.ofList x) (String.ofList y)) a.value? b.value? := by
  unfold Node.value?
  rw [size_exchanged h]
  refine rel_bind (link?_apart h _) fun r s _ hrs => ?_
  have htargets := List.forall₂_reverse_iff.mpr hrs.2.2
  exact rel_bind (meaning?_apart htargets _ _ _ _ hrs.1) fun r s _ hrs => .some hrs.1

end DocPages.Yaml
