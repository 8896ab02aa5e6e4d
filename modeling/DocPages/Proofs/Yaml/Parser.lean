-- What a page relies on where it leaves a text to a reader of YAML: what the rules of YAML say of
-- the line breaks at the end of a text, and what a scalar that is not plain stands for. A reader
-- that keeps to them takes no notice of breaks at the end, unless a block scalar counts them.
import DocPages.Proofs.Yaml.Runs
import DocPages.Proofs.Yaml.Values

namespace DocPages.Yaml

open Text (isLineBreak)

variable {cs cut : List Char} {chomp : Chomp}

/-- A reader of YAML: the tree of a text, the value that a tree spells, and the sign of the block
scalar in which a text ends. -/
structure Parser where
  node? : List Char → Option Node
  value? : Node → Option Json
  sign? : List Char → Option Chomp

namespace Parser

/-- The value that a text spells. -/
def read? (P : Parser) (cs : List Char) : Option Json := (P.node? cs).bind P.value?

/-- Of the breaks `cut` behind it the block scalar in which a text ends has what its sign keeps, and
nothing else of the tree hangs on its text. -/
def Chomps (P : Parser) (cs cut : List Char) (chomp : Chomp) : Prop :=
  ∃ (last longer : BlockText) (around : List Char → Option Node), last.LongerBy cut longer ∧
    (∀ x y, Option.Rel (Exchanged x y) (around x) (around y)) ∧
    P.node? cs = around (last.closed chomp) ∧ P.node? (cs ++ cut) = around (longer.closed chomp)

/-- What the rules of YAML say of breaks at the end of a text, and of the text of scalars. -/
structure Faithful (P : Parser) : Prop where
  /-- The end of a text ends its last line as a break does. -/
  lineEnd {cs : List Char} {c : Char} (hunbroken : Unbroken cs) (hsign : P.sign? cs = none)
    (hc : isLineBreak c = true) : P.node? (cs ++ [c]) = P.node? cs
  /-- Empty lines are no content outside of scalars. -/
  emptyLine {cs cut : List Char} {c : Char} (hunbroken : Unbroken cs) (hsign : P.sign? cs = none)
    (hcut : Breaks cut) (hne : cut ≠ []) (hc : isLineBreak c = true) :
    P.node? (cs ++ (cut ++ [c])) = P.node? (cs ++ cut)
  /-- The sign of a block scalar says what is kept of the breaks behind its lines. -/
  chomping {cs cut : List Char} {chomp : Chomp} (hunbroken : Unbroken cs) (hcut : Breaks cut)
    (hsign : P.sign? cs = some chomp) : P.Chomps cs cut chomp
  /-- A scalar that is not plain stands for its text, unless a tag says otherwise. -/
  text {x y : List Char} {a b : Node} (h : ValueExchanged x y a b) :
    Option.Rel (Json.Alike (String.ofList x) (String.ofList y)) (P.value? a) (P.value? b)

variable {P : Parser}

/-! ## Breaks at the end -/

/-- A text that does not end in a block scalar is the same tree with more breaks at its end. -/
theorem Faithful.node?_of_no_sign (hP : P.Faithful) (hunbroken : Unbroken cs) (hcut : Breaks cut)
    (hsign : P.sign? cs = none) : P.node? (cs ++ cut) = P.node? cs := by
  induction cut using List.reverseRecOn with
  | nil => rw [List.append_nil]
  | append_singleton cut c ih =>
    have hc : isLineBreak c = true := hcut c (by simp)
    have hfront : Breaks cut := fun b hb => hcut b (List.mem_append_left _ hb)
    by_cases hne : cut = []
    · subst hne
      exact hP.lineEnd hunbroken hsign hc
    · rw [hP.emptyLine hunbroken hsign hfront hne hc, ih hfront]

/-- A text that ends in a block scalar is, with more breaks at its end, the same tree but for the
text of that scalar. -/
theorem Faithful.node?_of_sign (hP : P.Faithful) (hunbroken : Unbroken cs) (hcut : Breaks cut)
    (hsign : P.sign? cs = some chomp) :
    ∃ text n, chomp.Lacks cut n ∧
      Option.Rel (Exchanged text (text ++ List.replicate n '\n')) (P.node? cs)
        (P.node? (cs ++ cut)) := by
  obtain ⟨last, longer, around, hlonger, haround, hnode, hnode'⟩ :=
    hP.chomping hunbroken hcut hsign
  have hchomped : Chomped cut chomp (last.closed chomp) (longer.closed chomp) :=
    ⟨last, longer, hlonger, rfl, rfl⟩
  obtain ⟨n, hn, htext⟩ := hchomped.lacks
  rw [htext] at hnode'
  rw [hnode, hnode']
  exact ⟨last.closed chomp, n, hn, haround _ _⟩

/-- Where the sign of a last block scalar drops breaks the tree is the same too. -/
theorem Faithful.node?_of_strip (hP : P.Faithful) (hunbroken : Unbroken cs) (hcut : Breaks cut)
    (hsign : P.sign? cs = some .strip) : P.node? (cs ++ cut) = P.node? cs := by
  obtain ⟨last, longer, around, hlonger, -, hnode, hnode'⟩ := hP.chomping hunbroken hcut hsign
  have hchomped : Chomped cut .strip (last.closed .strip) (longer.closed .strip) :=
    ⟨last, longer, hlonger, rfl, rfl⟩
  obtain ⟨n, rfl, htext⟩ := hchomped.lacks
  rw [hnode, hnode', htext, List.replicate_zero, List.append_nil]

/-! ## The reader of pages -/

/-- The reader that pages are compiled with. -/
def standard : Parser := ⟨Node.read?, Node.value?, lastSign?⟩

theorem nodeOf?_eq_none {ts : List Token} (h : ¬ Level ts) : nodeOf? ts = none :=
  Option.eq_none_iff_forall_ne_some.mpr fun _ hnode => h (level_of_nodeOf? hnode)

theorem node?_standard_of_no_sign (hunbroken : Unbroken cs) (hcut : Breaks cut)
    (h : lastSign? cs = none) : standard.node? (cs ++ cut) = standard.node? cs := by
  change Node.read? (cs ++ cut) = Node.read? cs
  rw [read?_eq, read?_eq]
  rcases (tokens?_longer hcut hunbroken).1 h with hsame | ⟨hopen, hopen'⟩
  · rw [hsame]
  · rw [Option.bind_eq_none_iff.mpr fun ts hts => nodeOf?_eq_none (hopen ts hts),
      Option.bind_eq_none_iff.mpr fun ts hts => nodeOf?_eq_none (hopen' ts hts)]

theorem chomping_standard (hunbroken : Unbroken cs) (hcut : Breaks cut)
    (h : lastSign? cs = some chomp) : standard.Chomps cs cut chomp := by
  have htokens := (tokens?_longer hcut hunbroken).2 chomp h
  have hread : standard.node? cs = (tokens? cs).bind nodeOf? := read?_eq cs
  have hread' : standard.node? (cs ++ cut) = (tokens? (cs ++ cut)).bind nodeOf? := read?_eq _
  unfold Chomps
  rw [hread, hread']
  cases hts : tokens? cs with
  | none =>
    rw [hts] at htokens
    rw [eq_none_of_rel htokens]
    exact ⟨_, _, fun _ => none, .empty ⟨[], [], [], false⟩, fun _ _ => .none, rfl, rfl⟩
  | some ts =>
    rw [hts] at htokens
    obtain ⟨us, hus, x, y, before, after, ⟨last, longer, hlonger, rfl, rfl⟩, rfl, rfl⟩ :=
      exists_of_rel htokens
    rw [hus]
    refine ⟨last, longer, fun text => nodeOf? (before ++ .scalar false text :: after), hlonger, ?_,
      rfl, rfl⟩
    exact fun x y => nodeOf?_differ (differ_append before after)

theorem faithful_standard : standard.Faithful where
  lineEnd hunbroken hsign hc := by
    refine node?_standard_of_no_sign hunbroken (fun b hb => ?_) hsign
    rwa [List.mem_singleton.mp hb]
  emptyLine {cs cut c} hunbroken hsign hcut _ hc := by
    have hlonger : Breaks (cut ++ [c]) := by
      intro b hb
      rcases List.mem_append.mp hb with hb | hb
      · exact hcut b hb
      · rwa [List.mem_singleton.mp hb]
    rw [node?_standard_of_no_sign hunbroken hlonger hsign,
      node?_standard_of_no_sign hunbroken hcut hsign]
  chomping := chomping_standard
  text := value?_exchanged

end Parser

end DocPages.Yaml
