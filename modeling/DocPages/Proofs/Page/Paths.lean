-- Paths by their components. What counts of a path is what it starts with and the
-- names between its slashes. A slash parts a path into the components in front and
-- the names behind, so a root comes off where its components are the first ones, and
-- what is left spells the others.
import DocPages.Page.Path
import DocPages.Proofs.Text.Lines
import Mathlib.Data.List.DropRight

namespace DocPages.Page

open Text (joinWith)

/-- A component of a path: the slash or the dot at its very front, or a name. -/
inductive Component where
  | root
  | here
  | name (piece : List Char)
  deriving DecidableEq

variable {cs front back piece file root : List Char} {pieces : List (List Char)} {p q : Path}

/-! ## Names -/

/-- Whether a piece between slashes is a name: an empty one and a single dot are none. -/
def isName (piece : List Char) : Bool := piece != [] && piece != ['.']

/-- The names among some pieces. -/
def namesOf (pieces : List (List Char)) : List Component := (pieces.filter isName).map .name

/-- The names between the slashes of a text. -/
def namesIn (cs : List Char) : List Component := namesOf (Path.split cs)

/-- What a text starts with, where that is no name: a slash, or a dot that is a piece of its own. -/
def leadOf (cs : List Char) : List Component :=
  if cs.head? = some '/' then [.root]
  else if (Path.split cs).head? = some ['.'] then [.here] else []

/-- The components of the path that a text spells. -/
def components (cs : List Char) : List Component := leadOf cs ++ namesIn cs

theorem isIdle_eq (piece : List Char) : Path.isIdle piece = !isName piece := by
  simp [Path.isIdle, isName, bne]

@[simp]
theorem namesOf_append (front back : List (List Char)) :
    namesOf (front ++ back) = namesOf front ++ namesOf back := by
  simp [namesOf]

theorem namesOf_cons_name (h : isName piece = true) (pieces : List (List Char)) :
    namesOf (piece :: pieces) = .name piece :: namesOf pieces := by
  simp [namesOf, h]

theorem namesOf_cons_idle (h : isName piece = false) (pieces : List (List Char)) :
    namesOf (piece :: pieces) = namesOf pieces := by
  simp [namesOf, h]

theorem namesOf_eq_nil_iff : namesOf pieces = [] ↔ ∀ piece ∈ pieces, isName piece = false := by
  simp [namesOf]

theorem split_ne_nil (cs : List Char) : Path.split cs ≠ [] := Text.splitBy_ne_nil _ cs

theorem slash_not_mem_split (h : piece ∈ Path.split cs) : '/' ∉ piece := by
  intro hslash
  have hnot := Text.forall_mem_of_mem_splitBy h '/' hslash
  cases hnot

theorem split_append (front back : List Char) :
    Path.split (front ++ '/' :: back) = Path.split front ++ Path.split back :=
  Text.splitBy_append_cons (p := (· == '/')) rfl front back

theorem split_piece (h : '/' ∉ piece) : Path.split piece = [piece] := by
  refine Text.splitBy_of_forall fun c hc => beq_false_of_ne ?_
  rintro rfl
  exact h hc

/-- A slash parts the names in front of it from those behind. -/
theorem namesIn_append (front back : List Char) :
    namesIn (front ++ '/' :: back) = namesIn front ++ namesIn back := by
  unfold namesIn
  rw [split_append, namesOf_append]

/-- Pieces that are joined spell the names among them. -/
theorem namesIn_joinWith (h : ∀ piece ∈ pieces, '/' ∉ piece) :
    namesIn (joinWith ['/'] pieces) = namesOf pieces := by
  induction pieces with
  | nil => decide
  | cons piece rest ih =>
    have hpiece : namesIn piece = namesOf [piece] := by
      rw [namesIn, split_piece (h piece List.mem_cons_self)]
    cases rest with
    | nil => exact hpiece
    | cons next rest =>
      have hjoin : joinWith ['/'] (piece :: next :: rest) =
          piece ++ '/' :: joinWith ['/'] (next :: rest) := by
        simp [joinWith]
      rw [hjoin, namesIn_append, hpiece, ih fun p hp => h p (List.mem_cons_of_mem _ hp),
        ← namesOf_append]
      rfl

/-! ## Components -/

/-- Behind the slash at its front a path has names only. -/
theorem components_slash (cs : List Char) : components ('/' :: cs) = .root :: namesIn cs := by
  have hnames : namesIn ('/' :: cs) = namesIn cs := namesIn_append [] cs
  unfold components
  rw [hnames]
  rfl

/-- A slash that is not the first character parts the components in front of it from the names
behind. -/
theorem components_append (hfront : front ≠ []) (back : List Char) :
    components (front ++ '/' :: back) = components front ++ namesIn back := by
  have hlead : leadOf (front ++ '/' :: back) = leadOf front := by
    unfold leadOf
    rw [split_append, List.head?_append_of_ne_nil _ hfront,
      List.head?_append_of_ne_nil _ (split_ne_nil front)]
  unfold components
  rw [hlead, namesIn_append, List.append_assoc]

/-- Of two slashes in a row one makes no difference. -/
theorem components_double_slash (front back : List Char) :
    components (front ++ '/' :: '/' :: back) = components (front ++ '/' :: back) := by
  have hnames : namesIn ('/' :: back) = namesIn back := namesIn_append [] back
  by_cases hfront : front = []
  · rw [hfront, List.nil_append, List.nil_append, components_slash, components_slash, hnames]
  · rw [components_append hfront, components_append hfront, hnames]

/-- A name is a component of its own. -/
theorem components_name (hslash : '/' ∉ piece) (hname : isName piece = true) :
    components piece = [.name piece] := by
  have hhead : piece.head? ≠ some '/' := fun h => hslash (List.mem_of_mem_head? h)
  have hdot : piece ≠ ['.'] := by
    rintro rfl
    cases hname
  unfold components leadOf namesIn
  rw [split_piece hslash, if_neg hhead, if_neg (by simpa using hdot), namesOf_cons_name hname]
  rfl

/-- Joined pieces, the first of which is a name, spell the names among them. -/
theorem components_joinWith (hslash : ∀ piece ∈ pieces, '/' ∉ piece)
    (hname : ∀ piece ∈ pieces.head?, isName piece = true) :
    components (joinWith ['/'] pieces) = namesOf pieces := by
  cases pieces with
  | nil => decide
  | cons piece rest =>
    have hpiece : isName piece = true := hname piece rfl
    have hfirst := components_name (hslash piece List.mem_cons_self) hpiece
    cases rest with
    | nil => rw [joinWith, hfirst, namesOf_cons_name hpiece]; rfl
    | cons next rest =>
      have hjoin : joinWith ['/'] (piece :: next :: rest) =
          piece ++ '/' :: joinWith ['/'] (next :: rest) := by
        simp [joinWith]
      have hne : piece ≠ [] := by
        rintro rfl
        cases hpiece
      rw [hjoin, components_append hne, hfirst, namesOf_cons_name hpiece,
        namesIn_joinWith fun p hp => hslash p (List.mem_cons_of_mem _ hp)]
      rfl

/-! ## Paths -/

/-- The components that the start of a path gives. -/
def Anchor.components : Anchor → List Component
  | .root => [.root]
  | .here => [.here]
  | .none => []

namespace Path

/-- The components of a path. -/
def components (p : Path) : List Component := p.anchor.components ++ p.names.map .name

theorem map_names (p : Path) : p.names.map .name = namesOf p.pieces := by
  simp [names, namesOf, isIdle_eq]

theorem components_eq (p : Path) : p.components = p.anchor.components ++ namesOf p.pieces := by
  rw [components, map_names]

/-- The pieces of a path spell its text. -/
theorem text_ofChars (cs : List Char) :
    anchorChars (ofChars cs).anchor ++ joinWith ['/'] (ofChars cs).pieces = cs := by
  unfold ofChars
  split
  · simp [anchorChars, split, Text.joinWith_splitBy]
  · rfl
  · simp [anchorChars, split, Text.joinWith_splitBy]
  · simp [anchorChars, split, Text.joinWith_splitBy]

theorem slash_not_mem_pieces (cs : List Char) : ∀ piece ∈ (ofChars cs).pieces, '/' ∉ piece := by
  unfold ofChars
  split
  · exact fun _ h => slash_not_mem_split h
  · exact List.forall_mem_nil _
  · exact fun _ h => slash_not_mem_split h
  · exact fun _ h => slash_not_mem_split h

/-- The components of a text are those of the path that it spells. -/
theorem components_ofChars (cs : List Char) : Page.components cs = (ofChars cs).components := by
  rw [components_eq]
  unfold ofChars
  split
  · exact components_slash _
  · decide
  · rename_i rest
    have hdot : ['.'] ≠ [] := by decide
    exact components_append hdot rest
  · rename_i hroot hdot hhere
    have hlead : leadOf cs = [] := by
      unfold leadOf
      rw [if_neg, if_neg]
      · intro hfirst
        obtain ⟨more, hsplit⟩ := List.head?_eq_some_iff.mp hfirst
        have htext := Text.joinWith_splitBy '/' cs
        have hsplit' : Text.splitBy (· == '/') cs = ['.'] :: more := hsplit
        rw [hsplit'] at htext
        cases more with
        | nil => exact hdot htext.symm
        | cons next more => exact hhere (joinWith ['/'] (next :: more)) (by simp [← htext, joinWith])
      · intro hfirst
        obtain ⟨rest, rfl⟩ := List.head?_eq_some_iff.mp hfirst
        exact hroot rest rfl
    unfold Page.components
    rw [hlead]
    rfl

/-! ## Pieces that count for nothing -/

theorem trimEndPieces_spec (pieces : List (List Char)) :
    ∃ idle, pieces = trimEndPieces pieces ++ idle ∧ (∀ piece ∈ idle, isName piece = false) ∧
      ∀ piece ∈ (trimEndPieces pieces).getLast?, isName piece = true := by
  refine ⟨pieces.rtakeWhile isIdle, List.rdropWhile_append_rtakeWhile.symm, ?_, ?_⟩
  · intro piece hpiece
    have hidle := List.mem_rtakeWhile_imp hpiece
    rw [isIdle_eq] at hidle
    simpa using hidle
  · intro piece hlast
    have hne : pieces.rdropWhile isIdle ≠ [] := by
      intro hnil
      have hempty : trimEndPieces pieces = [] := hnil
      rw [hempty] at hlast
      cases hlast
    have hnot := List.rdropWhile_last_not isIdle pieces hne
    have hlast' : (pieces.rdropWhile isIdle).getLast? = some piece := hlast
    rw [List.getLast?_eq_some_getLast hne, Option.some_inj] at hlast'
    rw [hlast', isIdle_eq] at hnot
    simpa using hnot

theorem prefix_trimEndPieces (pieces : List (List Char)) : trimEndPieces pieces <+: pieces :=
  List.rdropWhile_prefix isIdle pieces

theorem namesOf_trimEndPieces (pieces : List (List Char)) :
    namesOf (trimEndPieces pieces) = namesOf pieces := by
  obtain ⟨idle, hpieces, hidle, -⟩ := trimEndPieces_spec pieces
  conv_rhs => rw [hpieces, namesOf_append, namesOf_eq_nil_iff.mpr hidle, List.append_nil]

theorem behind_zero (pieces : List (List Char)) : behind 0 pieces = pieces.dropWhile isIdle := by
  cases pieces <;> rfl

/-- Behind the first names the others are left, and what is left begins with one of them. -/
theorem behind_spec (n : Nat) (pieces : List (List Char)) :
    namesOf (behind n pieces) = (namesOf pieces).drop n ∧
      (∀ piece ∈ (behind n pieces).head?, isName piece = true) ∧ behind n pieces ⊆ pieces := by
  induction pieces generalizing n with
  | nil => cases n <;> simp [behind, namesOf]
  | cons piece rest ih =>
    cases hpiece : isName piece with
    | false =>
      have hbehind : behind n (piece :: rest) = behind n rest := by
        cases n with
        | zero => simp [behind_zero, isIdle_eq, hpiece]
        | succ n => simp [behind, isIdle_eq, hpiece]
      obtain ⟨hnames, hhead, hsub⟩ := ih n
      rw [hbehind, namesOf_cons_idle hpiece]
      exact ⟨hnames, hhead, List.subset_cons_of_subset _ hsub⟩
    | true =>
      cases n with
      | zero =>
        have hbehind : behind 0 (piece :: rest) = piece :: rest := by
          simp [behind, isIdle_eq, hpiece]
        rw [hbehind]
        refine ⟨rfl, ?_, List.Subset.refl _⟩
        rintro p ⟨⟩
        exact hpiece
      | succ n =>
        have hbehind : behind (n + 1) (piece :: rest) = behind n rest := by
          simp [behind, isIdle_eq, hpiece]
        obtain ⟨hnames, hhead, hsub⟩ := ih n
        rw [hbehind, namesOf_cons_name hpiece, List.drop_succ_cons]
        exact ⟨hnames, hhead, List.subset_cons_of_subset _ hsub⟩

/-- Without the pieces at its end that count for nothing a path has the same components. -/
theorem components_trimmed (cs : List Char) :
    Page.components (anchorChars (ofChars cs).anchor ++
      joinWith ['/'] (trimEndPieces (ofChars cs).pieces)) = Page.components cs := by
  obtain ⟨idle, hpieces, hidle, hlast⟩ := trimEndPieces_spec (ofChars cs).pieces
  have htext := text_ofChars cs
  by_cases hnil : trimEndPieces (ofChars cs).pieces = []
  · have hnames : namesOf (ofChars cs).pieces = [] := by
      rw [← namesOf_trimEndPieces, hnil]
      rfl
    rw [hnil, components_ofChars cs, components_eq, hnames]
    cases (ofChars cs).anchor <;> decide
  · cases idle with
    | nil => rw [List.append_nil] at hpieces; rw [← hpieces, htext]
    | cons piece idle =>
      have hjoin : joinWith ['/'] (ofChars cs).pieces =
          joinWith ['/'] (trimEndPieces (ofChars cs).pieces) ++
            '/' :: joinWith ['/'] (piece :: idle) := by
        conv_lhs => rw [hpieces]
        simp only [Text.joinWith_eq_intercalate]
        rw [Text.intercalate_append hnil (List.cons_ne_nil _ _)]
        simp
      have hslash : ∀ p ∈ piece :: idle, '/' ∉ p := by
        intro p hp
        refine slash_not_mem_pieces cs p ?_
        rw [hpieces]
        exact List.mem_append_right _ hp
      have hfront : anchorChars (ofChars cs).anchor ++
          joinWith ['/'] (trimEndPieces (ofChars cs).pieces) ≠ [] := by
        -- The last piece that is left is a name, and an empty text spells none.
        intro hempty
        have hnames := namesIn_joinWith fun p (hp : p ∈ trimEndPieces (ofChars cs).pieces) =>
          slash_not_mem_pieces cs p ((prefix_trimEndPieces _).subset hp)
        rw [(List.append_eq_nil_iff.mp hempty).2] at hnames
        have hidle := namesOf_eq_nil_iff.mp hnames.symm _ (List.getLast_mem hnil)
        rw [hlast _ (List.getLast?_eq_some_getLast hnil)] at hidle
        cases hidle
      conv_rhs => rw [← htext, hjoin, ← List.append_assoc]
      rw [components_append hfront, namesIn_joinWith hslash, namesOf_eq_nil_iff.mpr hidle, List.append_nil]

/-! ## Below a root -/

theorem isEmpty_iff : p.isEmpty = true ↔ p.components = [] := by
  unfold isEmpty components
  cases p.anchor <;> simp [Anchor.components]

/-- The first components of a path are those of another one that is not empty exactly if both start
with the same and its names are the first names. -/
theorem components_prefix_iff (h : p.components ≠ []) :
    p.components <+: q.components ↔ p.anchor = q.anchor ∧ p.names <+: q.names := by
  have hname : Function.Injective Component.name := fun _ _ heq => Component.name.inj heq
  unfold components at h ⊢
  rw [← List.prefix_map_iff_of_injective hname]
  generalize p.names = names at h ⊢
  generalize q.names = others
  cases hp : p.anchor with
  | root => cases q.anchor <;> cases others <;> simp [Anchor.components]
  | here => cases q.anchor <;> cases others <;> simp [Anchor.components]
  | none =>
    cases names with
    | nil => simp [hp, Anchor.components] at h
    | cons piece rest => cases q.anchor <;> simp [Anchor.components]

/-- A path has the components of another one exactly if it starts with the same and has its names. -/
theorem components_inj : p.components = q.components ↔ p.anchor = q.anchor ∧ p.names = q.names := by
  have hname : ∀ x y, Component.name x = Component.name y → x = y :=
    fun _ _ heq => Component.name.inj heq
  unfold components
  rw [← List.map_inj_right hname]
  generalize p.names = names
  generalize q.names = others
  cases p.anchor <;> cases q.anchor <;> cases names <;> cases others <;> simp [Anchor.components]

/-- What is left of a path below a root spells its components behind those of the root. -/
theorem below?_of_append {rest : List Component}
    (h : Page.components file = Page.components root ++ rest) :
    ∃ text, below? (ofChars file) (ofChars root) = some text ∧ Page.components text = rest := by
  unfold below?
  by_cases hroot : (ofChars root).isEmpty = true
  · rw [if_pos hroot]
    rw [isEmpty_iff, ← components_ofChars] at hroot
    rw [hroot, List.nil_append] at h
    exact ⟨_, rfl, (components_trimmed file).trans h⟩
  · have hne : (ofChars root).components ≠ [] := fun hnil => hroot (isEmpty_iff.mpr hnil)
    rw [components_ofChars, components_ofChars root] at h
    obtain ⟨hanchor, hnames⟩ := (components_prefix_iff hne).mp ⟨rest, h.symm⟩
    obtain ⟨hleft, hhead, hsub⟩ :=
      behind_spec (ofChars root).names.length (ofChars file).pieces
    rw [if_neg hroot, if_pos (by simp [hanchor, hnames])]
    refine ⟨_, rfl, ?_⟩
    rw [components_joinWith, namesOf_trimEndPieces, hleft]
    · rw [components, components, hanchor, List.append_assoc, List.append_cancel_left_eq,
        map_names (ofChars file)] at h
      rw [h]
      exact List.drop_left' (List.length_map _)
    · intro piece hpiece
      exact slash_not_mem_pieces file piece (hsub ((prefix_trimEndPieces _).subset hpiece))
    · intro piece hpiece
      obtain ⟨idle, hidle⟩ := prefix_trimEndPieces (behind (ofChars root).names.length
        (ofChars file).pieces)
      refine hhead piece ?_
      rw [← hidle, List.head?_append, hpiece]
      rfl

theorem below?_of_not_prefix (h : ¬ Page.components root <+: Page.components file) :
    below? (ofChars file) (ofChars root) = none := by
  rw [components_ofChars, components_ofChars file] at h
  have hne : (ofChars root).components ≠ [] := by
    intro hnil
    rw [hnil] at h
    exact h List.nil_prefix
  rw [components_prefix_iff hne] at h
  unfold below?
  rw [if_neg (mt isEmpty_iff.mp hne), if_neg]
  intro hboth
  simp only [Bool.and_eq_true, beq_iff_eq, List.isPrefixOf_iff_prefix] at hboth
  exact h ⟨hboth.1.symm, hboth.2⟩

/-- Of a root only the components count. -/
theorem below?_congr {root' : List Char} (h : Page.components root = Page.components root')
    (p : Path) : below? p (ofChars root) = below? p (ofChars root') := by
  rw [components_ofChars, components_ofChars, components_inj] at h
  unfold below? isEmpty
  rw [h.1, h.2]

theorem mem_of_mem_pieces {c : Char} (hpiece : piece ∈ (ofChars cs).pieces) (hc : c ∈ piece) :
    c ∈ cs := by
  have hsplit : ∀ text : List Char, piece ∈ split text → c ∈ text :=
    fun text h => (Text.infix_of_mem_splitBy h).subset hc
  unfold ofChars at hpiece
  split at hpiece
  · exact List.mem_cons_of_mem _ (hsplit _ hpiece)
  · cases hpiece
  · exact List.mem_cons_of_mem _ (hsplit _ hpiece)
  · exact hsplit _ hpiece

/-- What is left of a path is made of its characters, slashes and a dot. -/
theorem mem_below? {text : List Char} {c : Char}
    (h : below? (ofChars file) (ofChars root) = some text) (hc : c ∈ text) :
    c = '/' ∨ c = '.' ∨ c ∈ file := by
  have hjoin : ∀ pieces, pieces ⊆ (ofChars file).pieces →
      c ∈ joinWith ['/'] (trimEndPieces pieces) → c = '/' ∨ c = '.' ∨ c ∈ file := by
    intro pieces hsub hmem
    rcases Text.mem_joinWith hmem with hslash | ⟨piece, hpiece, hin⟩
    · exact Or.inl (List.mem_singleton.mp hslash)
    · have hfile := hsub ((prefix_trimEndPieces _).subset hpiece)
      exact Or.inr (Or.inr (mem_of_mem_pieces hfile hin))
  unfold below? at h
  split at h
  · cases h
    rcases List.mem_append.mp hc with hanchor | hmem
    · cases hstart : (ofChars file).anchor <;> rw [hstart] at hanchor <;>
        simp [anchorChars] at hanchor <;> simp [hanchor]
    · exact hjoin _ (List.Subset.refl _) hmem
  · split at h
    · cases h
      exact hjoin _ (behind_spec _ _).2.2 hc
    · cases h

end Path

/-! ## Names that begin alike -/

/-- A name behind a slash, or at the front, is a component of its own. -/
theorem components_append_name {tail : List Char} (hfront : front = [] ∨ ∃ text, front = text ++ ['/'])
    (hslash : '/' ∉ piece) (hname : isName piece = true)
    (htail : tail = [] ∨ ∃ back, tail = '/' :: back) :
    ∃ names, components (front ++ (piece ++ tail)) = components front ++ .name piece :: names := by
  have hne : piece ≠ [] := by
    rintro rfl
    cases hname
  obtain ⟨names, hnames⟩ : ∃ names, namesIn (piece ++ tail) = .name piece :: names := by
    have hpiece : namesIn piece = [.name piece] := by
      rw [namesIn, split_piece hslash, namesOf_cons_name hname]
      rfl
    rcases htail with rfl | ⟨back, rfl⟩
    · exact ⟨[], by rw [List.append_nil, hpiece]⟩
    · exact ⟨namesIn back, by rw [namesIn_append, hpiece]; rfl⟩
  rcases hfront with rfl | ⟨text, rfl⟩
  · rcases htail with rfl | ⟨back, rfl⟩
    · exact ⟨[], by rw [List.append_nil]; exact components_name hslash hname⟩
    · refine ⟨namesIn back, ?_⟩
      rw [List.nil_append, components_append hne, components_name hslash hname]
      rfl
  · refine ⟨names, ?_⟩
    by_cases htext : text = []
    · subst htext
      exact (components_slash _).trans (congrArg _ hnames)
    · have hend : components (text ++ ['/']) = components text := by
        rw [components_append htext]
        exact List.append_nil _
      rw [hend, List.append_assoc, List.singleton_append, components_append htext, hnames]

/-- A text goes on without a slash to its end or to the next slash. -/
theorem exists_piece (cs : List Char) : ∃ piece tail, cs = piece ++ tail ∧ '/' ∉ piece ∧
    (tail = [] ∨ ∃ back, tail = '/' :: back) := by
  have hpiece : ∀ piece : List Char, (∀ c ∈ piece, (c == '/') = false) → '/' ∉ piece :=
    fun piece h hmem => absurd (h '/' hmem) (by decide)
  induction cs using Text.piece_induction (· == '/') with
  | last piece h => exact ⟨piece, [], (List.append_nil _).symm, hpiece piece h, Or.inl rfl⟩
  | more piece c rest h hc _ =>
    obtain rfl := beq_iff_eq.mp hc
    exact ⟨piece, '/' :: rest, rfl, hpiece piece h, Or.inr ⟨rest, rfl⟩⟩

/-- A name is not among the components of a path where a longer name stands in its place. -/
theorem not_prefix_of_longer_name {name more : List Char}
    (hfront : front = [] ∨ ∃ text, front = text ++ ['/']) (hslash : '/' ∉ name)
    (hname : isName name = true) (hmore : more ≠ []) (hhead : more.head? ≠ some '/') :
    ¬ components (front ++ name) <+: components (front ++ (name ++ more)) := by
  obtain ⟨inside, tail, rfl, hinside, htail⟩ := exists_piece more
  have hne : inside ≠ [] := by
    rintro rfl
    rcases htail with rfl | ⟨back, rfl⟩
    · exact hmore rfl
    · exact hhead rfl
  have hlonger : isName (name ++ inside) = true := by
    have hlength := List.length_pos_iff.mpr hne
    have hdot : name ++ inside ≠ ['.'] := by
      intro heq
      have hsum := congrArg List.length heq
      have hempty : name ≠ [] := by
        rintro rfl
        cases hname
      have hname' := List.length_pos_iff.mpr hempty
      simp at hsum
      omega
    simp [isName, hne, hdot]
  obtain ⟨names, hshort⟩ := components_append_name hfront hslash hname (Or.inl rfl)
  have hslash' : '/' ∉ name ++ inside := by simp [hslash, hinside]
  obtain ⟨others, hlong⟩ := components_append_name hfront hslash' hlonger htail
  rw [List.append_nil] at hshort
  rw [← List.append_assoc name, hshort, hlong, List.prefix_append_right_inj, List.cons_prefix_cons]
  rintro ⟨heq, -⟩
  have hnil := List.self_eq_append_right.mp (Component.name.inj heq)
  exact hne hnil

/-! ## The law -/

theorem toList_relativePath {file root : String} (h : '\\' ∉ file.toList) :
    (relativePath file root).toList =
      ((Path.ofChars file.toList).below? (Path.ofChars root.toList)).getD file.toList := by
  have hkept : ∀ cs : List Char, (∀ c ∈ cs, c = '/' ∨ c = '.' ∨ c ∈ file.toList) →
      cs.map forwardSlash = cs := by
    intro cs hcs
    conv_rhs => rw [← List.map_id cs]
    refine List.map_congr_left fun c hc => ?_
    have hne : c ≠ '\\' := by
      rintro rfl
      rcases hcs _ hc with hslash | hdot | hmem
      · cases hslash
      · cases hdot
      · exact h hmem
    simp [forwardSlash, hne]
  unfold relativePath
  rw [String.toList_ofList]
  refine hkept _ fun c hc => ?_
  cases hbelow : (Path.ofChars file.toList).below? (Path.ofChars root.toList) with
  | none =>
    rw [hbelow] at hc
    exact Or.inr (Or.inr hc)
  | some text =>
    rw [hbelow] at hc
    exact Path.mem_below? hbelow hc

theorem relativePath_congr {file root root' : String}
    (h : components root.toList = components root'.toList) :
    relativePath file root = relativePath file root' := by
  unfold relativePath
  rw [Path.below?_congr h]

end DocPages.Page
