-- The tokens of a text with more line breaks at its end. A whole run is in step with the run in the
-- longer text up to the end, and there the same blocks close. Only two things can differ: whether
-- tokens come out at all when brackets are left open, which no document lets pass, and the text of
-- a block scalar that the text ends in.
import DocPages.Proofs.Yaml.Longer

namespace DocPages.Yaml

namespace Lexer

variable {s r : Lexer} {cut : List Char} {fuel fuel' : Nat}

/-! ## One turn of a run -/

/-- The state in front of the next token. -/
def ready? (s : Lexer) : Option Lexer :=
  s.skipSpace.dropStaleKeys?.map fun s => s.closeBlocks (s.place.column + 1)

theorem run_succ (fuel : Nat) (s : Lexer) :
    run (fuel + 1) s = s.ready?.bind fun r =>
      match r.place.rest with
      | [] => r.finish?
      | c :: rest => (r.token? c rest).bind (run fuel) := by
  rw [run, ready?]
  cases s.skipSpace.dropStaleKeys? with
  | none => rfl
  | some r =>
    dsimp only [Option.map_some, Option.bind_some]
    rcases (r.closeBlocks (r.place.column + 1)).place.rest with _ | ⟨c, rest⟩
    · rfl
    · dsimp only
      cases (r.closeBlocks (r.place.column + 1)).token? c rest <;> rfl

theorem stays_ready? (h : s.ready? = some r) : Stays s.skipSpace r := by
  obtain ⟨q, hdrop, rfl⟩ := Option.map_eq_some_iff.mp h
  exact (stays_dropStaleKeys? hdrop).trans (stays_closeBlocks q _)

theorem ready?_longer (h : (s.longer cut).skipSpace = s.skipSpace.longer cut) :
    (s.longer cut).ready? = s.ready?.map (·.longer cut) := by
  unfold ready?
  rw [h, dropStaleKeys?_longer]
  exact map_longer fun r _ => closeBlocks_longer r _ cut

/-- The sign of the block scalar in which a text ends; none if it ends otherwise. -/
def lastSign? : Nat → Lexer → Option Chomp
  | 0, _ => none
  | fuel + 1, s => s.ready?.bind fun r =>
    match r.place.rest with
    | [] => none
    | c :: rest => (r.token? c rest).bind fun q => (r.endSign? c q).or (lastSign? fuel q)

theorem lastSign?_of_atEnd (h : s.AtEnd) (fuel : Nat) : lastSign? fuel s = none := by
  cases fuel with
  | zero => rfl
  | succ fuel =>
    rw [lastSign?]
    cases hready : s.ready? with
    | none => rfl
    | some r =>
      have hrest : r.place.rest = [] := by
        rw [(stays_ready? hready).place]
        exact h
      rw [Option.bind_some, hrest]

/-! ## The end -/

/-- How many of the open blocks stand right of a column; the floor is one more than the column. -/
def closing (floor : Nat) : Nat → List Nat → Nat
  | _, [] => 0
  | here, outer :: rest => if floor < here then closing floor outer rest + 1 else 0

theorem keys_closeBlocksFrom (floor : Nat) (floors : List Nat) (s : Lexer) :
    (closeBlocksFrom floor floors s).keys = s.keys := by
  induction floors generalizing s with
  | nil => rfl
  | cons outer floors ih =>
    rw [closeBlocksFrom]
    split
    · exact ih _
    · rfl

theorem tokens_closeBlocksFrom (floor : Nat) (floors : List Nat) (s : Lexer) :
    (closeBlocksFrom floor floors s).tokens =
      List.replicate (closing floor s.floor floors) .blockEnd ++ s.tokens := by
  induction floors generalizing s with
  | nil => rfl
  | cons outer floors ih =>
    rw [closeBlocksFrom, closing]
    split
    · rw [ih, List.replicate_succ']
      simp [emit]
    · rfl

/-- Blocks that close ahead of the end close at the end no more. -/
theorem closeBlocksFrom_zero (floor : Nat) {floors : List Nat} (h : s.floors = floors) :
    closeBlocksFrom 0 (closeBlocksFrom floor floors s).floors (closeBlocksFrom floor floors s) =
      closeBlocksFrom 0 floors s := by
  induction floors generalizing s with
  | nil =>
    rw [closeBlocksFrom, h]
  | cons outer floors ih =>
    rw [closeBlocksFrom]
    split
    · rename_i hfloor
      rw [ih rfl, closeBlocksFrom, if_pos (by omega)]
    · rw [h]

/-- Outside of brackets the text ends in all blocks that are open, unless a key lacks its colon. -/
theorem finish?_closeBlocks (floor : Nat) {k : Option KeyStart} (hkeys : s.keys = [k]) :
    (s.closeBlocks floor).finish? =
      if k.any (·.required) then none
      else some (s.tokens.reverse ++ List.replicate (closing 0 s.floor s.floors) .blockEnd) := by
  have hflow : s.inFlow = false := by rw [inFlow, hkeys]; rfl
  have hkept : (s.closeBlocks floor).keys = [k] := by
    rw [closeBlocks, hflow]
    exact (keys_closeBlocksFrom _ _ _).trans hkeys
  have hflow' : (s.closeBlocks floor).inFlow = false := by rw [inFlow, hkept]; rfl
  have hclosed : (s.closeBlocks floor).closeBlocks 0 = closeBlocksFrom 0 s.floors s := by
    rw [closeBlocks, hflow', closeBlocks, hflow]
    exact closeBlocksFrom_zero floor rfl
  have hlast := (keys_closeBlocksFrom 0 s.floors s).trans hkeys
  have htokens := tokens_closeBlocksFrom 0 s.floors s
  unfold finish? endBlocks? dropKey?
  rw [hclosed, hlast]
  rcases k with _ | k
  · simp [allow, htokens]
  · cases hrequired : k.required <;> simp [allow, htokens, hrequired]

theorem run_of_dropStaleKeys? (hend : s.AtEnd) (h : s.skipSpace.dropStaleKeys? = some r)
    (fuel : Nat) : run (fuel + 1) s = (r.closeBlocks (r.place.column + 1)).finish? := by
  have hready : s.ready? = some (r.closeBlocks (r.place.column + 1)) := by rw [ready?, h]; rfl
  have hrest : (r.closeBlocks (r.place.column + 1)).place.rest = [] := by
    rw [(stays_ready? hready).place]
    exact hend
  rw [run_succ, hready, Option.bind_some, hrest]

theorem run_of_atEnd (hend : s.AtEnd) {k : Option KeyStart} (hkeys : s.keys = [k]) (fuel : Nat) :
    run (fuel + 1) s =
      if k.any (·.required) then none
      else some (s.tokens.reverse ++ List.replicate (closing 0 s.floor s.floors) .blockEnd) := by
  have hspace : s.skipSpace.keys = [k] := hkeys
  by_cases hrefused : k.any fun k => isStale s.skipSpace.place k && k.required
  · have hnone : s.skipSpace.dropStaleKeys? = none := by simp [dropStaleKeys?, hspace, hrefused]
    have hrequired : k.any (·.required) = true := by
      rcases k with _ | k
      · cases hrefused
      · exact (Bool.and_eq_true_iff.mp hrefused).2
    rw [run_succ, ready?, hnone, hrequired]
    rfl
  · have hdrop : s.skipSpace.dropStaleKeys? =
        some { s.skipSpace with keys := [k.filter fun k => !isStale s.skipSpace.place k] } := by
      simp [dropStaleKeys?, hspace, hrefused]
    have hrequired : (k.filter fun k => !isStale s.skipSpace.place k).any (·.required) =
        k.any (·.required) := by
      rcases k with _ | k
      · rfl
      · cases hstale : isStale s.skipSpace.place k <;> simp_all [Option.filter]
    rw [run_of_dropStaleKeys? hend hdrop, finish?_closeBlocks _ rfl, hrequired]
    rfl

theorem tokens_of_dropKey? (h : s.dropKey? = some r) : r.tokens = s.tokens := by
  unfold dropKey? at h
  split at h
  · split at h
    · cases h
    · cases h
      rfl
  · cases h
    rfl

/-- Inside brackets the text ends in the tokens so far, if in any. -/
theorem mem_run_of_atEnd (hend : s.AtEnd) (hflow : s.inFlow = true) (fuel : Nat) :
    ∀ ts ∈ run (fuel + 1) s, ts = s.tokens.reverse := by
  intro ts hts
  cases hdrop : s.skipSpace.dropStaleKeys? with
  | none =>
    rw [run_succ, ready?, hdrop] at hts
    cases hts
  | some r =>
    have hkept : r.inFlow = true ∧ r.tokens = s.tokens := by
      unfold dropStaleKeys? at hdrop
      split at hdrop
      · cases hdrop
      · cases hdrop
        refine ⟨?_, rfl⟩
        rw [inFlow, List.length_map]
        exact hflow
    have hopen : ∀ floor, r.closeBlocks floor = r := fun floor => by rw [closeBlocks, hkept.1]; rfl
    rw [run_of_dropStaleKeys? hend hdrop, hopen, finish?, endBlocks?, hopen] at hts
    obtain ⟨q, hq, rfl⟩ := Option.map_eq_some_iff.mp hts
    obtain ⟨last, hlast, rfl⟩ := Option.map_eq_some_iff.mp hq
    exact congrArg List.reverse ((tokens_of_dropKey? hlast).trans hkept.2)

/-! ## Whole runs -/

/-- Two runs that come out alike, or both, if at all, with brackets left open. -/
def Same (x y : Option (List Token)) : Prop :=
  y = x ∨ ((∀ ts ∈ x, ¬ Level ts) ∧ ∀ ts ∈ y, ¬ Level ts)

/-- The same tokens but for the text of one block scalar with the given sign, which has the breaks
behind it in the second row. -/
def Lacking (cut : List Char) (chomp : Chomp) (ts us : List Token) : Prop :=
  ∃ x y before after, Chomped cut chomp x y ∧ ts = before ++ .scalar false x :: after ∧
    us = before ++ .scalar false y :: after

/-- Keys that need a colon in one of two states that have ended need it in the other. -/
theorem Ended.keys_eq (h : Ended s r) {k : Option KeyStart} (hkeys : s.keys = [k]) :
    ∃ k', r.keys = [k'] ∧ k'.any (·.required) = k.any (·.required) := by
  have hrequired := h.required
  rw [hkeys, List.map_singleton, List.map_eq_singleton_iff] at hrequired
  obtain ⟨k', hkeys', hsame⟩ := hrequired
  refine ⟨k', hkeys', ?_⟩
  rcases k with _ | k <;> rcases k' with _ | k'
  · rfl
  · cases hsame
  · cases hsame
  · exact Option.some.inj hsame

theorem Ended.inFlow_eq (h : Ended s r) : r.inFlow = s.inFlow := by
  have hlength := congrArg List.length h.required
  rw [List.length_map, List.length_map] at hlength
  rw [inFlow, inFlow, hlength]

theorem Balanced.keys_of_not_inFlow (hs : s.Balanced) (hflow : s.inFlow = false) :
    ∃ k, s.keys = [k] := by
  rw [inFlow, decide_eq_false_iff_not] at hflow
  rw [Balanced] at hs
  exact List.length_eq_one_iff.mp (by omega)

theorem Balanced.not_level (hs : s.Balanced) (hflow : s.inFlow = true) :
    ¬ Level s.tokens.reverse := by
  intro hlevel
  rw [inFlow, decide_eq_true_eq] at hflow
  rw [Balanced, hlevel 0] at hs
  omega

theorem same_of_ended (hs : s.Balanced) (h : Ended s r) (htokens : r.tokens = s.tokens)
    (fuel fuel' : Nat) : Same (run (fuel + 1) s) (run (fuel' + 1) r) := by
  cases hflow : s.inFlow with
  | false =>
    obtain ⟨k, hkeys⟩ := hs.keys_of_not_inFlow hflow
    obtain ⟨k', hkeys', hrequired⟩ := h.keys_eq hkeys
    left
    rw [run_of_atEnd h.here hkeys, run_of_atEnd h.there hkeys', hrequired, htokens, h.floor,
      h.floors]
  | true =>
    have hopen := hs.not_level hflow
    refine .inr ⟨fun ts hts => ?_, fun ts hts => ?_⟩
    · rw [mem_run_of_atEnd h.here hflow fuel ts hts]
      exact hopen
    · rw [mem_run_of_atEnd h.there (h.inFlow_eq.trans hflow) fuel' ts hts, htokens]
      exact hopen

theorem lacking_of_ended (hs : s.Balanced) (hflow : s.inFlow = false) {chomp : Chomp}
    (h : ScalarEnded cut chomp s r) (fuel fuel' : Nat) :
    Option.Rel (Lacking cut chomp) (run (fuel + 1) s) (run (fuel' + 1) r) := by
  obtain ⟨h, x, y, before, htexts, htokens, htokens'⟩ := h
  obtain ⟨k, hkeys⟩ := hs.keys_of_not_inFlow hflow
  obtain ⟨k', hkeys', hrequired⟩ := h.keys_eq hkeys
  rw [run_of_atEnd h.here hkeys, run_of_atEnd h.there hkeys', hrequired, htokens, htokens', h.floor,
    h.floors]
  split
  · exact .none
  · refine .some ⟨x, y, before.reverse, List.replicate (closing 0 s.floor s.floors) .blockEnd,
      htexts, ?_, ?_⟩
    · rw [List.reverse_cons, List.append_assoc, List.singleton_append]
    · rw [List.reverse_cons, List.append_assoc, List.singleton_append]

/-- What a run, and the run in the text with more breaks at its end, have in common where the text
ends in a block scalar with the given sign, or in none. -/
def InStep (cut : List Char) (sign : Option Chomp) (x y : Option (List Token)) : Prop :=
  (sign = none → Same x y) ∧ ∀ chomp, sign = some chomp → Option.Rel (Lacking cut chomp) x y

theorem inStep_none : InStep cut none none none := ⟨fun _ => .inl rfl, nofun⟩

theorem inStep_of_ended (hs : s.Balanced) (h : Ended s r) (htokens : r.tokens = s.tokens)
    (fuel fuel' : Nat) :
    InStep cut (lastSign? (fuel + 1) s) (run (fuel + 1) s) (run (fuel' + 1) r) := by
  rw [lastSign?_of_atEnd h.here]
  exact ⟨fun _ => same_of_ended hs h htokens fuel fuel', nofun⟩

/-- Runs that are in step behind a token are in step in front of it. -/
theorem inStep_of_behind {c : Char} {a b : Lexer} (ha : a.Balanced) (h : Behind cut s c a b)
    (hstep : b = a.longer cut →
      InStep cut (lastSign? (fuel + 1) a) (run (fuel + 1) a) (run (fuel' + 1) b)) :
    InStep cut ((s.endSign? c a).or (lastSign? (fuel + 1) a)) (run (fuel + 1) a)
      (run (fuel' + 1) b) := by
  unfold Behind at h
  cases hsign : s.endSign? c a with
  | none =>
    rw [hsign] at h
    rw [Option.none_or]
    rcases h with hsame | ⟨hended, htokens⟩
    · exact hstep hsame
    · exact inStep_of_ended ha hended htokens fuel fuel'
  | some chomp =>
    rw [hsign] at h
    refine ⟨nofun, fun chomp' hchomp => ?_⟩
    cases hchomp
    exact lacking_of_ended ha h.1 h.2 fuel fuel'

/-- A run, and the run in the text with more breaks at its end, are in step. What is left of the
text gets shorter with each token, so that the fuel of both lasts to the end. -/
theorem run_longer (hcut : Breaks cut) (hs : s.Balanced) (hunbroken : Unbroken s.place.rest)
    (hfuel : s.place.rest.length < fuel) (hfuel' : s.place.rest.length + cut.length < fuel') :
    InStep cut (lastSign? fuel s) (run fuel s) (run fuel' (s.longer cut)) := by
  induction fuel generalizing fuel' s with
  | zero => omega
  | succ fuel ih =>
    obtain ⟨fuel', rfl⟩ : ∃ n, fuel' = n + 1 := Nat.exists_eq_add_one_of_ne_zero (by omega)
    rcases skipSpace_longer hcut hunbroken with ⟨hne, hspace⟩ | ⟨here, there⟩
    · rw [run_succ, run_succ, lastSign?, ready?_longer hspace]
      cases hready : s.ready? with
      | none => exact inStep_none
      | some r =>
        have hstays := stays_ready? hready
        obtain ⟨c, rest, hrest⟩ := List.exists_cons_of_ne_nil (hstays.place ▸ hne)
        have hsuffix : c :: rest <:+ s.place.rest := by
          rw [← hrest, hstays.place]
          exact s.rest_skipSpace_suffix
        have hbehind := hunbroken.of_suffix hsuffix
        have hlength := hsuffix.length_le
        rw [List.length_cons] at hlength
        have hrest' : (r.longer cut).place.rest = c :: (rest ++ cut) := by
          rw [longer_place, Place.longer_rest, hrest, List.cons_append]
        have htoken := token?_longer hcut (hrest ▸ hbehind) hrest
        simp only [Option.map_some, Option.bind_some, hrest, hrest']
        cases hread : r.token? c rest with
        | none =>
          rw [hread] at htoken
          rw [eq_none_of_rel htoken]
          exact inStep_none
        | some a =>
          rw [hread] at htoken
          obtain ⟨b, hread', hab⟩ := exists_of_rel htoken
          have htakes := takes_token? hread
          have ha := htakes.balanced (hstays.balanced hs)
          have hshort := htakes.rest
          rw [hrest, List.tail_cons] at hshort
          have hless := hshort.length_le
          have hrest'' := hbehind.of_suffix (hshort.trans (List.suffix_cons c rest))
          obtain ⟨fuel, rfl⟩ : ∃ n, fuel = n + 1 := Nat.exists_eq_add_one_of_ne_zero (by omega)
          obtain ⟨fuel', rfl⟩ : ∃ n, fuel' = n + 1 := Nat.exists_eq_add_one_of_ne_zero (by omega)
          rw [hread', Option.bind_some, Option.bind_some, Option.bind_some]
          refine inStep_of_behind ha hab ?_
          rintro rfl
          exact ih ha hrest'' (by omega) (by omega)
    · exact inStep_of_ended hs (ended_longer here there) rfl fuel fuel'

end Lexer

/-! ## Texts -/

/-- The sign of the block scalar in which a text ends; none if it ends otherwise. -/
def lastSign? (cs : List Char) : Option Chomp := (Lexer.start cs).lastSign? (cs.length + 1)

theorem isAllowed_of_isLineBreak {c : Char} (h : Text.isLineBreak c = true) :
    isAllowed c = true := by
  rcases isLineBreak_iff.mp h with rfl | rfl <;> decide

/-- The tokens of a text, and those of the text with more breaks at its end. -/
theorem tokens?_longer {cs cut : List Char} (hcut : Breaks cut) (hunbroken : Unbroken cs) :
    Lexer.InStep cut (lastSign? cs) (tokens? cs) (tokens? (cs ++ cut)) := by
  have hallowed : (cs ++ cut).all isAllowed = cs.all isAllowed := by
    rw [List.all_append, List.all_eq_true.mpr fun c hc => isAllowed_of_isLineBreak (hcut c hc),
      Bool.and_true]
  have hlonger : Lexer.start (cs ++ cut) = (Lexer.start cs).longer cut := rfl
  have hbalanced : (Lexer.start cs).Balanced := rfl
  have hfuel : (Lexer.start cs).place.rest.length + cut.length < (cs ++ cut).length + 1 := by
    rw [List.length_append]
    exact Nat.lt_add_one _
  have hrun := Lexer.run_longer hcut hbalanced hunbroken (Nat.lt_add_one cs.length) hfuel
  unfold tokens?
  rw [hallowed, hlonger]
  split
  · exact hrun
  · exact ⟨fun _ => .inl rfl, fun _ _ => .none⟩

end DocPages.Yaml
