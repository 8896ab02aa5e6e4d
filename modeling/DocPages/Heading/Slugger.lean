import DocPages.Heading.Slug

/-!
Anchors that are unique within a page. The first claim of a slug gets the slug itself; later claims
get a number behind it, the least one above the number given last that is still free.
-/

namespace DocPages.Heading

/-- The slugs that are taken, each with the last number given behind it. -/
structure Slugger where
  taken : List (String × Nat)
  deriving Inhabited

namespace Slugger

/-- No slug is taken. -/
def empty : Slugger := ⟨[]⟩

/-- The last number given behind a slug, if the slug is taken. -/
def lastNumber? (s : Slugger) (slug : String) : Option Nat :=
  (s.taken.find? fun t => t.1 == slug).map (·.2)

/-- Whether a slug is taken. -/
def contains (s : Slugger) (slug : String) : Bool := (s.lastNumber? slug).isSome

/-- The slug with its number set. -/
def set (s : Slugger) (slug : String) (number : Nat) : Slugger :=
  ⟨(slug, number) :: s.taken.filter fun t => t.1 != slug⟩

/-- A slug with a number behind it. -/
def numbered (slug : String) (number : Nat) : String := slug ++ "-" ++ toString number

/-- The least number from `number` on that is free behind a slug, looking at no more than `tries`
of them. -/
def freeFrom (s : Slugger) (slug : String) : Nat → Nat → Nat
  | 0, number => number
  | tries + 1, number =>
    if s.contains (numbered slug number) then freeFrom s slug tries (number + 1) else number

/-- A slug for a claim, and the slugger that has given it. As many slugs as are taken have to be
tried at most. -/
def claim (s : Slugger) (slug : String) : String × Slugger :=
  match s.lastNumber? slug with
  | none => (slug, s.set slug 0)
  | some last =>
    let number := s.freeFrom slug s.taken.length (last + 1)
    (numbered slug number, (s.set slug number).set (numbered slug number) 0)

/-- A slug for a heading text. -/
def next (s : Slugger) (text : String) : String × Slugger := s.claim (slugify text)

end Slugger

end DocPages.Heading
