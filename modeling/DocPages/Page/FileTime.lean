/-!
The time of a file's last change, in milliseconds from the start of 1970. It is counted from there in
both directions: a part of a millisecond is dropped, and a number that does not fit into 64 bits
becomes the greatest one that does.
-/

namespace DocPages.Page

/-- A stretch of time: whole seconds, and nanoseconds of one more. -/
structure Span where
  seconds : Nat
  nanos : Nat
  deriving DecidableEq, Inhabited

/-- The nanoseconds of a second. -/
def nanosPerSecond : Nat := 1000000000

/-- The nanoseconds of a millisecond. -/
def nanosPerMilli : Nat := 1000000

/-- The whole milliseconds of a stretch of time. -/
def Span.millis (d : Span) : Nat := d.seconds * 1000 + d.nanos / nanosPerMilli

/-- How far an instant lies behind the start of 1970; in the second case how far it lies in front of
it. An instant is given in whole seconds from there, and nanoseconds behind that second. -/
def sinceEpoch (seconds : Int) (nanos : Nat) : Except Span Span :=
  if 0 ≤ seconds then .ok ⟨seconds.toNat, nanos⟩
  else if nanos = 0 then .error ⟨seconds.natAbs, 0⟩
  else .error ⟨seconds.natAbs - 1, nanosPerSecond - nanos⟩

/-- The greatest number of milliseconds that is told. -/
def maxMillis : Int := Int64.maxValue.toInt

/-- A number in 64 bits with a sign; one that does not fit becomes the greatest. -/
def clamped (n : Nat) : Int64 := if n ≤ maxMillis then .ofNat n else .maxValue

/-- The milliseconds of an instant given in seconds and nanoseconds. -/
def millis (seconds : Int) (nanos : Nat) : Int :=
  match sinceEpoch seconds nanos with
  | .ok since => (clamped since.millis).toInt
  | .error before => (-(clamped before.millis)).toInt

end DocPages.Page
