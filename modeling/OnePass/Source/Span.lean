/-
  Source extents.

  A span is a range of byte offsets into the source text
  together with the line it is reported on. Offsets are not
  required to be ordered: a range that ends before it
  starts is empty.

  Key definitions include:
    * `Span`
    * `Span.length`
    * `Span.contains`
    * `Span.cover`
-/

------------------------------------------------------------
-- Spans
------------------------------------------------------------

namespace OnePass

/-
  The bytes from `start` up to, and not including, `stop`,
  reported on line `line`. Lines are counted from one.
-/
structure Span where
  start : Nat
  stop : Nat
  line : Nat
deriving DecidableEq, Repr

namespace Span

/- The span of nothing, on no line. -/
def blank : Span := ⟨0, 0, 0⟩

/- Number of bytes covered. -/
def length (span : Span) : Nat :=
  span.stop - span.start

/- No byte is covered. -/
def isEmpty (span : Span) : Bool :=
  span.length == 0

/- The byte at `offset` is covered. -/
def contains
    (span : Span)
    (offset : Nat) : Bool :=
  span.start ≤ offset && offset < span.stop

/-
  The least span that covers both. It is reported on the
  line of whichever of the two ends last; when both end at
  the same byte, on the line of the second.
-/
def cover
    (left right : Span) : Span where
  start := min left.start right.start
  stop := max left.stop right.stop
  line := if left.stop ≤ right.stop then right.line else left.line

end Span

end OnePass
