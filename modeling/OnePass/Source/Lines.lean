/-
  Line numbers of byte offsets.

  The index of a text is the increasing table of the
  offsets at which its lines start. Only a line feed ends a
  line, and the next line starts just after it. An offset is
  looked up by bisection: either a line starts there, or its
  line is the last of those that start before it.

  Key definitions include:
    * `Lines`
    * `Lines.ofChars`
    * `Lines.bisect`
    * `Lines.lineAt`
    * `Lines.count`
-/

------------------------------------------------------------
-- Byte Lengths
------------------------------------------------------------

namespace OnePass

/- Number of bytes that a text occupies in UTF-8. -/
def byteLength : List Char → Nat
| [] => 0
| char :: text => char.utf8Size + byteLength text

end OnePass

------------------------------------------------------------
-- Line Tables
------------------------------------------------------------

namespace OnePass

/- The offsets at which the lines of a text start. -/
structure Lines where
  starts : Array Nat
deriving Repr

namespace Lines

/-
  The offsets just after the line feeds of `text`, when
  `text` itself stands at `offset`.
-/
def startsAfter
    (offset : Nat) :
    List Char → List Nat
| [] => []
| char :: text =>
    let next := offset + char.utf8Size
    if char = '\n' then
      next :: startsAfter next text
    else
      startsAfter next text

/- The index of a whole text, whose first line starts at zero. -/
def ofChars (text : List Char) : Lines where
  starts := (0 :: startsAfter 0 text).toArray

/- Number of lines. -/
def count (index : Lines) : Nat :=
  index.starts.size

/- Where an offset stands in a table, or where it would. -/
inductive Position where
  | found (index : Nat)
  | missing (index : Nat)
deriving DecidableEq, Repr

/-
  The line of an offset with this position. Lines are counted
  from one and positions from zero, so that a line which
  starts at the offset is one past its position.
-/
def Position.line : Position → Nat
| found index => index + 1
| missing index => index

/-
  Look for `offset` in `[low, high)`. Starts below `low` are
  known to lie before it, starts from `high` on to lie past
  it.
-/
def bisect
    (starts : Array Nat)
    (offset low high : Nat) : Position :=
  if low < high then
    let middle := (low + high) / 2
    let start := starts.getD middle 0
    if start = offset then
      .found middle
    else if start < offset then
      bisect starts offset (middle + 1) high
    else
      bisect starts offset low middle
  else
    .missing low
termination_by high - low

/- The line on which the byte at `offset` stands. -/
def lineAt
    (index : Lines)
    (offset : Nat) : Nat :=
  (bisect index.starts offset 0 index.starts.size).line

end Lines

end OnePass
