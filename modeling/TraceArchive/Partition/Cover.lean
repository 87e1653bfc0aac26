import TraceArchive.Calendar.Instant
import TraceArchive.Partition.Name

/-!
# Covering a range of days with blocks

From the first day on, the largest block that starts there and ends within the range is taken: a
whole year, else a whole month, else the day alone.  A range that reaches the last day of the
calendar has no cover, since there is no day to go on with.

* `blocksFrom`: the blocks of a range of days.
* `Naming.ofRange`: the names and patterns for the days between two instants.
-/

set_option autoImplicit false

namespace TraceArchive
namespace Partition

open Calendar

/-- The block that starts at a day, its length in days, and the error when no day follows it. -/
def largestBlock (day last : Int) : Block × Nat × DateError :=
  let date := Date.ofDay day
  if date.day = 1 ∧ date.month = 1 ∧ day + yearLength date.year - 1 ≤ last then
    (.year date.year, yearLength date.year, .yearOutOfRange (date.year + 1))
  else if date.day = 1 ∧ day + monthLength date.year date.month - 1 ≤ last then
    (.month date.year date.month, monthLength date.year date.month, .overflow)
  else (.day date, 1, .overflow)

theorem largestBlock_length_pos (day last : Int) : 0 < (largestBlock day last).2.1 := by
  simp only [largestBlock]
  split
  · exact yearLength_pos _
  · split
    · exact monthLength_pos _ _
    · exact Nat.one_pos

/-- The blocks of the days from `day` to `last`. -/
def blocksFrom (day last : Int) : Except DateError (List Block) :=
  if day ≤ last then
    let found := largestBlock day last
    if lastDay < day + found.2.1 then .error found.2.2
    else (blocksFrom (day + found.2.1) last).map (found.1 :: ·)
  else .ok []
termination_by (last + 1 - day).toNat
decreasing_by
  have := largestBlock_length_pos day last
  omega

end Partition

namespace Naming

/-- The name of the partition of an instant. -/
def ofMillis (naming : Naming) (docType : String) (millis : Int) : Except DateError String :=
  (Calendar.dayOfMillis millis).map fun day => naming.ofDate docType (Date.ofDay day)

/-- The names and patterns of the partitions of the days from one instant to another, both of which
may have a fraction. -/
def ofInstants
    (naming : Naming)
    (docType : String)
    (begin last : Millis) :
    Except DateError (List String) := do
  let first ← begin.day
  let final ← last.day
  let blocks ← Partition.blocksFrom first final
  return blocks.map (naming.ofBlock docType)

/-- The names and patterns of the partitions of the days from one instant to another. -/
def ofRange
    (naming : Naming)
    (docType : String)
    (begin last : Int) :
    Except DateError (List String) :=
  naming.ofInstants docType (.whole begin) (.whole last)

end Naming
end TraceArchive
