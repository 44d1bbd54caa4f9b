/-!
Spans of time in words, in one unit: the largest of which they are about one and a half, seconds if
there is none.
-/
namespace FlowScope.Report

/-- The units and their lengths in milliseconds. -/
def timeUnits : List (Nat × String) := [
  (365 * 24 * 60 * 60 * 1000, "year"), (7 * 24 * 60 * 60 * 1000, "week"),
  (24 * 60 * 60 * 1000, "day"), (60 * 60 * 1000, "hour"), (60 * 1000, "minute"), (1000, "second")]

/-- The unit for a span, whether it is the last one, and its length. Half of the next unit is added
to the span before it is compared. -/
def unitFor (span : Nat) : List (Nat × String) → Nat × String × Bool
  | [] => (1000, "second", true)
  | [(length, name)] => (length, name, true)
  | (length, name) :: (next, rest) :: more =>
      if length + length / 2 ≤ span + next / 2 then (length, name, false)
      else unitFor span ((next, rest) :: more)

/-- A span of milliseconds in words. In all units but the last one it is plural. -/
def durationText (span : Nat) : String :=
  let (length, name, last) := unitFor span timeUnits
  let rounded := (span + length / 2) / length
  let n := if last then rounded else max rounded 2
  toString n ++ " " ++ name ++ (if n = 1 then "" else "s")

end FlowScope.Report
