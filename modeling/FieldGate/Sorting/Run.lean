-- The sorted runs of a row. An order is given as the test "stands strictly
-- before"; it need not be total, and where it is not, the result depends on which
-- items are tested, so each step says which.

namespace FieldGate.Sorting

variable {α : Type}

/-- How many items go on with a run: each stands before its predecessor in one
that falls, and none does in one that does not. -/
def runLength (before : α → α → Bool) (falls : Bool) (last : α) : List α → Nat
  | [] => 0
  | item :: rest => if before item last = falls then runLength before falls item rest + 1 else 0

/-- The run that a row starts with, turned round if it falls, and the items after
it. -/
def leadingRun (before : α → α → Bool) : List α → List α × List α
  | first :: second :: rest =>
    let falls := before second first
    let size := runLength before falls second rest + 2
    let run := (first :: second :: rest).take size
    (if falls then run.reverse else run, rest.drop (size - 2))
  | row => (row, [])

/-- The place to which halving leads an item between two places of a run. -/
def placeBetween (before : α → α → Bool) (item : α) (run : List α) (low high : Nat) : Nat :=
  if low < high then
    let middle := low + (high - low) / 2
    if run[middle]?.any (before item) then placeBetween before item run low middle
    else placeBetween before item run (middle + 1) high
  else low
termination_by high - low

/-- Puts an item in the place to which halving leads it. -/
def insertInto (before : α → α → Bool) (run : List α) (item : α) : List α :=
  run.insertIdx (placeBetween before item run 0 run.length) item

/-- A length is halved until it is below this. -/
def runBound : Nat := 64

/-- What halving leaves of a length, and one more if it was ever odd. -/
def leastRunFrom (wasOdd : Bool) (length : Nat) : Nat :=
  if length < runBound then length + (if wasOdd then 1 else 0)
  else leastRunFrom (wasOdd || length % 2 = 1) (length / 2)
termination_by length
decreasing_by
  simp only [runBound] at *
  omega

/-- The least length of the runs of a row, but for the last one. A short row is
one run. -/
def leastRun (length : Nat) : Nat := leastRunFrom false length

/-- The first run of a row and the items after it. A run that is too short takes
in items from those after it. -/
def nextRun (before : α → α → Bool) (least : Nat) (row : List α) : List α × List α :=
  let (run, rest) := leadingRun before row
  let lacking := least - run.length
  ((rest.take lacking).foldl (insertInto before) run, rest.drop lacking)

/-- The runs of a row of at most `fuel` items. -/
def runsWithin (before : α → α → Bool) (least : Nat) : (fuel : Nat) → List α → List (List α)
  | 0, _ | _, [] => []
  | fuel + 1, row =>
    let (run, rest) := nextRun before least row
    run :: runsWithin before least fuel rest

/-- The runs of a row. -/
def runs (before : α → α → Bool) (row : List α) : List (List α) :=
  runsWithin before (leastRun row.length) row.length row

end FieldGate.Sorting
