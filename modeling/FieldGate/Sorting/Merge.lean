-- Merging two sorted rows. Items are taken one by one until one row wins often
-- in succession, and then in batches whose ends are found in leaps. A merge can
-- also run from the ends of the rows to their fronts: then both rows are given
-- turned round, and so is the result.

namespace FieldGate.Sorting

variable {α : Type}

/-! ## Leaps -/

/-- Leaps along a row as long as a test holds: the last place where it held, and
the first one after it where the leaps stopped. -/
def leap (holds : α → Bool) (row : List α) (last next : Nat) : Nat × Nat :=
  if next < row.length then
    if row[next]?.any holds then leap holds row next (2 * next + 1) else (last, next)
  else (last, row.length)
termination_by row.length - next

/-- The place between two places to which halving leads, onward where a test
holds. A row that is turned round has its middle one place earlier, if it has no
item in the middle. -/
def halve (holds : α → Bool) (turned : Bool) (row : List α) (low high : Nat) : Nat :=
  if low < high then
    let middle := low + (high - low - (if turned then 1 else 0)) / 2
    if row[middle]?.any holds then halve holds turned row (middle + 1) high
    else halve holds turned row low middle
  else high
termination_by high - low

/-- How many items a row starts with for which a test holds, as far as leaps and
halving find out. -/
def extent (holds : α → Bool) (turned : Bool) (row : List α) : Nat :=
  if row.head?.any holds then
    let (last, next) := leap holds row 0 1
    halve holds turned row (last + 1) next
  else 0

/-! ## Merges under way -/

/-- Which of two rows of different lengths is meant. -/
inductive Side where
  | shorter
  | longer
deriving DecidableEq

/-- How two rows are merged: when an item of the longer row goes before one of
the shorter row, and whether both rows are turned round. -/
structure MergeRule (α : Type) where
  wins : (fromLonger fromShorter : α) → Bool
  turned : Bool

/-- A merge under way: what is merged, and what is left of both rows. -/
structure Merge (α : Type) where
  merged : List α
  shorter : List α
  longer : List α

namespace Merge

/-- Nothing is left to test: the last item of the shorter row goes to the end. -/
def isDone (m : Merge α) : Bool := m.shorter.length ≤ 1 || m.longer.isEmpty

def result (m : Merge α) : List α := m.merged ++ m.longer ++ m.shorter

/-- Takes some items from one row. -/
def take (m : Merge α) (side : Side) (n : Nat) : Merge α :=
  match side with
  | .shorter =>
    { m with merged := m.merged ++ m.shorter.take n, shorter := m.shorter.drop n }
  | .longer => { m with merged := m.merged ++ m.longer.take n, longer := m.longer.drop n }

/-- How many items of one row go before the first one of the other. -/
def batchSize (rule : MergeRule α) (m : Merge α) (side : Side) : Nat :=
  match side, m.shorter.head?, m.longer.head? with
  | .shorter, _, some y => extent (fun x => !rule.wins y x) rule.turned m.shorter
  | .longer, some x, _ => extent (fun y => rule.wins y x) rule.turned m.longer
  | _, _, _ => 0

/-- Takes all items of one row that go before the first one of the other, and says
how many. -/
def takeBatch (rule : MergeRule α) (side : Side) (m : Merge α) : Merge α × Nat :=
  if m.isDone then (m, 0)
  else
    let size := m.batchSize rule side
    (m.take side size, size)

def takeOne (side : Side) (m : Merge α) : Merge α := if m.isDone then m else m.take side 1

/-- Takes items one by one until one row has won as often in succession as the
limit says. -/
def race (rule : MergeRule α) (limit : Nat) (merged : List α) (last : Side) (streak : Nat) :
    (shorter longer : List α) → Merge α
  | x :: x' :: xs, y :: ys =>
    let streakOf (side : Side) : Nat := if side = last then streak + 1 else 1
    if limit ≤ streak then ⟨merged, x :: x' :: xs, y :: ys⟩
    else if rule.wins y x then
      race rule limit (merged ++ [y]) .longer (streakOf .longer) (x :: x' :: xs) ys
    else race rule limit (merged ++ [x]) .shorter (streakOf .shorter) (x' :: xs) (y :: ys)
  | shorter, longer => ⟨merged, shorter, longer⟩
termination_by shorter longer => shorter.length + longer.length

/-- A round of batches: from each row a batch and the item that stopped the other
one. The row at the front of the result comes first. The larger batch tells
whether another round is worth it. -/
def round (rule : MergeRule α) (m : Merge α) : Merge α × Nat :=
  let first := if rule.turned then Side.longer else .shorter
  let second := if rule.turned then Side.shorter else .longer
  let (afterFirst, firstSize) := m.takeBatch rule first
  let (afterSecond, secondSize) := (afterFirst.takeOne second).takeBatch rule second
  (afterSecond.takeOne first, max firstSize secondSize)

/-- The least batch that is worth another round. -/
def worthwhile : Nat := 7

/-- Rounds of batches as long as they are worth it. Each one makes the merge look
for batches sooner, and the end of the rounds makes it look later. -/
def rounds (rule : MergeRule α) : (fuel patience : Nat) → Merge α → Merge α × Nat
  | 0, patience, m => (m, patience)
  | fuel + 1, patience, m =>
    let (after, size) := m.round rule
    if after.isDone then (after, patience)
    else if worthwhile ≤ size then rounds rule fuel (max 1 (patience - 1)) after
    else (after, patience + 1)

/-- Merges to the end: one by one, then in batches, and again. The patience is how
many wins in succession make the merge look for batches. -/
def finish (rule : MergeRule α) : (fuel patience : Nat) → Merge α → List α × Nat
  | 0, patience, m => (m.result, patience)
  | fuel + 1, patience, m =>
    if m.isDone then (m.result, patience)
    else
      let raced := race rule patience m.merged .shorter 0 m.shorter m.longer
      let (after, changed) := raced.rounds rule fuel patience
      after.finish rule fuel changed

end Merge

/-- Merges two rows of which the longer one goes first. -/
def mergeRows (rule : MergeRule α) (patience : Nat) (shorter longer : List α) : List α × Nat :=
  let start : Merge α := Merge.take ⟨[], shorter, longer⟩ .longer 1
  start.finish rule (shorter.length + longer.length) patience

/-- Merges two neighbouring runs. What stands in front of the second run and what
stands behind the first one stays where it is. -/
def mergeRuns (before : α → α → Bool) (patience : Nat) (left right : List α) : List α × Nat :=
  let front := (right.head?.map fun y => extent (fun x => !before y x) false left).getD 0
  let first := left.drop front
  let behind :=
    (first.getLast?.map fun x => extent (fun y => !before y x) true right.reverse).getD 0
  let second := right.take (right.length - behind)
  if first.isEmpty || second.isEmpty then (left ++ right, patience)
  else
    let (merged, changed) :=
      if first.length ≤ second.length then mergeRows ⟨before, false⟩ patience first second
      else
        let (row, changed) :=
          mergeRows ⟨fun y x => before x y, true⟩ patience second.reverse first.reverse
        (row.reverse, changed)
    (left.take front ++ merged ++ right.drop (right.length - behind), changed)

end FieldGate.Sorting
