-- Sorting by merging runs. The runs of a row are merged in the shape of a
-- balanced tree over the row: neighbours whose boundary lies deep in it come
-- first. Items that do not stand apart keep their order.
import FieldGate.Sorting.Merge
import FieldGate.Sorting.Run

namespace FieldGate.Sorting

variable {α : Type}

/-- A run that waits to be merged: where it starts in the row, its items, and the
depth of its boundary with the run after it. -/
structure Pending (α : Type) where
  start : Nat
  items : List α
  depth : Nat

/-- How often a row has to be halved until two places, counted in half items, lie
in different parts. -/
def depthWithin (length : Nat) : (fuel a b : Nat) → Nat
  | 0, _, _ => 0
  | fuel + 1, a, b =>
    if length ≤ a then depthWithin length fuel (2 * (a - length)) (2 * (b - length)) + 1
    else if length ≤ b then 1
    else depthWithin length fuel (2 * a) (2 * b) + 1

/-- The depth of the boundary between two neighbouring runs of a row: that of
their middles. -/
def boundaryDepth (length start size next : Nat) : Nat :=
  let middle := 2 * start + size
  depthWithin length length middle (middle + size + next)

/-- Merges a run with those before it whose boundaries lie deeper than a depth. -/
def collapse (before : α → α → Bool) (depth patience : Nat) (top : Pending α) :
    List (Pending α) → Pending α × List (Pending α) × Nat
  | [] => (top, [], patience)
  | second :: rest =>
    if depth < second.depth then
      let (items, changed) := mergeRuns before patience second.items top.items
      collapse before depth changed { second with items } rest
    else (top, second :: rest, patience)

/-- The runs that wait, the last one first, how many items they have, and the
patience of the next merge. -/
structure Stack (α : Type) where
  pending : List (Pending α)
  size : Nat
  patience : Nat

namespace Stack

def empty : Stack α := ⟨[], 0, Merge.worthwhile⟩

/-- Adds the next run of a row of a length. Before that, runs are merged as far as
the depth of the new boundary allows. -/
def push (before : α → α → Bool) (length : Nat) (s : Stack α) (run : List α) : Stack α :=
  let added : Pending α := ⟨s.size, run, 0⟩
  match s.pending with
  | [] => ⟨[added], s.size + run.length, s.patience⟩
  | top :: rest =>
    let depth := boundaryDepth length top.start top.items.length run.length
    let (last, others, patience) := collapse before depth s.patience top rest
    ⟨added :: { last with depth } :: others, s.size + run.length, patience⟩

end Stack

/-- Merges all runs that wait. Of three, the two earlier ones are merged first if
the first one is shorter than the last one. -/
def collapseAll (before : α → α → Bool) (patience : Nat) (top : List α) :
    List (List α) → List α
  | [] => top
  | [second] => (mergeRuns before patience second top).1
  | second :: third :: rest =>
    if third.length < top.length then
      let (items, changed) := mergeRuns before patience third second
      collapseAll before changed top (items :: rest)
    else
      let (items, changed) := mergeRuns before patience second top
      collapseAll before changed items (third :: rest)
termination_by waiting => waiting.length

/-- Sorts a row by the test "stands strictly before". -/
def sortBy (before : α → α → Bool) (row : List α) : List α :=
  let stack := (runs before row).foldl (Stack.push before row.length) Stack.empty
  match stack.pending.map Pending.items with
  | [] => []
  | top :: rest => collapseAll before stack.patience top rest

end FieldGate.Sorting
