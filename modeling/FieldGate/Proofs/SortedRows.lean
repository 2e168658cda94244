-- Sorting only rearranges: the runs of a row, a merge of two runs and the whole sort have
-- every item as often as the row has it, whatever the test says. So the entries of an object
-- are all there when they are sorted by key.
import Mathlib
import FieldGate.Value.Json

namespace FieldGate.Sorting

variable {α : Type} (before : α → α → Bool)

/-! ## Runs -/

theorem leadingRun_perm (row : List α) :
    ((leadingRun before row).1 ++ (leadingRun before row).2).Perm row := by
  unfold leadingRun
  split
  · rename_i first second rest
    have hsplit (n : Nat) : (first :: second :: rest).take (n + 2) ++ rest.drop n
        = first :: second :: rest := List.take_append_drop (n + 2) (first :: second :: rest)
    dsimp only
    rw [Nat.add_sub_cancel]
    split
    · exact ((List.reverse_perm _).append_right _).trans (.of_eq (hsplit _))
    · exact .of_eq (hsplit _)
  · simp

theorem leadingRun_ne_nil {row : List α} (h : row ≠ []) : (leadingRun before row).1 ≠ [] := by
  unfold leadingRun
  split
  · dsimp only
    split <;> simp
  · exact h

theorem placeBetween_le (item : α) (run : List α) {low high : Nat} (h : low ≤ high) :
    placeBetween before item run low high ≤ high := by
  fun_induction placeBetween before item run low high with
  | case1 low high hlt middle _ ih =>
    have hmiddle : middle ≤ high := by omega
    exact (ih (by omega)).trans hmiddle
  | case2 low high hlt middle _ ih => exact ih (by omega)
  | case3 => exact h

theorem insertInto_perm (run : List α) (item : α) :
    (insertInto before run item).Perm (item :: run) :=
  List.perm_insertIdx item run (placeBetween_le before item run (Nat.zero_le _))

/-- Items put in one after another stand beside those that were there. -/
theorem foldl_insert_perm {insert : List α → α → List α}
    (h : ∀ row item, (insert row item).Perm (item :: row)) (row items : List α) :
    (items.foldl insert row).Perm (row ++ items) := by
  induction items generalizing row with
  | nil => simp
  | cons item items ih =>
    refine (ih _).trans (((h row item).append_right items).trans ?_)
    exact List.perm_middle.symm

theorem nextRun_perm (least : Nat) (row : List α) :
    ((nextRun before least row).1 ++ (nextRun before least row).2).Perm row := by
  unfold nextRun
  dsimp only
  refine ((foldl_insert_perm (insertInto_perm before) _ _).append_right _).trans ?_
  rw [List.append_assoc, List.take_append_drop]
  exact leadingRun_perm before row

theorem nextRun_ne_nil (least : Nat) {row : List α} (h : row ≠ []) :
    (nextRun before least row).1 ≠ [] := by
  intro hnil
  have hlength := (foldl_insert_perm (insertInto_perm before) (leadingRun before row).1
    ((leadingRun before row).2.take (least - (leadingRun before row).1.length))).length_eq
  unfold nextRun at hnil
  dsimp only at hnil
  rw [hnil, List.length_append] at hlength
  have hpos := List.length_pos_of_ne_nil (leadingRun_ne_nil before h)
  simp only [List.length_nil] at hlength
  omega

theorem runsWithin_perm (least : Nat) {fuel : Nat} {row : List α} (h : row.length ≤ fuel) :
    (runsWithin before least fuel row).flatten.Perm row := by
  induction fuel generalizing row with
  | zero =>
    rw [List.length_eq_zero_iff.mp (Nat.le_zero.mp h)]
    exact .nil
  | succ fuel ih =>
    cases row with
    | nil => exact .nil
    | cons item row =>
      have hperm := nextRun_perm before least (item :: row)
      have hpos := List.length_pos_of_ne_nil
        (nextRun_ne_nil before least (List.cons_ne_nil item row))
      have hlength := hperm.length_eq
      rw [List.length_append] at hlength
      rw [runsWithin, List.flatten_cons]
      · refine (List.Perm.append_left _ (ih ?_)).trans hperm
        simp only [List.length_cons] at h hlength
        omega
      · simp

/-- The runs of a row hold its items. -/
theorem runs_perm (row : List α) : (runs before row).flatten.Perm row :=
  runsWithin_perm before _ le_rfl

/-! ## Merges -/

namespace Merge

variable {rule : MergeRule α}

def items (m : Merge α) : List α := m.merged ++ m.shorter ++ m.longer

theorem result_perm (m : Merge α) : m.result.Perm m.items := by
  unfold result items
  rw [List.append_assoc, List.append_assoc]
  exact List.perm_append_comm.append_left m.merged

theorem take_perm (m : Merge α) (side : Side) (n : Nat) : (m.take side n).items.Perm m.items := by
  unfold take items
  cases side with
  | shorter =>
    dsimp only
    rw [List.append_assoc m.merged, List.take_append_drop]
  | longer =>
    have hmove : (m.longer.take n ++ m.shorter).Perm (m.shorter ++ m.longer.take n) :=
      List.perm_append_comm
    dsimp only
    calc m.merged ++ m.longer.take n ++ m.shorter ++ m.longer.drop n
      _ = m.merged ++ (m.longer.take n ++ m.shorter) ++ m.longer.drop n := by
        rw [List.append_assoc m.merged]
      List.Perm _ (m.merged ++ (m.shorter ++ m.longer.take n) ++ m.longer.drop n) :=
        (hmove.append_left m.merged).append_right _
      _ = m.merged ++ m.shorter ++ m.longer := by
        rw [← List.append_assoc, List.append_assoc, List.take_append_drop]

theorem takeOne_perm (m : Merge α) (side : Side) : (m.takeOne side).items.Perm m.items := by
  unfold takeOne
  split
  · exact .refl _
  · exact take_perm m side 1

theorem takeBatch_perm (m : Merge α) (side : Side) :
    (m.takeBatch rule side).1.items.Perm m.items := by
  unfold takeBatch
  split
  · exact .refl _
  · exact take_perm m side _

theorem race_perm (limit : Nat) (merged : List α) (last : Side) (streak : Nat)
    (shorter longer : List α) :
    (race rule limit merged last streak shorter longer).items.Perm
      (merged ++ shorter ++ longer) := by
  fun_induction race rule limit merged last streak shorter longer with
  | case1 => exact .refl _
  | case2 merged last streak x x' xs y ys _ _ _ ih =>
    exact ih.trans (take_perm ⟨merged, x :: x' :: xs, y :: ys⟩ .longer 1)
  | case3 merged last streak x x' xs y ys _ _ _ ih =>
    exact ih.trans (take_perm ⟨merged, x :: x' :: xs, y :: ys⟩ .shorter 1)
  | case4 => exact .refl _

theorem round_perm (m : Merge α) : (m.round rule).1.items.Perm m.items := by
  unfold round
  dsimp only
  exact (takeOne_perm _ _).trans
    ((takeBatch_perm _ _).trans ((takeOne_perm _ _).trans (takeBatch_perm _ _)))

theorem rounds_perm (fuel patience : Nat) (m : Merge α) :
    (m.rounds rule fuel patience).1.items.Perm m.items := by
  induction fuel generalizing patience m with
  | zero => exact .refl _
  | succ fuel ih =>
    rw [rounds]
    dsimp only
    split_ifs
    · exact round_perm m
    · exact (ih _ _).trans (round_perm m)
    · exact round_perm m

theorem finish_perm (fuel patience : Nat) (m : Merge α) :
    (m.finish rule fuel patience).1.Perm m.items := by
  induction fuel generalizing patience m with
  | zero => exact result_perm m
  | succ fuel ih =>
    rw [finish]
    split
    · exact result_perm m
    · dsimp only
      refine (ih _ _).trans ((rounds_perm _ _ _).trans ?_)
      exact race_perm _ _ _ _ _ _

end Merge

theorem mergeRows_perm (rule : MergeRule α) (patience : Nat) (shorter longer : List α) :
    (mergeRows rule patience shorter longer).1.Perm (shorter ++ longer) := by
  unfold mergeRows
  exact (Merge.finish_perm _ _ _).trans (Merge.take_perm ⟨[], shorter, longer⟩ .longer 1)

theorem mergeRuns_perm (patience : Nat) (left right : List α) :
    (mergeRuns before patience left right).1.Perm (left ++ right) := by
  unfold mergeRuns
  dsimp only
  generalize (Option.map _ right.head?).getD 0 = front
  generalize right.length - _ = size
  split
  · exact .refl _
  · -- What stays in front and behind is the rest of the two runs.
    have hsplit : left ++ right
        = left.take front ++ (left.drop front ++ right.take size) ++ right.drop size := by
      rw [← List.append_assoc, List.take_append_drop, List.append_assoc, List.take_append_drop]
    rw [hsplit]
    refine ((List.Perm.append_left _ ?_).append_right _)
    split
    · exact mergeRows_perm _ _ _ _
    · refine (List.reverse_perm _).trans ((mergeRows_perm _ _ _ _).trans ?_)
      exact List.perm_append_comm.trans
        ((List.reverse_perm _).append (List.reverse_perm _))

/-! ## The sort -/

def waiting (pending : List (Pending α)) : List α := pending.flatMap Pending.items

/-- A merge of the first two of some rows, the second one in front, keeps all items. -/
theorem merge_two_perm {merged first second : List α} (rest : List α)
    (h : merged.Perm (second ++ first)) : (merged ++ rest).Perm (first ++ (second ++ rest)) := by
  rw [← List.append_assoc]
  exact (h.trans List.perm_append_comm).append_right rest

theorem collapse_perm (depth patience : Nat) (top : Pending α) (pending : List (Pending α)) :
    let collapsed := collapse before depth patience top pending
    (waiting (collapsed.1 :: collapsed.2.1)).Perm (waiting (top :: pending)) := by
  induction pending generalizing patience top with
  | nil => exact .refl _
  | cons second rest ih =>
    rw [collapse]
    dsimp only
    split
    · exact (ih _ _).trans (merge_two_perm (waiting rest) (mergeRuns_perm before _ _ _))
    · exact .refl _

theorem Stack.push_perm (length : Nat) (s : Stack α) (run : List α) :
    (waiting (s.push before length run).pending).Perm (run ++ waiting s.pending) := by
  unfold Stack.push
  dsimp only
  split
  · rename_i hpending
    rw [hpending]
    exact .refl _
  · rename_i top rest hpending
    rw [hpending]
    exact (collapse_perm before _ _ top rest).append_left run

theorem foldl_push_perm (length : Nat) (s : Stack α) (rows : List (List α)) :
    (waiting (rows.foldl (Stack.push before length) s).pending).Perm
      (rows.flatten ++ waiting s.pending) := by
  induction rows generalizing s with
  | nil => exact .refl _
  | cons run rows ih =>
    refine (ih _).trans (((s.push_perm before length run).append_left _).trans ?_)
    rw [List.flatten_cons, ← List.append_assoc]
    exact List.perm_append_comm.append_right _

theorem collapseAll_perm (patience : Nat) (top : List α) (rows : List (List α)) :
    (collapseAll before patience top rows).Perm (top ++ rows.flatten) := by
  fun_induction collapseAll before patience top rows with
  | case1 => simp
  | case2 patience top second =>
    refine (mergeRuns_perm before _ _ _).trans ?_
    simpa using List.perm_append_comm
  | case3 patience top second third rest _ items changed hmerge ih =>
    have hitems := mergeRuns_perm before patience third second
    rw [hmerge] at hitems
    exact ih.trans ((merge_two_perm rest.flatten hitems).append_left top)
  | case4 patience top second third rest _ items changed hmerge ih =>
    have hitems := mergeRuns_perm before patience second top
    rw [hmerge] at hitems
    exact ih.trans (merge_two_perm (third ++ rest.flatten) hitems)

/-- A sorted row is a rearrangement of the row, whatever the test is. -/
theorem sortBy_perm (row : List α) : (sortBy before row).Perm row := by
  have hpushed : (waiting
      ((runs before row).foldl (Stack.push before row.length) Stack.empty).pending).Perm row := by
    refine (foldl_push_perm before _ _ _).trans ?_
    simpa [waiting, Stack.empty] using runs_perm before row
  unfold sortBy
  dsimp only
  unfold waiting at hpushed
  rw [List.flatMap_def] at hpushed
  split
  · rename_i hnone
    rwa [hnone] at hpushed
  · rename_i top rest hsome
    rw [hsome] at hpushed
    exact (collapseAll_perm before _ top rest).trans hpushed

end FieldGate.Sorting

namespace FieldGate

/-! ## The entries of an object -/

theorem insertByKey_perm (entries : List JsonEntry) (e : JsonEntry) :
    (insertByKey e entries).Perm (e :: entries) := by
  induction entries with
  | nil => exact .refl _
  | cons f rest ih =>
    unfold insertByKey
    split
    · exact .refl _
    · exact (ih.cons f).trans (.swap e f rest)

/-- The entries that are sorted by key are the entries, whether the keys have an order or
not. -/
theorem sortByKey_perm (entries : List JsonEntry) : (sortByKey entries).Perm entries := by
  unfold sortByKey
  split
  · exact Sorting.sortBy_perm _ entries
  · exact Sorting.foldl_insert_perm insertByKey_perm [] entries

end FieldGate
