-- The laws of values as texts: which integers the text of a value writes out, and
-- that there is a text unless one of them has too many digits.
import FieldGate.Coercion
import FieldGate.Proofs.Decimals
import FieldGate.Proofs.Outcomes

namespace FieldGate

/-! ## The integers of a text -/

/-- The integer has more digits than are written out. -/
def IsTooLong (n : Int) : Prop := 10 ^ longestNumeral ≤ n.natAbs

theorem isTooLong_iff {n : Int} :
    IsTooLong n ↔ longestNumeral < (decimalDigits n.natAbs).length := by
  have hiff := decimalDigits_length_le_iff (n := n.natAbs) (k := longestNumeral - 1)
  have hpos : longestNumeral - 1 + 1 = longestNumeral := by decide
  rw [hpos] at hiff
  unfold IsTooLong
  rw [← Nat.not_le, hiff, Nat.not_lt]

/-- The integer that a step writes out, if it is an index. -/
def Step.index? : Step → Option Int
  | .name _ => none
  | .index n => some n

/-- The integers that a path writes out when it is quoted. -/
def Path.indices (p : Path) : List Int := p.steps.filterMap Step.index?

namespace Value

mutual

/-- The integers that the quoted form of a value writes out. -/
def quotedIntegers : Value → List Int
  | int n => [n]
  | list items | tuple items | set items | frozenSet items => itemIntegers items
  | map entries => entryIntegers entries
  | spec field token declared =>
    quotedIntegers field ++ (quotedIntegers token ++ quotedIntegers declared)
  | path p => p.indices
  | check _ p _ declared => quotedIntegers declared ++ p.indices
  | null | bool _ | float _ | text _ | bytes _ | object _ _ | operator _ | undefined => []

def itemIntegers : List Value → List Int
  | [] => []
  | v :: rest => quotedIntegers v ++ itemIntegers rest

def entryIntegers : List (Value × Value) → List Int
  | [] => []
  | (k, v) :: rest => quotedIntegers k ++ (quotedIntegers v ++ entryIntegers rest)

end

theorem mem_itemIntegers {items : List Value} {n : Int} :
    n ∈ itemIntegers items ↔ ∃ v ∈ items, n ∈ v.quotedIntegers := by
  induction items with
  | nil => simp [itemIntegers]
  | cons v rest ih => simp [itemIntegers, ih]

theorem mem_entryIntegers {entries : List (Value × Value)} {n : Int} :
    n ∈ entryIntegers entries
      ↔ ∃ e ∈ entries, n ∈ e.1.quotedIntegers ∨ n ∈ e.2.quotedIntegers := by
  induction entries with
  | nil => simp [entryIntegers]
  | cons e rest ih => simp [entryIntegers, ih, or_assoc]

mutual

/-- The integers that the text of a value in a comparison writes out. A map and a
path have texts without any. -/
def textIntegers : Value → List Int
  | list items | tuple items => textsIntegers items
  | map _ | path _ => []
  | v => v.quotedIntegers

def textsIntegers : List Value → List Int
  | [] => []
  | v :: rest => textIntegers v ++ textsIntegers rest

end

end Value

/-! ## Texts that are refused -/

/-- There is an answer when none of these integers is too long to be written out,
and otherwise a refusal that says so. -/
def WritesOut {α : Type} (x : Except Mishap α) (ns : List Int) : Prop :=
  (∃ a, x = .ok a) ∧ (∀ n ∈ ns, ¬IsTooLong n) ∨ x = .error .integerTooLong ∧ ∃ n ∈ ns, IsTooLong n

section WritesOut

variable {α β : Type} {x : Except Mishap α} {ms ns : List Int}

theorem writesOut_ok (a : α) : WritesOut (.ok a) [] := .inl ⟨⟨a, rfl⟩, by simp⟩

/-- Two steps write out what the first writes and what the second writes. -/
theorem WritesOut.bind {f : α → Except Mishap β} (hx : WritesOut x ms)
    (hf : ∀ a, WritesOut (f a) ns) : WritesOut (x >>= f) (ms ++ ns) := by
  rcases hx with ⟨⟨a, rfl⟩, hshort⟩ | ⟨rfl, n, hn, hlong⟩
  · rw [ok_bind]
    rcases hf a with ⟨hb, hshort'⟩ | ⟨herror, n, hn, hlong⟩
    · refine .inl ⟨hb, ?_⟩
      intro n hn
      rcases List.mem_append.mp hn with hn | hn
      · exact hshort n hn
      · exact hshort' n hn
    · exact .inr ⟨herror, n, List.mem_append_right ms hn, hlong⟩
  · exact .inr ⟨rfl, n, List.mem_append_left ns hn, hlong⟩

/-- A step that always answers writes out nothing more. -/
theorem WritesOut.last {f : α → Except Mishap β} (hx : WritesOut x ms)
    (hf : ∀ a, ∃ b, f a = .ok b) : WritesOut (x >>= f) ms := by
  have hnone (a : α) : WritesOut (f a) [] := by
    obtain ⟨b, hb⟩ := hf a
    rw [hb]
    exact writesOut_ok b
  rw [← List.append_nil ms]
  exact hx.bind hnone

/-- There is no other refusal. -/
theorem WritesOut.refusal {m : Mishap} (hx : WritesOut x ns) (h : x = .error m) :
    m = .integerTooLong := by
  rcases hx with ⟨⟨a, ha⟩, -⟩ | ⟨herror, -⟩
  · rw [ha] at h
    cases h
  · exact Except.error.inj (h.symm.trans herror)

theorem writesOut_integerText (n : Int) : WritesOut (integerText n) [n] := by
  unfold integerText
  by_cases hlong : IsTooLong n
  · rw [if_pos (isTooLong_iff.mp hlong)]
    exact .inr ⟨rfl, n, List.mem_singleton_self n, hlong⟩
  · rw [if_neg (hlong ∘ isTooLong_iff.mpr)]
    refine .inl ⟨⟨_, rfl⟩, ?_⟩
    intro m hm
    rwa [List.mem_singleton.mp hm]

end WritesOut

/-! ## Paths and values -/

theorem writesOut_quotedSteps (steps : List Step) :
    WritesOut (steps.mapM Value.quotedStep) (steps.filterMap Step.index?) := by
  induction steps with
  | nil => exact writesOut_ok []
  | cons step steps ih =>
    rw [List.mapM_cons]
    cases step with
    | name t => exact ih.last fun parts => ⟨t.quoted :: parts, rfl⟩
    | index n =>
      refine (writesOut_integerText n).bind fun part => ?_
      exact ih.last fun parts => ⟨part :: parts, rfl⟩

theorem writesOut_quotedPath (p : Path) : WritesOut (Value.quotedPath p) p.indices :=
  (writesOut_quotedSteps p.steps).last fun _ => ⟨_, rfl⟩

mutual

/-- The quoted form of a value writes out the integers in it. -/
theorem writesOut_quoted : ∀ v : Value, WritesOut v.quoted v.quotedIntegers
  | .null | .bool _ | .float _ | .text _ | .bytes _ | .object _ _ | .operator _ | .undefined =>
    writesOut_ok _
  | .int n => writesOut_integerText n
  | .list items | .tuple items => (writesOut_quotedItems items).last fun _ => ⟨_, rfl⟩
  | .set members | .frozenSet members => by
    refine (writesOut_quotedItems members).last fun parts => ?_
    cases parts with
    | nil => exact ⟨_, rfl⟩
    | cons part parts => exact ⟨_, rfl⟩
  | .map entries => (writesOut_quotedEntries entries).last fun _ => ⟨_, rfl⟩
  | .spec field token declared => by
    refine (writesOut_quoted field).bind fun _ => (writesOut_quoted token).bind fun _ => ?_
    exact (writesOut_quoted declared).last fun _ => ⟨_, rfl⟩
  | .path p => writesOut_quotedPath p
  | .check _ p _ declared => by
    refine (writesOut_quoted declared).bind fun _ => ?_
    exact (writesOut_quotedPath p).last fun _ => ⟨_, rfl⟩

theorem writesOut_quotedItems :
    ∀ items : List Value, WritesOut (Value.quotedItems items) (Value.itemIntegers items)
  | [] => writesOut_ok []
  | v :: rest => by
    refine (writesOut_quoted v).bind fun _ => ?_
    exact (writesOut_quotedItems rest).last fun _ => ⟨_, rfl⟩

theorem writesOut_quotedEntries : ∀ entries : List (Value × Value),
    WritesOut (Value.quotedEntries entries) (Value.entryIntegers entries)
  | [] => writesOut_ok []
  | (k, v) :: rest => by
    refine (writesOut_quoted k).bind fun _ => (writesOut_quoted v).bind fun _ => ?_
    exact (writesOut_quotedEntries rest).last fun _ => ⟨_, rfl⟩

end

/-- The bare form of a value is a text at once, or its quoted form. -/
theorem shown_cases (v : Value) : (∃ t, v.shown = .ok t) ∨ v.shown = v.quoted := by
  cases v with
  | text _ | object _ _ | operator _ | path _ => exact .inl ⟨_, rfl⟩
  | _ => exact .inr rfl

mutual

/-- The text of a value in a comparison writes out the integers that stand in it. -/
theorem writesOut_toText : ∀ v : Value, WritesOut v.toText v.textIntegers
  | .null | .bool _ | .float _ | .text _ | .map _ | .path _ | .object _ _ | .operator _ =>
    writesOut_ok _
  | .list items | .tuple items => (writesOut_toTexts items).last fun _ => ⟨_, rfl⟩
  | .int n => writesOut_integerText n
  | .bytes octets => writesOut_quoted (.bytes octets)
  | .set members => writesOut_quoted (.set members)
  | .frozenSet members => writesOut_quoted (.frozenSet members)
  | .spec field token declared => writesOut_quoted (.spec field token declared)
  | .check field p kind declared => writesOut_quoted (.check field p kind declared)
  | .undefined => writesOut_quoted .undefined

theorem writesOut_toTexts :
    ∀ items : List Value, WritesOut (Value.toTexts items) (Value.textsIntegers items)
  | [] => writesOut_ok []
  | v :: rest => by
    refine (writesOut_toText v).bind fun _ => ?_
    exact (writesOut_toTexts rest).last fun _ => ⟨_, rfl⟩

end

end FieldGate
