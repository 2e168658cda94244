-- The laws of walking a path into a context: what a step finds in a value, when it
-- finds nothing, and the one kind of step at which a walk stops without an answer.
import FieldGate.Proofs.PathGrammar
import FieldGate.Proofs.DoubleRange
import FieldGate.Proofs.WrittenIntegers

namespace FieldGate

/-! ## What steps find -/

/-- The text looks like an index to a walk: there are points in it, and each of them
looks like a digit. -/
def LooksLikeIndex (t : Text) : Prop := t ≠ [] ∧ ∀ p ∈ t, p.isDigitLike = true

/-- The rest of a text behind its first digits starts with no digit. -/
def StartsNoDigit (rest : Text) : Prop := ∀ p ∈ rest.head?, p.isDigit = false

/-- The text is no index, and this is the mishap of reading it as one: the digits
that it starts with are too many to be read, or are not the whole of it. -/
inductive RefusedIndex : Text → Mishap → Prop
  | tooLong {ds rest : Text} {vs : List Nat} : DigitsOf ds vs → StartsNoDigit rest →
      longestNumeral < ds.length → RefusedIndex (ds ++ rest) (.numeralTooLong ds.length)
  | notWhole {ds rest : Text} {vs : List Nat} : DigitsOf ds vs → StartsNoDigit rest →
      ds.length ≤ longestNumeral → rest ≠ [] →
      RefusedIndex (ds ++ rest) (.notInteger (ds ++ rest).quoted)

/-- What a step finds in a value: an entry of a map, an item or the length of a
sequence, or a named part of any other value. -/
inductive Finds : Value → Step → Value → Prop
  | entry {entries : List (Value × Value)} {step : Step} {v : Value} :
      Value.entry? entries step.value = some v → Finds (.map entries) step v
  | writtenKey {entries : List (Value × Value)} {n : Nat} {v : Value} :
      Value.entry? entries (.int n) = none → Value.field? entries (decimal n) = some v →
      Finds (.map entries) (.index n) v
  | length {target : Value} {items : List Value} : target.sequence? = some items →
      target.hasLength = true → Finds target (.name "length") (.int items.length)
  | item {target : Value} {items : List Value} {n : Nat} {v : Value} :
      target.sequence? = some items → items[n]? = some v → Finds target (.index n) v
  | writtenItem {target : Value} {items : List Value} {t : Text} {vs : List Nat} {v : Value} :
      target.sequence? = some items → t ≠ [] → DigitsOf t vs → t.length ≤ longestNumeral →
      items[numberOfDigits vs]? = some v → Finds target (.name t) v
  | part {target : Value} {name : Text} {v : Value} : target.attribute? name = some v →
      ¬Value.hiddenStart <+: name → Finds target (.name name) v

/-- A walk stops at the step in this value: a sequence and a text that looks like an
index but is refused as one. -/
def StopsIn (target : Value) (step : Step) (m : Mishap) : Prop :=
  ∃ items t, target.sequence? = some items ∧ step = .name t ∧ LooksLikeIndex t ∧ RefusedIndex t m

/-- The step addresses nothing in the value, and the walk does not stop at it. -/
def FindsNothing (target : Value) (step : Step) : Prop :=
  (∀ v, ¬Finds target step v) ∧ ∀ m, ¬StopsIn target step m

/-- The steps lead from a value to another one. A step that addresses nothing leads
to the missing value, in which no step finds anything. -/
inductive Walks : Value → List Step → Value → Prop
  | done {v : Value} : Walks v [] v
  | found {v w result : Value} {step : Step} {rest : List Step} : Finds v step w →
      Walks w rest result → Walks v (step :: rest) result
  | nothing {v result : Value} {step : Step} {rest : List Step} : FindsNothing v step →
      Walks .null rest result → Walks v (step :: rest) result

/-- The walk from a value stops with a mishap at one of the steps. -/
def StopsAt (context : Value) (steps : List Step) (m : Mishap) : Prop :=
  ∃ before step after target, steps = before ++ step :: after ∧ Walks context before target
    ∧ StopsIn target step m

/-! ## The indices of a compiled path -/

/-- The step can be written out. -/
def Step.IsShort (step : Step) : Prop := ∀ n ∈ step.index?, ¬IsTooLong n

theorem isShort_name (t : Text) : (Step.name t).IsShort := by
  rintro n ⟨⟩

theorem isShort_index {n : Nat} (h : n < 10 ^ longestNumeral) : (Step.index n).IsShort := by
  rintro _ ⟨⟩
  simpa [IsTooLong] using h

theorem integerText_index {n : Nat} (h : (Step.index n).IsShort) :
    integerText n = .ok (decimal n) := by
  have hshort := h n rfl
  unfold integerText
  split
  · rename_i hlong
    have herror : integerText n = .error .integerTooLong := if_pos hlong
    rcases writesOut_integerText n with ⟨⟨t, ht⟩, -⟩ | ⟨-, m, hm, hlong⟩
    · rw [herror] at ht
      cases ht
    · rw [List.mem_singleton.mp hm] at hlong
      exact absurd hlong hshort
  · simp [signedDecimal]

theorem size_lt {m s k : Nat} (hm : m < 2 ^ 53) (hs : s ≤ k) : sizeInUnits m s < 2 ^ (53 + k) :=
  calc sizeInUnits m s = m * 2 ^ s := rfl
    _ < 2 ^ 53 * 2 ^ s := Nat.mul_lt_mul_of_pos_right hm (Nat.two_pow_pos s)
    _ ≤ 2 ^ 53 * 2 ^ k := Nat.mul_le_mul_left _ (Nat.pow_le_pow_right Nat.two_pos hs)
    _ = 2 ^ (53 + k) := (pow_add 2 53 k).symm

theorem two_pow_le {k : Nat} (h : k ≤ longestNumeral) : 2 ^ k ≤ 10 ^ longestNumeral :=
  (Nat.pow_le_pow_left (by decide) k).trans (Nat.pow_le_pow_right (by decide) h)

/-- The whole part of a double has at most 1024 bits. -/
theorem wholePart?_lt {d : Double} {n : Int} (h : d.wholePart? = some n) :
    n.natAbs < 2 ^ 1024 := by
  cases d with
  | nan | infinite _ => cases h
  | finite negative m s fits =>
    obtain rfl := Option.some.inj h
    obtain ⟨hm, hs, -⟩ := fitsDouble_iff.mp fits
    have hbits : 53 + 2045 = 1074 + 1024 := rfl
    have hsize := size_lt hm hs
    rw [hbits, pow_add, ← unitsPerOne_eq] at hsize
    rw [natAbs_signed]
    exact Nat.div_lt_of_lt_mul hsize

theorem literalStep_isShort {t : Token} {step : Step} (h : literalStep t = .ok step) :
    step.IsShort := by
  unfold literalStep at h
  split at h
  · split at h
    · obtain rfl := Except.ok.inj h
      exact isShort_name _
    · cases h
  · -- Digits alone are not too many, and any other numeral stands for a double.
    unfold indexStep at h
    split at h
    · rename_i digits hsplit
      obtain ⟨n, hn, rfl⟩ := map_eq_ok.mp (mapError_eq_ok.mp h)
      have hdigits := splitDigits_lt t.text
      rw [hsplit] at hdigits
      exact isShort_index (integerOfDigits_lt hdigits hn)
    · split at h
      · split at h
        · rename_i n _ hn
          obtain rfl := Except.ok.inj h
          apply isShort_index
          calc n.toNat ≤ n.natAbs := by omega
            _ < 2 ^ 1024 := wholePart?_lt hn
            _ ≤ 10 ^ longestNumeral := two_pow_le (by decide)
        · cases h
      · cases h
  · cases h

theorem accessors_isShort {ts : List Token} {steps : List Step} (h : accessors ts = .ok steps) :
    ∀ step ∈ steps, step.IsShort := by
  fun_induction accessors ts generalizing steps with
  | case1 =>
    obtain rfl := Except.ok.inj h
    simp
  | case2 | case4 | case5 | case7 => cases h
  | case3 dot hdot name more hname ih =>
    obtain ⟨others, hothers, rfl⟩ := map_eq_ok.mp h
    simp only [List.mem_cons, forall_eq_or_imp]
    exact ⟨isShort_name _, ih hothers⟩
  | case6 opener hopener element after ih =>
    obtain ⟨step, hstep, h⟩ := bind_eq_ok.mp h
    cases after with
    | nil => cases h
    | cons closer more =>
      dsimp only at h ih
      split at h
      · obtain ⟨others, hothers, h⟩ := bind_eq_ok.mp h
        obtain rfl := Except.ok.inj h
        simp only [List.mem_cons, forall_eq_or_imp]
        exact ⟨literalStep_isShort hstep, ih hothers⟩
      · cases h

theorem stepsOf_isShort {ts : List Token} {steps : List Step} (h : stepsOf ts = .ok steps) :
    ∀ step ∈ steps, step.IsShort := by
  cases ts with
  | nil => cases h
  | cons t rest =>
    rw [stepsOf.eq_def] at h
    dsimp only at h
    split at h
    · obtain ⟨others, hothers, rfl⟩ := map_eq_ok.mp h
      simp only [List.mem_cons, forall_eq_or_imp]
      exact ⟨isShort_name _, accessors_isShort hothers⟩
    · obtain ⟨⟨elements, left⟩, hshorthand, h⟩ := bind_eq_ok.mp h
      dsimp only at h
      split at h
      · obtain ⟨others, hothers, h⟩ := bind_eq_ok.mp h
        obtain rfl := Except.ok.inj h
        obtain ⟨element, hstep, -⟩ := shorthand_one hshorthand
        simp only [List.mem_cons, forall_eq_or_imp]
        exact ⟨literalStep_isShort hstep, accessors_isShort hothers⟩
      · cases h
    · cases h

/-- Every index of a compiled path can be written out. -/
theorem compile_isShort {e : Text} {p : Path} (h : compilePath (.text e) = .ok p) :
    ∀ step ∈ p.steps, step.IsShort := by
  obtain ⟨ts, -, hsteps, -⟩ := compile_ok_spec (compilePath_ok_iff.mp h)
  exact stepsOf_isShort hsteps

/-! ## Reading a text as an index -/

theorem digitLike_test {p : Point} (h : p.isDigitLike = true) :
    p.isNumeralBlank = false ∧ p ≠ '-' ∧ p ≠ '+' ∧ p ≠ '_' := by
  refine ⟨?_, ?_, ?_, ?_⟩
  · have hblank : p.isBlank = false := by
      rcases Bool.or_eq_true _ _ |>.mp h with hdigit | hloose
      · exact isBlank_of_isDigit hdigit
      · simp only [Point.within, looseDigitRanges, List.any_cons, List.any_nil, Bool.or_false,
          Bool.or_eq_true, Bool.and_eq_true, decide_eq_true_eq] at hloose
        simp only [Point.isBlank, Point.within, List.any_cons, List.any_nil, Bool.or_false,
          Bool.or_eq_false_iff, Bool.and_eq_false_iff, decide_eq_false_iff_not]
        omega
    simp [Point.isNumeralBlank, hblank]
  all_goals
    rintro rfl
    revert h
    decide +kernel

theorem dropUnderscores?_eq {t : Text} (h : ∀ p ∈ t, p ≠ '_') (after : Bool) :
    dropUnderscores? after t = some t := by
  induction t generalizing after with
  | nil => rfl
  | cons p t ih =>
    rw [dropUnderscores?, if_neg (h p List.mem_cons_self),
      ih fun q hq => h q (List.mem_cons_of_mem p hq)]
    rfl

/-- What reading a text as an index comes to: its first digits are counted, and then
they must be the whole of it. -/
theorem indexOfDigits_eq {ds rest : Text} {vs : List Nat}
    (hlooks : LooksLikeIndex (ds ++ rest)) (hds : DigitsOf ds vs) (hrest : StartsNoDigit rest) :
    indexOfDigits (ds ++ rest) =
      if longestNumeral < ds.length then .error (.numeralTooLong ds.length)
      else if rest = [] then .ok (numberOfDigits vs)
      else .error (.notInteger (ds ++ rest).quoted) := by
  have htest p hp := digitLike_test (hlooks.2 p hp)
  have hrun : (ds ++ rest).takeWhile (fun p : Point => p.isDigit || p = '_') = ds := by
    rw [List.takeWhile_append_of_pos fun p hp => by simp [hds.isDigit p hp]]
    cases rest with
    | nil => simp
    | cons p rest =>
      have hline := (htest p (by simp)).2.2.2
      rw [List.takeWhile_cons_of_neg (by simp [hrest p rfl, hline]), List.append_nil]
  have hunderscores := dropUnderscores?_eq (t := ds)
    (fun p hp => (htest p (List.mem_append_left _ hp)).2.2.2) false
  unfold indexOfDigits readInteger
  rw [trimmed_eq fun p hp => (htest p hp).1,
    splitSign_eq fun p hp => ⟨(htest p hp).2.1, (htest p hp).2.2.1⟩]
  simp only [hrun, hunderscores]
  cases ds with
  | nil =>
    have hne : rest ≠ [] := hlooks.1
    simp [hne]
  | cons d ds =>
    dsimp only
    rw [splitDigits_digits hds]
    simp only [integerOfDigits, hds.length_eq]
    by_cases hlong : longestNumeral < (d :: ds).length
    · rw [if_pos hlong, if_pos hlong]
      rfl
    · rw [if_neg hlong, if_neg hlong, ok_bind]
      by_cases hwhole : rest = []
      · rw [if_pos hwhole, if_neg (by simp [hwhole])]
        rfl
      · have hpos := List.length_pos_of_ne_nil hwhole
        have hshorter : (d :: ds).length < (d :: ds ++ rest).length := by
          rw [List.length_append]
          omega
        rw [if_neg hwhole, if_pos hshorter]

theorem exists_firstDigits (t : Text) :
    ∃ ds rest vs, t = ds ++ rest ∧ DigitsOf ds vs ∧ StartsNoDigit rest := by
  obtain ⟨vs, hvs⟩ := exists_digitsOf fun p hp => List.mem_takeWhile_imp (l := t) hp
  refine ⟨_, t.dropWhile Point.isDigit, vs, List.takeWhile_append_dropWhile.symm, hvs, ?_⟩
  intro p hp
  have hhead := List.head?_dropWhile_not Point.isDigit t
  rw [Option.mem_def.mp hp] at hhead
  simpa using hhead

theorem looksLikeIndex_digits {t : Text} {vs : List Nat} (hne : t ≠ []) (hds : DigitsOf t vs) :
    LooksLikeIndex t :=
  ⟨hne, fun p hp => by simp [Point.isDigitLike, hds.isDigit p hp]⟩

theorem indexOfDigits_ok {t : Text} {vs : List Nat} (hne : t ≠ []) (hds : DigitsOf t vs)
    (hlength : t.length ≤ longestNumeral) : indexOfDigits t = .ok (numberOfDigits vs) := by
  have hlooks := looksLikeIndex_digits hne hds
  rw [← List.append_nil t] at hlooks
  have heq := indexOfDigits_eq hlooks hds (by simp [StartsNoDigit])
  rwa [if_neg (Nat.not_lt.mpr hlength), if_pos rfl, List.append_nil] at heq

theorem indexOfDigits_refused {t : Text} {m : Mishap} (hlooks : LooksLikeIndex t)
    (h : RefusedIndex t m) : indexOfDigits t = .error m := by
  cases h with
  | tooLong hds hrest hlong => rw [indexOfDigits_eq hlooks hds hrest, if_pos hlong]
  | notWhole hds hrest hlength hne =>
    rw [indexOfDigits_eq hlooks hds hrest, if_neg (Nat.not_lt.mpr hlength), if_neg hne]

/-- A text that looks like an index is one, or is refused as one. -/
theorem index_or_refused {t : Text} (hlooks : LooksLikeIndex t) :
    (∃ vs, DigitsOf t vs ∧ t.length ≤ longestNumeral) ∨ ∃ m, RefusedIndex t m := by
  obtain ⟨ds, rest, vs, rfl, hds, hrest⟩ := exists_firstDigits t
  by_cases hlong : longestNumeral < ds.length
  · exact .inr ⟨_, .tooLong hds hrest hlong⟩
  · by_cases hwhole : rest = []
    · subst hwhole
      rw [List.append_nil]
      exact .inl ⟨vs, hds, Nat.le_of_not_lt hlong⟩
    · exact .inr ⟨_, .notWhole hds hrest (Nat.le_of_not_lt hlong) hwhole⟩

theorem positionOf_text {t : Text} (typeName : Text) (length : Nat) (h : LooksLikeIndex t) :
    Value.positionOf typeName length (.text t) = (indexOfDigits t).map some := by
  rw [Value.positionOf, if_pos]
  simpa [LooksLikeIndex] using h

theorem positionOf_other {t : Text} (typeName : Text) (length : Nat) (h : ¬LooksLikeIndex t) :
    Value.positionOf typeName length (.text t) = .ok none := by
  rw [Value.positionOf, if_neg]
  simpa [LooksLikeIndex] using h

/-! ## One step -/

/-- A step into a sequence that does not ask for its length. -/
theorem stepInto_sequence {target step : Value} {items : List Value}
    (hitems : target.sequence? = some items)
    (hlength : (step.asksLength && target.hasLength) = false) :
    target.stepInto step = (Value.positionOf target.typeName items.length step).map fun n =>
      (n.map (Value.itemAt items)).getD .null := by
  unfold Value.stepInto
  split
  · cases hitems
  · simp only [hitems, hlength, Bool.false_eq_true, ↓reduceIte]

/-- A step that asks a value with a length for it. -/
theorem stepInto_length {target step : Value} {items : List Value}
    (hitems : target.sequence? = some items)
    (hlength : (step.asksLength && target.hasLength) = true) :
    target.stepInto step = .ok (.int items.length) := by
  unfold Value.stepInto
  split
  · cases hitems
  · simp only [hitems, hlength, ↓reduceIte]

theorem asksLength_digits {t : Text} (h : LooksLikeIndex t) :
    (Value.text t).asksLength = false := by
  unfold Value.asksLength
  rw [decide_eq_false_iff_not]
  rintro rfl
  have := h.2 'l' (by decide)
  revert this
  decide +kernel

/-- A step into a sequence by a text that looks like an index reads it as one. -/
theorem stepInto_index {target : Value} {items : List Value} {t : Text}
    (hitems : target.sequence? = some items) (hlooks : LooksLikeIndex t) :
    target.stepInto (Step.name t).value = (indexOfDigits t).map (Value.itemAt items) := by
  have hlength : ((Value.text t).asksLength && target.hasLength) = false := by
    rw [asksLength_digits hlooks]
    rfl
  rw [Step.value, stepInto_sequence hitems hlength, positionOf_text _ _ hlooks]
  cases indexOfDigits t <;> rfl

theorem itemAt_natCast (items : List Value) (n : Nat) :
    Value.itemAt items n = items[n]?.getD .null := by
  simp [Value.itemAt]

/-- A value with named parts is no container. -/
theorem stepInto_part {target : Value} {name : Text} {v : Value}
    (h : target.attribute? name = some v) (hseen : ¬Value.hiddenStart <+: name) :
    target.stepInto (.text name) = .ok v := by
  have hvisible : Value.hiddenStart.isPrefixOf name = false := by
    rwa [← Bool.not_eq_true, List.isPrefixOf_iff_prefix]
  have hattribute : Value.attributeAt target (.text name) = v := by
    rw [Value.attributeAt, hvisible, h]
    rfl
  rw [← hattribute]
  cases target with
  | null | text _ | bytes _ | list _ | tuple _ | set _ | frozenSet _ | map _ | undefined => cases h
  | _ => rfl

/-- An index that is no key of a map is looked for again by its text. -/
theorem stepInto_writtenKey {entries : List (Value × Value)} {n : Nat}
    (hshort : (Step.index n).IsShort) (hnone : Value.entry? entries (.int n) = none) :
    (Value.map entries).stepInto (Step.index n).value
      = .ok ((Value.field? entries (decimal n)).getD .null) := by
  have hshown : (Value.int n).shown = .ok (decimal n) := integerText_index hshort
  simp only [Step.value, Value.stepInto, Value.entryAt, Value.notKey?, hnone, Value.integer?,
    hshown]
  rfl

/-- What a step finds is what the walk goes on with. -/
theorem stepInto_finds {target v : Value} {step : Step} (hshort : step.IsShort)
    (h : Finds target step v) : target.stepInto step.value = .ok v := by
  cases h with
  | @entry entries _ _ hentry =>
    have hkey : step.value.notKey? = none := by cases step <;> rfl
    simp only [Value.stepInto, Value.entryAt, hkey, hentry]
  | writtenKey hnone hwritten =>
    rw [stepInto_writtenKey hshort hnone, hwritten]
    rfl
  | length hitems hlength =>
    have hasks : (Step.name "length").value.asksLength = true := rfl
    exact stepInto_length hitems (by rw [hasks, hlength, Bool.and_self])
  | @item _ items n _ hitems hitem =>
    rw [stepInto_sequence hitems rfl]
    simp [Step.value, Value.positionOf, Except.map, itemAt_natCast, hitem]
  | @writtenItem _ items t vs _ hitems hne hds hlength hitem =>
    have hlooks := looksLikeIndex_digits hne hds
    rw [stepInto_index hitems hlooks, indexOfDigits_ok hne hds hlength]
    simp [Except.map, itemAt_natCast, hitem]
  | part hpart hseen => exact stepInto_part hpart hseen

/-- Where a walk stops at a step, the step ends with the mishap. -/
theorem stepInto_stops {target : Value} {step : Step} {m : Mishap} (h : StopsIn target step m) :
    target.stepInto step.value = .error m := by
  obtain ⟨items, t, hitems, rfl, hlooks, hrefused⟩ := h
  rw [stepInto_index hitems hlooks, indexOfDigits_refused hlooks hrefused]
  rfl

theorem map_cases {entries : List (Value × Value)} {step : Step} (hshort : step.IsShort) :
    (∃ v, Finds (.map entries) step v) ∨ (Value.map entries).stepInto step.value = .ok .null := by
  have hkey : step.value.notKey? = none := by cases step <;> rfl
  cases hentry : Value.entry? entries step.value with
  | some v => exact .inl ⟨v, .entry hentry⟩
  | none =>
    cases step with
    | name t =>
      right
      simp only [Value.stepInto, Value.entryAt, hkey, hentry]
      rfl
    | index n =>
      cases hwritten : Value.field? entries (decimal n) with
      | some v => exact .inl ⟨v, .writtenKey hentry hwritten⟩
      | none =>
        right
        rw [stepInto_writtenKey hshort hentry, hwritten]
        rfl

theorem sequence_cases {target : Value} {items : List Value} {step : Step}
    (hitems : target.sequence? = some items) :
    (∃ v, Finds target step v) ∨ (∃ m, StopsIn target step m)
      ∨ target.stepInto step.value = .ok .null := by
  cases step with
  | index n =>
    cases hitem : items[n]? with
    | some v => exact .inl ⟨v, .item hitems hitem⟩
    | none =>
      refine .inr (.inr ?_)
      rw [stepInto_sequence hitems rfl]
      simp [Step.value, Value.positionOf, Except.map, itemAt_natCast, hitem]
  | name t =>
    by_cases hlooks : LooksLikeIndex t
    · rcases index_or_refused hlooks with ⟨vs, hds, hlength⟩ | ⟨m, hrefused⟩
      · cases hitem : items[numberOfDigits vs]? with
        | some v => exact .inl ⟨v, .writtenItem hitems hlooks.1 hds hlength hitem⟩
        | none =>
          refine .inr (.inr ?_)
          rw [stepInto_index hitems hlooks, indexOfDigits_ok hlooks.1 hds hlength]
          simp [Except.map, itemAt_natCast, hitem]
      · exact .inr (.inl ⟨m, items, t, hitems, rfl, hlooks, hrefused⟩)
    · by_cases hlength : t = "length" ∧ target.hasLength = true
      · obtain ⟨rfl, hlength⟩ := hlength
        exact .inl ⟨_, .length hitems hlength⟩
      · refine .inr (.inr ?_)
        rw [Step.value, stepInto_sequence hitems (by simpa [Value.asksLength] using hlength),
          positionOf_other _ _ hlooks]
        rfl

theorem part_cases (target : Value) (step : Step) :
    (∃ v, Finds target step v) ∨ target.attributeAt step.value = .null := by
  cases step with
  | index n => exact .inr rfl
  | name t =>
    by_cases hhidden : Value.hiddenStart <+: t
    · right
      rw [Step.value, Value.attributeAt, if_pos (List.isPrefixOf_iff_prefix.mpr hhidden)]
    · cases hpart : target.attribute? t with
      | some v => exact .inl ⟨v, .part hpart hhidden⟩
      | none =>
        right
        rw [Step.value, Value.attributeAt, hpart, if_neg (mt List.isPrefixOf_iff_prefix.mp hhidden)]
        rfl

/-- A step finds something, or a walk stops at it, or it gives the missing value. -/
theorem stepInto_cases (target : Value) {step : Step} (hshort : step.IsShort) :
    (∃ v, Finds target step v) ∨ (∃ m, StopsIn target step m)
      ∨ target.stepInto step.value = .ok .null := by
  cases hitems : target.sequence? with
  | some items => exact sequence_cases hitems
  | none =>
    cases target with
    | map entries => exact (map_cases hshort).imp_right .inr
    | text _ | bytes _ | list _ | tuple _ => cases hitems
    | _ => exact (part_cases _ step).imp_right fun hnull => .inr (congrArg Except.ok hnull)

theorem stepInto_nothing {target : Value} {step : Step} (hshort : step.IsShort)
    (h : FindsNothing target step) : target.stepInto step.value = .ok .null := by
  rcases stepInto_cases target hshort with ⟨v, hv⟩ | ⟨m, hm⟩ | hnull
  · exact absurd hv (h.1 v)
  · exact absurd hm (h.2 m)
  · exact hnull

/-- What one step comes to: what it finds, the missing value where it addresses
nothing, or the mishap at which the walk stops. -/
theorem stepInto_ok_iff {target v : Value} {step : Step} (hshort : step.IsShort) :
    target.stepInto step.value = .ok v ↔
      Finds target step v ∨ FindsNothing target step ∧ v = .null := by
  constructor
  · intro h
    by_cases hfinds : ∃ w, Finds target step w
    · obtain ⟨w, hw⟩ := hfinds
      rw [stepInto_finds hshort hw] at h
      exact .inl (Except.ok.inj h ▸ hw)
    · have hnothing : FindsNothing target step := by
        refine ⟨not_exists.mp hfinds, ?_⟩
        intro m hm
        rw [stepInto_stops hm] at h
        cases h
      rw [stepInto_nothing hshort hnothing] at h
      exact .inr ⟨hnothing, (Except.ok.inj h).symm⟩
  · rintro (hfinds | ⟨hnothing, rfl⟩)
    · exact stepInto_finds hshort hfinds
    · exact stepInto_nothing hshort hnothing

theorem stepInto_error_iff {target : Value} {step : Step} {m : Mishap} (hshort : step.IsShort) :
    target.stepInto step.value = .error m ↔ StopsIn target step m := by
  refine ⟨fun h => ?_, stepInto_stops⟩
  rcases stepInto_cases target hshort with ⟨v, hv⟩ | ⟨n, hn⟩ | hnull
  · rw [stepInto_finds hshort hv] at h
    cases h
  · rw [stepInto_stops hn] at h
    obtain rfl := Except.error.inj h
    exact hn
  · rw [hnull] at h
    cases h

/-! ## The whole walk -/

@[simp] theorem walk_nil (v : Value) : v.walk [] = .ok v := by
  cases v <;> rfl

theorem walk_null (steps : List Value) : Value.null.walk steps = .ok .null := by
  cases steps <;> rfl

theorem stepInto_null (step : Value) : Value.null.stepInto step = .ok .null := by
  cases step with
  | text t =>
    change Except.ok (if Value.hiddenStart.isPrefixOf t then Value.null else Value.null) = _
    rw [ite_self]
  | _ => rfl

/-- A walk is its first step and then the rest, also where something is missing. -/
theorem walk_step (v step : Value) (rest : List Value) :
    v.walk (step :: rest) = (v.stepInto step >>= fun w => w.walk rest) := by
  cases v with
  | null => rw [stepInto_null, ok_bind, walk_null, walk_null]
  | _ => rfl

theorem walk_cons (v : Value) (step : Step) (rest : List Value) :
    v.walk (step.value :: rest) = (v.stepInto step.value >>= fun w => w.walk rest) :=
  walk_step v step.value rest

theorem walk_ok_iff {context v : Value} {steps : List Step}
    (hshort : ∀ step ∈ steps, step.IsShort) :
    context.walk (steps.map Step.value) = .ok v ↔ Walks context steps v := by
  induction steps generalizing context with
  | nil =>
    rw [List.map_nil, walk_nil, Except.ok.injEq]
    constructor
    · rintro rfl
      exact .done
    · rintro ⟨⟩
      rfl
  | cons step rest ih =>
    have hfirst := hshort step List.mem_cons_self
    have hrest {w : Value} : w.walk (rest.map Step.value) = .ok v ↔ Walks w rest v :=
      ih fun s hs => hshort s (List.mem_cons_of_mem step hs)
    rw [List.map_cons, walk_cons, bind_eq_ok]
    constructor
    · rintro ⟨w, hstep, hwalk⟩
      rcases (stepInto_ok_iff hfirst).mp hstep with hfinds | ⟨hnothing, rfl⟩
      · exact .found hfinds (hrest.mp hwalk)
      · exact .nothing hnothing (hrest.mp hwalk)
    · intro hwalks
      cases hwalks with
      | found hfinds hwalk =>
        exact ⟨_, (stepInto_ok_iff hfirst).mpr (.inl hfinds), hrest.mpr hwalk⟩
      | nothing hnothing hwalk =>
        exact ⟨_, (stepInto_ok_iff hfirst).mpr (.inr ⟨hnothing, rfl⟩), hrest.mpr hwalk⟩

/-- A walk stops at its first step, or behind it. -/
theorem stopsAt_cons_iff {context : Value} {step : Step} {rest : List Step} {m : Mishap} :
    StopsAt context (step :: rest) m ↔ StopsIn context step m
      ∨ ∃ w, (Finds context step w ∨ FindsNothing context step ∧ w = .null)
        ∧ StopsAt w rest m := by
  constructor
  · rintro ⟨before, stop, after, target, hsplit, hwalks, hstops⟩
    cases before with
    | nil =>
      obtain ⟨rfl, rfl⟩ := List.cons.inj hsplit
      cases hwalks
      exact .inl hstops
    | cons first before =>
      obtain ⟨rfl, rfl⟩ := List.cons.inj hsplit
      cases hwalks with
      | found hfinds hwalks =>
        exact .inr ⟨_, .inl hfinds, before, stop, after, target, rfl, hwalks, hstops⟩
      | nothing hnothing hwalks =>
        exact .inr ⟨_, .inr ⟨hnothing, rfl⟩, before, stop, after, target, rfl, hwalks, hstops⟩
  · rintro (hstops | ⟨w, hfirst, before, stop, after, target, rfl, hwalks, hstops⟩)
    · exact ⟨[], step, rest, context, rfl, .done, hstops⟩
    · refine ⟨step :: before, stop, after, target, rfl, ?_, hstops⟩
      rcases hfirst with hfinds | ⟨hnothing, rfl⟩
      · exact .found hfinds hwalks
      · exact .nothing hnothing hwalks

theorem not_stopsAt_nil {context : Value} {m : Mishap} : ¬StopsAt context [] m := by
  rintro ⟨before, stop, after, target, hsplit, -⟩
  exact absurd hsplit.symm (by simp)

theorem walk_error_iff {context : Value} {steps : List Step} {m : Mishap}
    (hshort : ∀ step ∈ steps, step.IsShort) :
    context.walk (steps.map Step.value) = .error m ↔ StopsAt context steps m := by
  induction steps generalizing context with
  | nil =>
    rw [List.map_nil, walk_nil]
    constructor
    · intro h
      cases h
    · exact fun h => absurd h not_stopsAt_nil
  | cons step rest ih =>
    have hfirst := hshort step List.mem_cons_self
    have hrest {w : Value} : w.walk (rest.map Step.value) = .error m ↔ StopsAt w rest m :=
      ih fun s hs => hshort s (List.mem_cons_of_mem step hs)
    rw [List.map_cons, walk_cons, bind_eq_error, stopsAt_cons_iff, stepInto_error_iff hfirst]
    simp only [stepInto_ok_iff hfirst, hrest]

/-- Walking a compiled path gives just what its steps lead to, and a step that
addresses nothing leads to the missing value. One thing alone keeps a walk from an
answer: a name that looks like an index, since each of its points looks like a digit,
meets a sequence and cannot be read as an integer. -/
theorem walking_answers_but_for_a_name_that_only_looks_like_an_index {e : Text} {p : Path}
    (hp : compilePath (.text e) = .ok p) (context : Value) :
    (∀ v, p.resolve context = .ok v ↔ Walks context p.steps v)
      ∧ ∀ m, p.resolve context = .error m ↔ StopsAt context p.steps m :=
  ⟨fun _ => walk_ok_iff (compile_isShort hp), fun _ => walk_error_iff (compile_isShort hp)⟩

/-- The roles of a user, of which the second one is asked for. -/
def twoRoles : Value :=
  .record [("user", .record [("roles", .list [.text "guest", .text "admin"])])]

theorem the_second_role_is_walked_to :
    compilePath (.text "user.roles['1']") =
        .ok ⟨"user.roles['1']", [.name "user", .name "roles", .name "1"]⟩
      ∧ Walks twoRoles [.name "user", .name "roles", .name "1"] (.text "admin") := by
  have hp : compilePath (.text "user.roles['1']") =
      .ok ⟨"user.roles['1']", [.name "user", .name "roles", .name "1"]⟩ :=
    compilePath_ok_iff.mpr (by decide +kernel)
  have hwalks := (walking_answers_but_for_a_name_that_only_looks_like_an_index hp twoRoles).1
  exact ⟨hp, (hwalks _).mp rfl⟩

/-- A superscript two looks like a digit, and is no index into a list. -/
theorem a_superscript_is_no_index :
    compilePath (.text "['²']") = .ok ⟨"['²']", [.name "²"]⟩
      ∧ Path.resolve ⟨"['²']", [.name "²"]⟩ (.list [.int 1, .int 2, .int 3])
        = .error (.notInteger "'²'") := by
  have hall : ("²" : Text).all Point.isDigitLike = true := by decide +kernel
  have hlooks : LooksLikeIndex "²" := ⟨by decide, List.all_eq_true.mp hall⟩
  have hread : indexOfDigits "²" = .error (.notInteger "'²'") := by decide +kernel
  refine ⟨compilePath_ok_iff.mpr (by decide +kernel), ?_⟩
  rw [Path.resolve, List.map_singleton, walk_cons, stepInto_index rfl hlooks, hread]
  rfl

end FieldGate
