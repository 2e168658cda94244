-- The law of typed lookup: a variable that is set gives what its text is of the type, or else
-- the default, and never fails. One that is not set fails just when the default overflows
-- the type, and a name that has no octets cannot be looked up at all.
import FieldGate.Environment
import FieldGate.Proofs.DoubleRange
import FieldGate.Proofs.SettingNumerals
import FieldGate.Proofs.WrittenIntegers

namespace FieldGate

/-! ## What a text is of a type -/

/-- The text is a word for true, in ASCII letters of either case, with white space around. -/
def IsTrueText (t : Text) : Prop :=
  ∃ before body after, t = before ++ (body ++ after) ∧ (∀ p ∈ before, p.isBlank = true)
    ∧ (∀ p ∈ after, p.isBlank = true) ∧ body.map Point.asciiLower ∈ trueWords

/-- What a text is of a type. Every text is a text, and a truth value as well. -/
inductive Cast.Reads : Cast → Text → Value → Prop
  | int {t : Text} {n : Int} : IntegerText t n → Reads .int t (.int n)
  | float {t : Text} {d : Double} : DoubleText t d → Reads .float t (.float d)
  | isTrue {t : Text} : IsTrueText t → Reads .bool t (.bool true)
  | isFalse {t : Text} : ¬IsTrueText t → Reads .bool t (.bool false)
  | text (t : Text) : Reads .text t (.text t)

/-- The value is a number that is too large for a type: an infinity is no integer, and an
integer may lie beyond the range of doubles. -/
inductive Cast.Overflows : Cast → Value → Mishap → Prop
  | infinity (negative : Bool) : Overflows .int (.float (.infinite negative)) .infinityToInteger
  | tooLarge {n : Int} : rangeOfDoubles ≤ n.natAbs → Overflows .float (.int n) .integerTooLarge

/-! ## Casts of texts -/

theorem textIsTrue_iff {t : Text} : Cast.textIsTrue t = true ↔ IsTrueText t := by
  unfold Cast.textIsTrue
  rw [List.contains_iff_mem]
  constructor
  · intro h
    obtain ⟨before, after, ht, hbefore, hafter⟩ := trimmed_spec Point.isBlank t
    exact ⟨before, t.strip, after, ht, hbefore, hafter, h⟩
  · rintro ⟨before, body, after, rfl, hbefore, hafter, hword⟩
    have hwords : ∀ word ∈ trueWords, word.all (fun p => !p.isBlank) = true := by decide +kernel
    have hbody : ∀ p ∈ body, p.isBlank = false := by
      intro p hp
      apply not_blank_of_lower
      simpa using List.all_eq_true.mp (hwords _ hword) _ (List.mem_map_of_mem hp)
    rw [Text.strip, trimmed_append hbefore hbody hafter]
    exact hword

theorem readDouble_ok_iff {shown t : Text} {d : Double} :
    Cast.readDouble shown (some t) = .ok d ↔ DoubleText t d := by
  rw [← readDouble?_eq_some_iff, Cast.readDouble, Option.bind_some]
  cases readDouble? t with
  | none => simp
  | some e => simp

/-- A cast accepts a text just when the text is something of the type. -/
theorem apply_text_iff {cast : Cast} {t : Text} {v : Value} :
    cast.apply (.text t) = .ok v ↔ cast.Reads t v := by
  cases cast with
  | int =>
    rw [Cast.apply, map_eq_ok, Cast.toInt]
    constructor
    · rintro ⟨n, hn, rfl⟩
      exact .int (readInteger_ok_iff.mp hn)
    · intro h
      cases h with
      | int hn => exact ⟨_, readInteger_ok_iff.mpr hn, rfl⟩
  | float =>
    rw [Cast.apply, map_eq_ok, Cast.toFloat]
    constructor
    · rintro ⟨d, hd, rfl⟩
      exact .float (readDouble_ok_iff.mp hd)
    · intro h
      cases h with
      | float hd => exact ⟨_, readDouble_ok_iff.mpr hd, rfl⟩
  | bool =>
    have happly : Cast.apply .bool (.text t) = .ok (.bool (Cast.textIsTrue t)) := rfl
    rw [happly]
    constructor
    · intro h
      obtain rfl := Except.ok.inj h
      by_cases htrue : IsTrueText t
      · rw [textIsTrue_iff.mpr htrue]
        exact .isTrue htrue
      · rw [Bool.eq_false_iff.mpr (mt textIsTrue_iff.mp htrue)]
        exact .isFalse htrue
    · intro h
      cases h with
      | isTrue htrue => rw [textIsTrue_iff.mpr htrue]
      | isFalse hfalse => rw [Bool.eq_false_iff.mpr (mt textIsTrue_iff.mp hfalse)]
  | text =>
    have happly : Cast.apply .text (.text t) = .ok (.text t) := rfl
    rw [happly]
    constructor
    · intro h
      obtain rfl := Except.ok.inj h
      exact .text t
    · rintro ⟨⟩
      rfl

/-! ## Casts that fail -/

theorem readInteger_forgiven {shown t : Text} {m : Mishap} (h : readInteger shown t = .error m) :
    m.isForgiven = true := by
  unfold readInteger at h
  dsimp only at h
  split at h
  · obtain rfl := Except.error.inj h
    rfl
  · obtain rfl := Except.error.inj h
    rfl
  · rcases bind_eq_error.mp h with hlong | ⟨n, -, h⟩
    · unfold integerOfDigits at hlong
      split_ifs at hlong
      obtain rfl := Except.error.inj hlong
      rfl
    · split_ifs at h
      · obtain rfl := Except.error.inj h
        rfl
      · cases h

theorem readDouble_forgiven {shown : Text} {t : Option Text} {m : Mishap}
    (h : Cast.readDouble shown t = .error m) : m.isForgiven = true := by
  unfold Cast.readDouble at h
  split at h
  · cases h
  · obtain rfl := Except.error.inj h
    rfl

theorem shown_forgiven {v : Value} {m : Mishap} (h : v.shown = .error m) : m.isForgiven = true := by
  rcases shown_cases v with ⟨t, ht⟩ | hquoted
  · rw [ht] at h
    cases h
  · rw [hquoted] at h
    rw [(writesOut_quoted v).refusal h]
    rfl

theorem toInt_error {v : Value} {m : Mishap} (h : Cast.toInt v = .error m) :
    m.isForgiven = true ∨ Cast.Overflows .int v m := by
  cases v with
  | bool _ | int _ => cases h
  | float d =>
    cases d with
    | nan =>
      obtain rfl := Except.error.inj h
      exact .inl rfl
    | infinite negative =>
      obtain rfl := Except.error.inj h
      exact .inr (.infinity negative)
    | finite _ _ _ _ => cases h
  | text t => exact .inl (readInteger_forgiven h)
  | bytes octets =>
    simp only [Cast.toInt] at h
    split at h
    · exact .inl (readInteger_forgiven h)
    · obtain rfl := Except.error.inj h
      exact .inl rfl
  | _ =>
    obtain rfl := Except.error.inj h
    exact .inl rfl

theorem toFloat_error {v : Value} {m : Mishap} (h : Cast.toFloat v = .error m) :
    m.isForgiven = true ∨ Cast.Overflows .float v m := by
  cases v with
  | bool b =>
    rcases ofInteger_cases (if b then 1 else 0) with ⟨-, d, hd⟩ | ⟨hlarge, -⟩
    · rw [Cast.toFloat, hd] at h
      cases h
    · have hsmall : (if b then 1 else 0 : Int).natAbs ≤ 1 := by cases b <;> decide
      have hrange : 1 < rangeOfDoubles := by decide +kernel
      omega
  | int n =>
    rcases ofInteger_cases n with ⟨-, d, hd⟩ | ⟨hlarge, herror⟩
    · rw [Cast.toFloat, hd] at h
      cases h
    · obtain rfl := Except.error.inj (h.symm.trans herror)
      exact .inr (.tooLarge hlarge)
  | float _ => cases h
  | text t => exact .inl (readDouble_forgiven h)
  | bytes octets => exact .inl (readDouble_forgiven h)
  | _ =>
    obtain rfl := Except.error.inj h
    exact .inl rfl

section Casting

variable {cast : Cast} {v : Value} {m : Mishap}

/-- A cast that fails is forgiven, or the value overflows the type. -/
theorem apply_error (h : cast.apply v = .error m) : m.isForgiven = true ∨ cast.Overflows v m := by
  cases cast with
  | int => exact toInt_error (map_eq_error.mp h)
  | float => exact toFloat_error (map_eq_error.mp h)
  | bool => cases v <;> cases h
  | text => exact .inl (shown_forgiven (map_eq_error.mp h))

theorem Cast.Overflows.apply (h : cast.Overflows v m) : cast.apply v = .error m := by
  cases h with
  | infinity negative => rfl
  | @tooLarge n hlarge =>
    rcases ofInteger_cases n with ⟨hsmall, -⟩ | ⟨-, herror⟩
    · omega
    · rw [Cast.apply, Cast.toFloat, herror]
      rfl

theorem Cast.Overflows.not_forgiven (h : cast.Overflows v m) : m.isForgiven = false := by
  cases h <;> rfl

theorem not_overflows_text (t : Text) : ¬cast.Overflows (.text t) m := by
  rintro ⟨⟩

end Casting

/-! ## Lookups -/

/-- A value cast, or the default in its place when the cast is refused. -/
def Cast.applyOr (cast : Cast) (v fallback : Value) : Except Mishap Value :=
  match cast.apply v with
  | .ok w => .ok w
  | .error m => if m.isForgiven then .ok fallback else .error m

section ApplyOr

variable {cast : Cast} {v fallback : Value}

theorem applyOr_ok {w : Value} (h : cast.apply v = .ok w) : cast.applyOr v fallback = .ok w := by
  rw [Cast.applyOr, h]

theorem applyOr_refused (h : ∀ w, cast.apply v ≠ .ok w) (hno : ∀ m, ¬cast.Overflows v m) :
    cast.applyOr v fallback = .ok fallback := by
  unfold Cast.applyOr
  cases hv : cast.apply v with
  | ok w => exact absurd hv (h w)
  | error m =>
    have hforgiven := (apply_error hv).resolve_right (hno m)
    dsimp only
    rw [if_pos hforgiven]

theorem applyOr_error_iff {m : Mishap} :
    cast.applyOr v fallback = .error m ↔ cast.Overflows v m := by
  constructor
  · intro h
    unfold Cast.applyOr at h
    split at h
    · cases h
    · rename_i n hn
      split_ifs at h with hforgiven
      obtain rfl := Except.error.inj h
      exact (apply_error hn).resolve_left hforgiven
  · intro h
    unfold Cast.applyOr
    rw [h.apply]
    dsimp only
    rw [h.not_forgiven, if_neg Bool.false_ne_true]

end ApplyOr

/-! ## Names -/

/-- A surrogate, but for those that stand for octets. -/
def Point.IsBareSurrogate (p : Point) : Prop :=
  0xD800 ≤ p.val ∧ p.val ≤ 0xDFFF ∧ ¬(0xDC80 ≤ p.val ∧ p.val ≤ 0xDCFF)

theorem octets?_eq_none_iff {p : Point} : p.octets? = none ↔ p.IsBareSurrogate := by
  have hsurrogate : p.isSurrogate = true ↔ 0xD800 ≤ p.val ∧ p.val ≤ 0xDFFF := by
    simp [Point.isSurrogate, Point.within]
  have hescape : p.escapesOctet = true ↔ 0xDC80 ≤ p.val ∧ p.val ≤ 0xDCFF := by
    simp [Point.escapesOctet, Point.within]
  unfold Point.octets? Point.IsBareSurrogate
  dsimp only
  split_ifs with hone htwo hescapes hbare hthree
  all_goals simp only [hsurrogate, hescape] at *
  all_goals simp only [false_iff, true_iff]
  all_goals omega

theorem mapM_octets?_eq_none_iff {t : Text} :
    t.mapM Point.octets? = none ↔ ∃ p ∈ t, p.IsBareSurrogate := by
  simp only [← octets?_eq_none_iff]
  induction t with
  | nil => simp
  | cons p rest ih =>
    rw [List.mapM_cons]
    cases hp : p.octets? with
    | none => simp [hp]
    | some octets =>
      simp only [List.mem_cons, exists_eq_or_imp, hp, reduceCtorEq, false_or, ← ih]
      cases rest.mapM Point.octets? with
      | none => simp
      | some others => simp

/-- A name has octets unless a bare surrogate stands in it. -/
theorem octets_error_iff {t : Text} :
    (∃ m, t.octets = .error m) ↔ ∃ p ∈ t, p.IsBareSurrogate := by
  rw [← mapM_octets?_eq_none_iff, Text.octets]
  cases t.mapM Point.octets? with
  | none => simp
  | some octets => simp

section Lookup

variable {env : Environment} {start key : Text} {cast : Cast} {fallback : Value}

theorem get?_error_iff (env : Environment) {name : Text} {m : Mishap} :
    env.get? name = .error m ↔ name.octets = .error m := map_eq_error

theorem lookup_unnamed {m : Mishap} (h : env.get? (start ++ key.uppercase) = .error m) :
    env.lookup start key (some cast) fallback = .error m := by
  unfold Environment.lookup
  rw [h, error_bind]

theorem lookup_set {t : Text} (h : env.get? (start ++ key.uppercase) = .ok (some t)) :
    env.lookup start key (some cast) fallback = cast.applyOr (.text t) fallback := by
  unfold Environment.lookup
  rw [h]
  rfl

theorem lookup_unset (h : env.get? (start ++ key.uppercase) = .ok none)
    (hnull : fallback ≠ .null) :
    env.lookup start key (some cast) fallback = cast.applyOr fallback fallback := by
  unfold Environment.lookup
  rw [h]
  cases fallback with
  | null => exact absurd rfl hnull
  | _ => rfl

theorem lookup_null (h : env.get? (start ++ key.uppercase) = .ok none) :
    env.lookup start key (some cast) .null = .ok .null := by
  unfold Environment.lookup
  rw [h]
  rfl

/-- What a lookup fails for: its name has no octets, or the variable is not set and the
default overflows the type. -/
theorem lookup_error_iff {m : Mishap} :
    env.lookup start key (some cast) fallback = .error m
      ↔ (start ++ key.uppercase).octets = .error m
        ∨ env.get? (start ++ key.uppercase) = .ok none ∧ cast.Overflows fallback m := by
  rw [← get?_error_iff env]
  cases hfound : env.get? (start ++ key.uppercase) with
  | error n => simp [lookup_unnamed hfound]
  | ok found =>
    cases found with
    | some t => simp [lookup_set hfound, applyOr_error_iff, not_overflows_text]
    | none =>
      by_cases hnull : fallback = .null
      · subst hnull
        have hno : ¬cast.Overflows .null m := by rintro ⟨⟩
        simp [lookup_null hfound, hno]
      · simp [lookup_unset hfound hnull, applyOr_error_iff]

end Lookup

/-- A lookup fails for its name or for its default alone: when a bare surrogate stands in the
name of the variable, or the variable is not set and the default overflows the type. A
variable that is set gives what its text is of the type, or the default when the text is
nothing of it. One that is not set gives the default, cast when it can be. -/
theorem a_typed_lookup_fails_for_its_name_or_its_default_alone (env : Environment)
    (start key : Text) (cast : Cast) (fallback : Value) :
    let name := start ++ key.uppercase
    let found := env.lookup start key (some cast) fallback
    (∀ m, found = .error m
        ↔ name.octets = .error m ∨ env.get? name = .ok none ∧ cast.Overflows fallback m)
      ∧ ((∃ m, name.octets = .error m) ↔ ∃ p ∈ name, p.IsBareSurrogate)
      ∧ (∀ t, env.get? name = .ok (some t) →
        (∀ v, cast.Reads t v → found = .ok v)
          ∧ ((∀ v, ¬cast.Reads t v) → found = .ok fallback))
      ∧ (env.get? name = .ok none →
        (fallback = .null → found = .ok .null)
          ∧ (∀ v, fallback ≠ .null → cast.apply fallback = .ok v → found = .ok v)
          ∧ ((∀ v, cast.apply fallback ≠ .ok v) → (∀ m, ¬cast.Overflows fallback m) →
            found = .ok fallback)) := by
  intro name found
  refine ⟨fun m => lookup_error_iff, octets_error_iff, ?isSet, ?unset⟩
  case isSet =>
    intro t hset
    have hfound : found = cast.applyOr (.text t) fallback := lookup_set hset
    rw [hfound]
    constructor
    · intro v hreads
      exact applyOr_ok (apply_text_iff.mpr hreads)
    · intro hnone
      apply applyOr_refused
      · exact fun v hv => hnone v (apply_text_iff.mp hv)
      · exact fun m => not_overflows_text t
  case unset =>
    intro hunset
    by_cases hnull : fallback = .null
    · subst hnull
      have hfound : found = .ok .null := lookup_null hunset
      exact ⟨fun _ => hfound, fun v hne => absurd rfl hne, fun _ _ => hfound⟩
    · have hfound : found = cast.applyOr fallback fallback := lookup_unset hunset hnull
      rw [hfound]
      exact ⟨fun h => absurd h hnull, fun v _ => applyOr_ok, applyOr_refused⟩

/-- A name with a bare surrogate is a mishap whatever the default is. An infinity in place of
an unset integer is one too, while NaN is given back as it is, and so may be an integer in
place of an unset double. -/
theorem a_name_or_a_default_is_a_mishap :
    Environment.lookup [] variableStart [0xD800] (some .int) (.int 7)
        = .error (.notEncodable 0xD800 10 10)
      ∧ Environment.lookup [] variableStart "limit" (some .int) (.float (.infinite false))
        = .error .infinityToInteger
      ∧ Environment.lookup [] variableStart "limit" (some .int) (.float .nan) = .ok (.float .nan)
      ∧ Environment.lookup [] variableStart "limit" (some .float) (.int (10 ^ 309))
        = .error .integerTooLarge := by
  refine ⟨rfl, rfl, rfl, ?_⟩
  rw [lookup_unset rfl Value.noConfusion, applyOr_error_iff]
  exact .tooLarge (by decide +kernel)

end FieldGate
