-- The texts that stand for a number when they meet one, read both ways: every numeral
-- of the grammar has its number, and a text that is none has NaN. One more kind of text
-- has a number, binary digits behind a second announcement of their base.
import FieldGate.Coercion
import FieldGate.Proofs.DoubleRange
import FieldGate.Proofs.Numerals

namespace FieldGate

/-! ## The grammar -/

/-- A sign in front of a numeral: nothing, a plus, or a minus, which makes it
negative. -/
inductive SignOf : Text → Bool → Prop
  | none : SignOf [] false
  | plus : SignOf "+" false
  | minus : SignOf "-" true

/-- The letters that announce a base behind a zero. -/
inductive Announces : Point → Nat → Prop
  | hexadecimal {p : Point} : p = 'x' ∨ p = 'X' → Announces p 16
  | octal {p : Point} : p = 'o' ∨ p = 'O' → Announces p 8
  | binary {p : Point} : p = 'b' ∨ p = 'B' → Announces p 2

/-- The points are ASCII digits in a base, and these are their values. -/
structure DigitsIn (base : Nat) (ds : Text) (vs : List Nat) : Prop where
  values : ds.map Point.hexValue? = vs.map some
  below : ∀ v ∈ vs, v < base

/-- A numeral that announces its base, and its positional value. It has no sign. -/
inductive AnnouncedOf : Text → Nat → Prop
  | digits {letter : Point} {base : Nat} {ds : Text} {vs : List Nat} : Announces letter base →
      ds ≠ [] → DigitsIn base ds vs →
      AnnouncedOf ('0' :: letter :: ds) (Nat.ofDigits base vs.reverse)

/-- Binary digits that announce their base twice, and their value. -/
inductive AnnouncedTwice : Text → Nat → Prop
  | digits {outer inner : Point} {ds : Text} {vs : List Nat} : Announces outer 2 →
      Announces inner 2 → ds ≠ [] → DigitsIn 2 ds vs →
      AnnouncedTwice ('0' :: outer :: '0' :: inner :: ds) (Nat.ofDigits 2 vs.reverse)

/-- The texts that stand for a number, without white space around them: no text at all,
an infinity, a numeral that announces its base, or a decimal numeral with an optional
sign. -/
inductive NumberOf : Text → Number → Prop
  | empty : NumberOf [] (.integer 0)
  | infinity {t : Text} : t = ("Infinity" : Text) ∨ t = ("+Infinity" : Text) →
      NumberOf t (.double (.infinite false))
  | negativeInfinity : NumberOf "-Infinity" (.double (.infinite true))
  | announced {t : Text} {n : Nat} : AnnouncedOf t n → NumberOf t (.integer n)
  | decimal {sign body : Text} {negative : Bool} {numeral : Numeral} : SignOf sign negative →
      ReadableNumeral body numeral →
      NumberOf (sign ++ body) (numberOfDouble (numeral.toDouble negative))

/-! ## Numerals that announce their base -/

theorem baseOfLetter?_iff {p : Point} {base : Nat} :
    baseOfLetter? p = some base ↔ Announces p base := by
  constructor
  · intro h
    unfold baseOfLetter? at h
    split_ifs at h with hx ho hb
    · exact Option.some.inj h ▸ .hexadecimal (by simpa using hx)
    · exact Option.some.inj h ▸ .octal (by simpa using ho)
    · exact Option.some.inj h ▸ .binary (by simpa using hb)
  · rintro (hp | hp | hp)
    · rcases hp with rfl | rfl <;> rfl
    · rcases hp with rfl | rfl <;> rfl
    · rcases hp with rfl | rfl <;> rfl

theorem digitsIn_cons {base v : Nat} {p : Point} {ds : Text} {vs : List Nat}
    (hp : p.hexValue? = some v) (hv : v < base) (h : DigitsIn base ds vs) :
    DigitsIn base (p :: ds) (v :: vs) := by
  refine ⟨?_, ?_⟩
  · rw [List.map_cons, List.map_cons, hp, h.values]
  · intro w hw
    rcases List.mem_cons.mp hw with rfl | hw
    · exact hv
    · exact h.below w hw

/-- One more digit in front of a number. -/
def appendDigit? (base n : Nat) (p : Point) : Option Nat :=
  p.hexValue?.bind fun d => if d < base then some (base * n + d) else none

theorem appendDigit?_some {base n k : Nat} {p : Point} (h : appendDigit? base n p = some k) :
    ∃ v, p.hexValue? = some v ∧ v < base ∧ k = base * n + v := by
  obtain ⟨v, hv, h⟩ := Option.bind_eq_some_iff.mp h
  split_ifs at h with hlt
  exact ⟨v, hv, hlt, (Option.some.inj h).symm⟩

/-- The digits are read from the leading one on. The induction is on the digits; what
stands in front of them is the number so far. -/
theorem foldlM_digits_iff {base n k : Nat} {ds : Text} :
    ds.foldlM (appendDigit? base) n = some k
      ↔ ∃ vs, DigitsIn base ds vs ∧ k = vs.foldl (fun n v => base * n + v) n := by
  induction ds generalizing n with
  | nil =>
    constructor
    · intro h
      exact ⟨[], ⟨rfl, by simp⟩, (Option.some.inj h).symm⟩
    · rintro ⟨vs, hvs, rfl⟩
      obtain rfl : vs = [] := by simpa using hvs.values.symm
      rfl
  | cons p ds ih =>
    rw [List.foldlM_cons]
    constructor
    · intro h
      obtain ⟨next, hnext, h⟩ := Option.bind_eq_some_iff.mp h
      obtain ⟨v, hv, hlt, rfl⟩ := appendDigit?_some hnext
      obtain ⟨vs, hvs, rfl⟩ := ih.mp h
      exact ⟨v :: vs, digitsIn_cons hv hlt hvs, rfl⟩
    · rintro ⟨vs, hvs, rfl⟩
      obtain ⟨hvalues, hbelow⟩ := hvs
      cases vs with
      | nil => cases hvalues
      | cons v vs =>
        obtain ⟨hv, hrest⟩ := List.cons.inj hvalues
        have hlt := hbelow v List.mem_cons_self
        have hnext : appendDigit? base n p = some (base * n + v) := by
          rw [appendDigit?, hv, Option.bind_some, if_pos hlt]
        refine Option.bind_eq_some_iff.mpr ⟨_, hnext, ih.mpr ⟨vs, ⟨hrest, ?_⟩, rfl⟩⟩
        exact fun w hw => hbelow w (List.mem_cons_of_mem v hw)

theorem ofDigits_reverse (base : Nat) (vs : List Nat) :
    Nat.ofDigits base vs.reverse = vs.foldl (fun n v => base * n + v) 0 := by
  rw [Nat.ofDigits_eq_foldr, List.foldr_reverse]
  simp only [Nat.cast_id, Nat.add_comm]

theorem numberInBase?_iff {base n : Nat} {ds : Text} :
    numberInBase? base ds = some n
      ↔ ds ≠ [] ∧ ∃ vs, DigitsIn base ds vs ∧ n = Nat.ofDigits base vs.reverse := by
  unfold numberInBase?
  split_ifs with hempty
  · simp [List.isEmpty_iff.mp hempty]
  · have hne : ds ≠ [] := by simpa using hempty
    simp only [ofDigits_reverse, hne, ne_eq, not_false_iff, true_and]
    exact foldlM_digits_iff

theorem Announces.not_digit {p : Point} {vs : List Nat} {ds : Text} (h : Announces p 2) :
    ¬DigitsIn 2 ('0' :: p :: ds) vs := by
  rintro ⟨hvalues, hbelow⟩
  rcases vs with _ | ⟨u, _ | ⟨v, vs⟩⟩
  · cases hvalues
  · cases hvalues
  · obtain ⟨-, hvalues⟩ := List.cons.inj hvalues
    obtain ⟨hp, -⟩ := List.cons.inj hvalues
    have hv : v < 2 := hbelow v (by simp)
    have hb : p.hexValue? = some 11 := by
      cases h with
      | binary hp => rcases hp with rfl | rfl <;> rfl
    rw [hb] at hp
    obtain rfl := Option.some.inj hp
    omega

/-- A second announcement of base two is dropped, and nothing else is. -/
theorem dropRepeatedBase_cases (base : Nat) (digits : Text) :
    (base = 2 ∧ ∃ inner ds, Announces inner 2 ∧ digits = ('0' :: inner :: ds : Text)
        ∧ dropRepeatedBase base digits = ds)
      ∨ dropRepeatedBase base digits = digits
        ∧ ¬(base = 2 ∧ ∃ inner ds, Announces inner 2 ∧ digits = ('0' :: inner :: ds : Text)) := by
  unfold dropRepeatedBase
  split
  · rename_i zero letter rest
    split_ifs with h
    · simp only [Bool.and_eq_true, decide_eq_true_eq] at h
      obtain ⟨⟨rfl, rfl⟩, hletter⟩ := h
      exact .inl ⟨rfl, letter, rest, baseOfLetter?_iff.mp hletter, rfl, rfl⟩
    · refine .inr ⟨rfl, ?_⟩
      rintro ⟨rfl, inner, ds, hinner, heq⟩
      obtain ⟨rfl, rfl, rfl⟩ : zero = '0' ∧ letter = inner ∧ rest = ds := by simpa using heq
      exact h (by simp [baseOfLetter?_iff.mpr hinner])
  · rename_i hshort
    refine .inr ⟨rfl, ?_⟩
    rintro ⟨-, inner, ds, -, rfl⟩
    exact hshort _ _ _ rfl

theorem radixNumber?_announced {letter : Point} {base : Nat} (digits : Text)
    (h : Announces letter base) :
    radixNumber? ('0' :: letter :: digits)
      = numberInBase? base (dropRepeatedBase base digits) := by
  rw [radixNumber?, if_pos rfl, baseOfLetter?_iff.mpr h, Option.bind_some]

theorem radixNumber?_iff {t : Text} {n : Nat} :
    radixNumber? t = some n ↔ AnnouncedOf t n ∨ AnnouncedTwice t n := by
  constructor
  · intro h
    unfold radixNumber? at h
    split at h
    · rename_i zero letter digits
      split_ifs at h with hzero
      subst hzero
      obtain ⟨base, hletter, h⟩ := Option.bind_eq_some_iff.mp h
      have houter := baseOfLetter?_iff.mp hletter
      obtain ⟨hne, vs, hvs, rfl⟩ := numberInBase?_iff.mp h
      rcases dropRepeatedBase_cases base digits with
        ⟨rfl, inner, ds, hinner, rfl, hdrop⟩ | ⟨hdrop, -⟩
      · rw [hdrop] at hne hvs
        exact .inr (.digits houter hinner hne hvs)
      · rw [hdrop] at hne hvs
        exact .inl (.digits houter hne hvs)
    · cases h
  · rintro (h | h)
    · obtain ⟨hletter, hne, hds⟩ := h
      rename_i letter base ds vs
      rw [radixNumber?_announced ds hletter, numberInBase?_iff]
      rcases dropRepeatedBase_cases base ds with ⟨rfl, inner, more, hinner, rfl, -⟩ | ⟨hdrop, -⟩
      · exact absurd hds hinner.not_digit
      · rw [hdrop]
        exact ⟨hne, vs, hds, rfl⟩
    · obtain ⟨houter, hinner, hne, hds⟩ := h
      rename_i outer inner ds vs
      rw [radixNumber?_announced _ houter, numberInBase?_iff]
      rcases dropRepeatedBase_cases 2 ('0' :: inner :: ds) with
        ⟨-, inner', ds', -, heq, hdrop⟩ | ⟨-, hnone⟩
      · obtain ⟨-, rfl⟩ := List.cons.inj (List.cons.inj heq).2
        rw [hdrop]
        exact ⟨hne, vs, hds, rfl⟩
      · exact absurd ⟨rfl, inner, ds, hinner, rfl⟩ hnone

/-! ## Decimal numerals -/

theorem Announces.stops {p : Point} {base : Nat} (h : Announces p base) :
    p.isDigit = false ∧ p ≠ '.' ∧ ¬IsExponentMark p := by
  unfold IsExponentMark
  rcases h with (rfl | rfl) | (rfl | rfl) | (rfl | rfl) <;> decide +kernel

/-- A zero and a letter that announces a base begin no decimal numeral. -/
theorem read?_announced {letter : Point} {base : Nat} (digits : Text) (h : Announces letter base) :
    Numeral.read? ('0' :: letter :: digits) = none := by
  obtain ⟨hdigit, hdot, hmark⟩ := h.stops
  have hzero : DigitsOf [Point.ofChar '0'] [0] := rfl
  have hsplit := splitDigits_append (letter :: digits) hzero (by simp [hdigit])
  have hexponent : readExponent? (letter :: digits) = none := by
    unfold IsExponentMark at hmark
    simp only [readExponent?]
    rw [if_neg (by simpa using hmark)]
  rw [List.singleton_append] at hsplit
  simp [Numeral.read?, hsplit, hdot, hexponent]

/-- A numeral starts with a digit or with its point. -/
theorem ReadableNumeral.head {body : Text} {n : Numeral} (h : ReadableNumeral body n) :
    ∃ p rest, body = p :: rest ∧ (p.isDigit = true ∨ p = '.') := by
  cases h with
  | @whole whole fraction exponent ws fs e hne hwhole =>
    obtain ⟨p, rest, rfl⟩ := List.exists_cons_of_ne_nil hne
    exact ⟨p, _, rfl, .inl (hwhole.isDigit p List.mem_cons_self)⟩
  | fraction => exact ⟨'.', _, rfl, .inr rfl⟩

theorem ne_sign_of_head {p : Point} (h : p.isDigit = true ∨ p = '.') : p ≠ '-' ∧ p ≠ '+' := by
  rcases h with hdigit | rfl
  · constructor
    · rintro rfl
      rw [not_isDigit_minus] at hdigit
      cases hdigit
    · rintro rfl
      rw [not_isDigit_plus] at hdigit
      cases hdigit
  · decide

/-- A sign is split from a body that starts with none itself. -/
theorem splitSign_append {sign body : Text} {negative : Bool} (hsign : SignOf sign negative)
    (hbody : ∀ p ∈ body.head?, p ≠ '-' ∧ p ≠ '+') :
    splitSign (sign ++ body) = (negative, body) := by
  cases hsign with
  | none =>
    cases body with
    | nil => rfl
    | cons p rest =>
      obtain ⟨hminus, hplus⟩ := hbody p rfl
      rw [List.nil_append, splitSign, if_neg hminus, if_neg hplus]
  | plus => rfl
  | minus => rfl

theorem splitSign_signed {sign body : Text} {negative : Bool} {n : Numeral}
    (hsign : SignOf sign negative) (hbody : ReadableNumeral body n) :
    splitSign (sign ++ body) = (negative, body) := by
  obtain ⟨p, rest, rfl, hp⟩ := hbody.head
  apply splitSign_append hsign
  rintro _ ⟨⟩
  exact ne_sign_of_head hp

theorem splitSign_spec (t : Text) :
    ∃ sign, SignOf sign (splitSign t).1 ∧ t = sign ++ (splitSign t).2 := by
  unfold splitSign
  split
  · exact ⟨[], .none, rfl⟩
  · split_ifs with hminus hplus
    · exact ⟨"-", .minus, by rw [hminus]; rfl⟩
    · exact ⟨"+", .plus, by rw [hplus]; rfl⟩
    · exact ⟨[], .none, rfl⟩

/-! ## The number of a text -/

/-- The texts that stand for a number and are no numerals: no text at all, and the words
for the infinities. -/
def numberWords : List Text := [[], "Infinity", "+Infinity", "-Infinity"]

theorem not_radix_word : ∀ word ∈ numberWords, radixNumber? word = none := by decide +kernel

theorem not_decimal_word :
    ∀ word ∈ numberWords, Numeral.read? (splitSign word).2 = none := by
  decide +kernel

/-- What is read as a numeral is none of the texts that are not read as one. -/
theorem ne_word_of_read {α : Type} (read : Text → Option α) {t : Text} {a : α}
    (hwords : ∀ word ∈ numberWords, read word = none) (h : read t = some a) :
    ∀ word ∈ numberWords, t ≠ word := by
  rintro word hword rfl
  rw [hwords t hword] at h
  cases h

/-- What is read with an announced base is no decimal numeral. -/
theorem not_decimal_of_radix {t : Text} {n : Nat} (h : radixNumber? t = some n) :
    Numeral.read? (splitSign t).2 = none := by
  have hnone {letter : Point} {base : Nat} (digits : Text) (hletter : Announces letter base) :
      Numeral.read? (splitSign ('0' :: letter :: digits)).2 = none :=
    read?_announced digits hletter
  rcases radixNumber?_iff.mp h with ⟨hletter, -, -⟩ | ⟨hletter, -, -, -⟩
  · exact hnone _ hletter
  · exact hnone _ hletter

section Readings

variable {t : Text}

theorem numberOfText_empty (h : t.strip = []) : numberOfText t = .integer 0 := by
  unfold numberOfText
  rw [h]
  rfl

theorem numberOfText_infinity (h : t.strip = ("Infinity" : Text) ∨ t.strip = ("+Infinity" : Text)) :
    numberOfText t = .double (.infinite false) := by
  unfold numberOfText
  rcases h with h | h <;> rw [h] <;> rfl

theorem numberOfText_negativeInfinity (h : t.strip = ("-Infinity" : Text)) :
    numberOfText t = .double (.infinite true) := by
  unfold numberOfText
  rw [h]
  rfl

/-- Past the words, a text is a numeral with an announced base, or else a decimal one
behind its sign. -/
theorem numberOfText_numeral (hwords : ∀ word ∈ numberWords, t.strip ≠ word) :
    numberOfText t
      = match radixNumber? t.strip with
        | some n => .integer n
        | none =>
          match Numeral.read? (splitSign t.strip).2 with
          | some numeral => numberOfDouble (numeral.toDouble (splitSign t.strip).1)
          | none => .double .nan := by
  have hempty : ¬t.strip.isEmpty = true := by simpa using hwords [] (by decide)
  have hpositive : ¬(t.strip = ("Infinity" : Text) || t.strip = ("+Infinity" : Text)) = true := by
    simp [hwords "Infinity" (by decide), hwords "+Infinity" (by decide)]
  unfold numberOfText
  dsimp only
  rw [if_neg hempty, if_neg hpositive]
  exact if_neg (hwords _ (by decide))

theorem numberOfText_radix {n : Nat} (h : radixNumber? t.strip = some n) :
    numberOfText t = .integer n := by
  rw [numberOfText_numeral (ne_word_of_read radixNumber? not_radix_word h), h]

theorem numberOfText_decimal {n : Numeral}
    (h : Numeral.read? (splitSign t.strip).2 = some n) :
    numberOfText t = numberOfDouble (n.toDouble (splitSign t.strip).1) := by
  have hwords : ∀ word ∈ numberWords, t.strip ≠ word :=
    ne_word_of_read (fun word => Numeral.read? (splitSign word).2) not_decimal_word h
  have hradix : radixNumber? t.strip = none := by
    cases hradix : radixNumber? t.strip with
    | none => rfl
    | some k =>
      rw [not_decimal_of_radix hradix] at h
      cases h
  rw [numberOfText_numeral hwords, hradix, h]

/-- A numeral of the grammar has its number. -/
theorem numberOfText_of_numberOf {x : Number} (h : NumberOf t.strip x) : numberOfText t = x := by
  generalize hs : t.strip = s at h
  cases h with
  | empty => exact numberOfText_empty hs
  | infinity hword => exact numberOfText_infinity (hs ▸ hword)
  | negativeInfinity => exact numberOfText_negativeInfinity hs
  | announced hn => exact numberOfText_radix (hs ▸ radixNumber?_iff.mpr (.inl hn))
  | decimal hsign hbody =>
    have hsplit := splitSign_signed hsign hbody
    rw [← hs] at hsplit
    have hread := read?_readable hbody
    rw [numberOfText_decimal (by rw [hsplit]; exact hread), hsplit]

/-- A text whose number is not NaN is a numeral of the grammar, or announces its base
twice. -/
theorem numberOf_or_twice (h : numberOfText t ≠ .double .nan) :
    NumberOf t.strip (numberOfText t)
      ∨ ∃ n, AnnouncedTwice t.strip n ∧ numberOfText t = .integer n := by
  by_cases hwords : ∀ word ∈ numberWords, t.strip ≠ word
  · rw [numberOfText_numeral hwords] at h ⊢
    cases hradix : radixNumber? t.strip with
    | some n =>
      rcases radixNumber?_iff.mp hradix with hn | hn
      · exact .inl (.announced hn)
      · exact .inr ⟨n, hn, rfl⟩
    | none =>
      rw [hradix] at h
      cases hread : Numeral.read? (splitSign t.strip).2 with
      | none =>
        rw [hread] at h
        exact absurd rfl h
      | some numeral =>
        obtain ⟨sign, hsign, hstrip⟩ := splitSign_spec t.strip
        have hnumber := NumberOf.decimal hsign (readable_of_read? hread)
        rw [← hstrip] at hnumber
        exact .inl hnumber
  · simp only [not_forall, not_not] at hwords
    obtain ⟨word, hmem, hword⟩ := hwords
    simp only [numberWords, List.mem_cons, List.not_mem_nil, or_false] at hmem
    rcases hmem with rfl | rfl | rfl | rfl
    · rw [numberOfText_empty hword, hword]
      exact .inl .empty
    · rw [numberOfText_infinity (.inl hword)]
      exact .inl (.infinity (.inl hword))
    · rw [numberOfText_infinity (.inr hword)]
      exact .inl (.infinity (.inr hword))
    · rw [numberOfText_negativeInfinity hword, hword]
      exact .inl .negativeInfinity

end Readings

/-! ## Texts without a number -/

theorem numberOfDouble_ne_nan {d : Double} {negative : Bool} (h : d.HasSign negative) :
    numberOfDouble d ≠ .double .nan := by
  have hdouble : Number.double d ≠ .double .nan := by
    rintro ⟨⟩
    exact h
  unfold numberOfDouble
  split
  · split_ifs
    · simp
    · exact hdouble
  · exact hdouble

theorem NumberOf.ne_nan {t : Text} {x : Number} (h : NumberOf t x) : x ≠ .double .nan := by
  cases h with
  | empty | infinity _ | negativeInfinity | announced _ => simp
  | decimal _ _ => exact numberOfDouble_ne_nan (ofDecimal_hasSign _ _ _)

/-- A text that announces its base twice is no numeral of the grammar. -/
theorem AnnouncedTwice.not_numberOf {t : Text} {n : Nat} (h : AnnouncedTwice t n) (x : Number) :
    ¬NumberOf t x := by
  have hradix : radixNumber? t = some n := radixNumber?_iff.mpr (.inr h)
  have hwords := ne_word_of_read radixNumber? not_radix_word hradix
  intro hx
  cases hx with
  | empty => exact hwords [] (by decide) rfl
  | infinity hword =>
    rcases hword with rfl | rfl
    · exact hwords "Infinity" (by decide) rfl
    · exact hwords "+Infinity" (by decide) rfl
  | negativeInfinity => exact hwords "-Infinity" (by decide) rfl
  | announced hn =>
    obtain ⟨houter, hinner, -, -⟩ := h
    obtain ⟨hletter, -, hds⟩ := hn
    rw [← baseOfLetter?_iff] at houter hletter
    obtain rfl := Option.some.inj (houter.symm.trans hletter)
    exact hinner.not_digit hds
  | decimal hsign hbody =>
    have hread := not_decimal_of_radix hradix
    rw [splitSign_signed hsign hbody, read?_readable hbody] at hread
    cases hread

/-- Every text is read without an error, and as a number just when it is a numeral, with
the number of that numeral. Binary digits behind two announcements of their base have a
number too, and they are the only texts that are numbers without being numerals: any
other text is NaN. -/
theorem exactly_the_numerals_have_a_number_but_for_a_repeated_base (t : Text) :
    (Value.text t).toNumber = .ok (numberOfText t)
      ∧ (∀ x, NumberOf t.strip x → numberOfText t = x)
      ∧ (∀ n, AnnouncedTwice t.strip n → numberOfText t = .integer n ∧ ∀ x, ¬NumberOf t.strip x)
      ∧ (numberOfText t = .double .nan
          ↔ (¬∃ x, NumberOf t.strip x) ∧ ¬∃ n, AnnouncedTwice t.strip n) := by
  refine ⟨rfl, fun x => numberOfText_of_numberOf, ?_, ?_⟩
  · intro n hn
    exact ⟨numberOfText_radix (radixNumber?_iff.mpr (.inr hn)), hn.not_numberOf⟩
  · constructor
    · intro hnan
      refine ⟨?_, ?_⟩
      · rintro ⟨x, hx⟩
        exact hx.ne_nan ((numberOfText_of_numberOf hx).symm.trans hnan)
      · rintro ⟨n, hn⟩
        rw [numberOfText_radix (radixNumber?_iff.mpr (.inr hn))] at hnan
        cases hnan
    · rintro ⟨hnumeral, htwice⟩
      by_contra hne
      rcases numberOf_or_twice hne with hx | ⟨n, hn, -⟩
      · exact hnumeral ⟨_, hx⟩
      · exact htwice ⟨n, hn⟩

/-- Hexadecimal and octal digits refuse a second announcement; binary digits do not. -/
theorem a_repeated_base_is_no_numeral_but_has_a_number :
    (∀ x, ¬NumberOf (Text.strip "0b0b1") x)
      ∧ (Value.text "0b0b1").toNumber = .ok (.integer 1)
      ∧ (Value.text "0x0x1").toNumber = .ok (.double .nan)
      ∧ (Value.text "0o0o1").toNumber = .ok (.double .nan) := by
  have hstrip : Text.strip "0b0b1" = ('0' :: 'b' :: '0' :: 'b' :: "1" : Text) := by
    decide +kernel
  have htwice : AnnouncedTwice ('0' :: 'b' :: '0' :: 'b' :: "1") (Nat.ofDigits 2 [1].reverse) :=
    .digits (.binary (.inl rfl)) (.binary (.inl rfl)) (List.cons_ne_nil _ _) ⟨rfl, by simp⟩
  rw [hstrip]
  refine ⟨htwice.not_numberOf, ?_⟩
  decide +kernel

end FieldGate
