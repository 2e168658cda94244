-- The laws of quoted literals: which texts spell which points, and that the
-- decoder gives these points with every pair of surrogates joined.
import FieldGate.Proofs.Outcomes
import FieldGate.Proofs.Tokens
import FieldGate.Path.Literal
import FieldGate.Value.Json

namespace FieldGate

/-! ## What a literal spells -/

def HexDigits (ds : Text) : Prop := ∀ p ∈ ds, p.isHexDigit = true

def openBrace : Point := '\x7b'

def closeBrace : Point := '\x7d'

/-- An escape by number, as it stands after its backslash, and its digits: four
after `u`, two after `x`, or any number of them in braces after `u`. -/
inductive CodeEscape : Text → Text → Prop
  | braced {ds : Text} : ds ≠ [] → HexDigits ds →
      CodeEscape ('u' :: openBrace :: (ds ++ [closeBrace])) ds
  | four {ds : Text} : ds.length = 4 → HexDigits ds → CodeEscape ('u' :: ds) ds
  | two {ds : Text} : ds.length = 2 → HexDigits ds → CodeEscape ('x' :: ds) ds

/-- A text and the points that it spells. A backslash with a letter stands for
a control point or for the letter; `u` and `x` only open an escape by number. -/
inductive Spells : Text → Text → Prop
  | nil : Spells [] []
  | plain {p : Point} {t u : Text} : p ≠ '\\' → Spells t u → Spells (p :: t) (p :: u)
  | code {escape ds t u : Text} {q : Point} : CodeEscape escape ds →
      numberOfHexDigits ds = q.val → Spells t u → Spells ('\\' :: (escape ++ t)) (q :: u)
  | letter {p : Point} {t u : Text} : p ≠ 'u' → p ≠ 'x' → p ≠ '\n' → Spells t u →
      Spells ('\\' :: p :: t) (letterEscape p :: u)

def unitsOf (t : Text) : List Nat := t.flatMap Point.units

/-- No high surrogate stands right before a low one. -/
def Unpaired (t : Text) : Prop :=
  t.IsChain fun p q => ¬(p.isHighSurrogate = true ∧ q.isLowSurrogate = true)

/-- A quoted literal and the text that it stands for: the text has the units of
the points that the literal spells, and no pair of surrogates is left in it. -/
inductive LiteralOf : Text → Text → Prop
  | quoted {quote : Point} {body points t : Text} : IsQuote quote → Spells body points →
      unitsOf t = unitsOf points → Unpaired t → LiteralOf (quote :: (body ++ [quote])) t

/-! ## Decoding one escape -/

theorem isHexDigit_ne {p q : Point} (hp : p.isHexDigit = true) (hq : q.isHexDigit = false) :
    p ≠ q := by
  rintro rfl
  rw [hp] at hq
  cases hq

theorem HexDigits.ne_backslash {ds : Text} (h : HexDigits ds) : ∀ p ∈ ds, p ≠ '\\' :=
  fun p hp => isHexDigit_ne (h p hp) (by decide)

theorem hexDigits_iff {ds : Text} : ds.all Point.isHexDigit = true ↔ HexDigits ds :=
  List.all_eq_true

theorem bracedHex?_braced {ds : Text} (rest : Text) (hne : ds ≠ []) (h : HexDigits ds) :
    bracedHex? (openBrace :: (ds ++ closeBrace :: rest)) = some ds := by
  have hrun : (ds ++ closeBrace :: rest).takeWhile Point.isHexDigit = ds := by
    rw [List.takeWhile_append_of_pos h, List.takeWhile_cons_of_neg (by decide), List.append_nil]
  simp only [bracedHex?, hrun, List.drop_left]
  simp [openBrace, closeBrace, hne]

theorem bracedHex?_some {t ds : Text} (h : bracedHex? t = some ds) :
    ∃ rest, t = openBrace :: (ds ++ closeBrace :: rest) ∧ ds ≠ [] ∧ HexDigits ds := by
  cases t with
  | nil => simp [bracedHex?] at h
  | cons p t =>
    simp only [bracedHex?] at h
    split at h
    · rename_i hcond
      obtain rfl := Option.some.inj h
      simp only [Bool.and_eq_true, decide_eq_true_eq, Bool.not_eq_true', List.isEmpty_eq_false_iff]
        at hcond
      obtain ⟨⟨rfl, hne⟩, hclose⟩ := hcond
      have hhead : (t.drop (t.takeWhile Point.isHexDigit).length).head? = some closeBrace := hclose
      obtain ⟨rest, hrest⟩ := List.head?_eq_some_iff.mp hhead
      refine ⟨rest, ?_, hne, fun q hq => List.mem_takeWhile_imp hq⟩
      have hsplit := List.prefix_iff_eq_append.mp (List.takeWhile_prefix (l := t) Point.isHexDigit)
      rw [← hrest, hsplit]
      rfl
    · cases h

theorem bracedHex?_digit {p : Point} {t : Text} (hp : p.isHexDigit = true) :
    bracedHex? (p :: t) = none := by
  have hne : p ≠ '\x7b' := isHexDigit_ne hp (by decide)
  simp [bracedHex?, hne]

theorem fixedHex?_append {n : Nat} {ds : Text} (rest : Text) (hlength : ds.length = n)
    (h : HexDigits ds) : fixedHex? n (ds ++ rest) = some ds := by
  subst hlength
  simp [fixedHex?, hexDigits_iff.mpr h]

theorem fixedHex?_some {n : Nat} {t ds : Text} (h : fixedHex? n t = some ds) :
    ∃ rest, t = ds ++ rest ∧ ds.length = n ∧ HexDigits ds := by
  simp only [fixedHex?] at h
  split at h
  · rename_i hcond
    obtain rfl := Option.some.inj h
    simp only [Bool.and_eq_true, decide_eq_true_eq] at hcond
    exact ⟨t.drop n, (List.take_append_drop n t).symm, hcond.1, hexDigits_iff.mp hcond.2⟩
  · cases h

theorem namedPoint_ok {ds escape : Text} {q : Point} :
    namedPoint ds escape = .ok q ↔ numberOfHexDigits ds = q.val := by
  simp only [namedPoint]
  split
  · rename_i h
    rw [Except.ok.injEq]
    exact Fin.ext_iff
  · rename_i h
    have := q.isLt
    constructor
    · intro hok
      cases hok
    · intro heq
      omega

/-- The lexer of escapes takes the whole of an escape by number. -/
theorem escapeAt_code {escape ds : Text} {q : Point} (t : Text) (h : CodeEscape escape ds)
    (hq : numberOfHexDigits ds = q.val) : escapeAt (escape ++ t) = .ok (q, escape.length) := by
  have hfeed : Point.ofChar 'u' ≠ '\n' := by decide
  have hfeed' : Point.ofChar 'x' ≠ '\n' := by decide
  have hux : Point.ofChar 'x' ≠ 'u' := by decide
  cases h with
  | braced hne hds =>
    have hbraced := bracedHex?_braced t hne hds
    simp only [List.cons_append, List.append_assoc, List.nil_append, escapeAt, if_neg hfeed,
      if_pos, hbraced]
    rw [namedPoint_ok.mpr hq]
    simp [Except.map]
  | four hlength hds =>
    obtain ⟨p, more, rfl⟩ : ∃ p more, ds = p :: more :=
      List.exists_cons_of_ne_nil fun hnil => by simp [hnil] at hlength
    have hnone := bracedHex?_digit (t := more ++ t) (hds p List.mem_cons_self)
    have hfixed := fixedHex?_append t hlength hds
    rw [List.cons_append] at hfixed
    simp only [List.cons_append, escapeAt, if_neg hfeed, if_pos, hnone, hfixed]
    rw [namedPoint_ok.mpr hq, List.length_cons, hlength]
    rfl
  | two hlength hds =>
    have hfixed := fixedHex?_append t hlength hds
    simp only [List.cons_append, escapeAt, if_neg hfeed', if_neg hux, if_pos, hfixed]
    rw [namedPoint_ok.mpr hq, List.length_cons, hlength]
    rfl

theorem escapeAt_letter {p : Point} (t : Text) (hu : p ≠ 'u') (hx : p ≠ 'x') (hfeed : p ≠ '\n') :
    escapeAt (p :: t) = .ok (letterEscape p, 1) := by
  rw [escapeAt, if_neg hfeed, if_neg hu, if_neg hx]

/-- An escape that stands for a point is one by number or a single letter. -/
theorem escapeAt_ok {p q : Point} {t : Text} {n : Nat} (hfeed : p ≠ '\n')
    (h : escapeAt (p :: t) = .ok (q, n)) :
    (∃ escape ds rest, p :: t = escape ++ rest ∧ n = escape.length ∧ CodeEscape escape ds
        ∧ numberOfHexDigits ds = q.val)
      ∨ (p ≠ 'u' ∧ p ≠ 'x' ∧ q = letterEscape p ∧ n = 1) := by
  have named {ds escape : Text} {k : Nat} (hok : (namedPoint ds escape).map (·, k) = .ok (q, n)) :
      numberOfHexDigits ds = q.val ∧ n = k := by
    cases hpoint : namedPoint ds escape with
    | error e => simp [hpoint, Except.map] at hok
    | ok r =>
      rw [hpoint] at hok
      obtain ⟨rfl, rfl⟩ := Prod.mk.inj (Except.ok.inj hok)
      exact ⟨namedPoint_ok.mp hpoint, rfl⟩
  rw [escapeAt, if_neg hfeed] at h
  split_ifs at h with hu hx
  · subst hu
    left
    cases hbraced : bracedHex? t with
    | some ds =>
      obtain ⟨rest, rfl, hne, hds⟩ := bracedHex?_some hbraced
      rw [hbraced] at h
      obtain ⟨hvalue, rfl⟩ := named h
      exact ⟨_, ds, rest, by simp, by simp, .braced hne hds, hvalue⟩
    | none =>
      rw [hbraced] at h
      cases hfixed : fixedHex? 4 t with
      | some ds =>
        obtain ⟨rest, rfl, hlength, hds⟩ := fixedHex?_some hfixed
        rw [hfixed] at h
        obtain ⟨hvalue, rfl⟩ := named h
        exact ⟨_, ds, rest, by simp, by simp [hlength], .four hlength hds, hvalue⟩
      | none => simp [hfixed] at h
  · subst hx
    left
    cases hfixed : fixedHex? 2 t with
    | some ds =>
      obtain ⟨rest, rfl, hlength, hds⟩ := fixedHex?_some hfixed
      rw [hfixed] at h
      obtain ⟨hvalue, rfl⟩ := named h
      exact ⟨_, ds, rest, by simp, by simp [hlength], .two hlength hds, hvalue⟩
    | none => simp [hfixed] at h
  · right
    obtain ⟨rfl, rfl⟩ := Prod.mk.inj (Except.ok.inj h)
    exact ⟨hu, hx, rfl, rfl⟩

/-! ## Decoding a body -/

theorem decodeEscapes_skip (w t : Text) :
    decodeEscapes w.length (w ++ t) = decodeEscapes 0 t := by
  induction w with
  | nil => rfl
  | cons p w ih => rw [List.length_cons, List.cons_append, decodeEscapes, ih]

/-- The decoder gives the points that a text spells. -/
theorem decodeEscapes_of_spells {t u : Text} (h : Spells t u) : decodeEscapes 0 t = .ok u := by
  induction h with
  | nil => rfl
  | plain hp _ ih => rw [decodeEscapes, if_neg hp, ih]; rfl
  | code hescape hvalue _ ih =>
    rw [decodeEscapes, if_pos rfl, escapeAt_code _ hescape hvalue]
    simp only [bind, Except.bind, decodeEscapes_skip, ih]
    rfl
  | @letter p t _ hu hx hfeed _ ih =>
    rw [decodeEscapes, if_pos rfl, escapeAt_letter _ hu hx hfeed]
    have hskip := decodeEscapes_skip [p] t
    simp only [List.length_singleton, List.singleton_append] at hskip
    simp only [bind, Except.bind, hskip, ih]
    rfl

theorem QuotedBody.tail {q p : Point} {t : Text} (h : QuotedBody q (p :: t)) (hp : p ≠ '\\') :
    QuotedBody q t := by
  cases h with
  | plain _ _ _ h => exact h
  | escape _ _ => exact absurd rfl hp

theorem QuotedBody.of_append {q : Point} {w t : Text} (h : QuotedBody q (w ++ t))
    (hw : ∀ p ∈ w, p ≠ '\\') : QuotedBody q t := by
  induction w with
  | nil => exact h
  | cons p w ih =>
    exact ih (h.tail (hw p List.mem_cons_self)) fun p' hp' => hw p' (List.mem_cons_of_mem p hp')

theorem CodeEscape.ne_backslash {escape ds : Text} (h : CodeEscape escape ds) :
    ∀ p ∈ escape, p ≠ '\\' := by
  cases h with
  | braced _ hds =>
    intro p hp
    simp only [List.mem_cons, List.mem_append, List.not_mem_nil, or_false] at hp
    rcases hp with rfl | rfl | hp | rfl
    · decide
    · decide
    · exact hds.ne_backslash p hp
    · decide
  | four _ hds | two _ hds =>
    intro p hp
    rcases List.mem_cons.mp hp with rfl | hp
    · decide
    · exact hds.ne_backslash p hp

theorem CodeEscape.exists_cons {escape ds : Text} (h : CodeEscape escape ds) :
    ∃ p rest, escape = p :: rest := by
  cases h with
  | braced _ _ | four _ _ | two _ _ => exact ⟨_, _, rfl⟩

/-- A backslash of a body takes a point with it, which is no line feed. -/
theorem QuotedBody.escaped {q : Point} {t : Text} (h : QuotedBody q ('\\' :: t)) :
    ∃ p tail, t = p :: tail ∧ p ≠ '\n' ∧ QuotedBody q tail := by
  cases h with
  | plain _ hslash _ _ => exact absurd rfl hslash
  | escape hfeed htail => exact ⟨_, _, rfl, hfeed, htail⟩

/-- What follows an escape by number in a body is one. -/
theorem QuotedBody.of_code {q : Point} {escape ds t : Text} (hcode : CodeEscape escape ds)
    (h : QuotedBody q ('\\' :: (escape ++ t))) : QuotedBody q t := by
  have hslash := hcode.ne_backslash
  obtain ⟨p, more, rfl⟩ := hcode.exists_cons
  obtain ⟨r, tail, heq, -, htail⟩ := h.escaped
  obtain ⟨-, rfl⟩ : p = r ∧ more ++ t = tail := by simpa using heq
  exact htail.of_append fun p' hp' => hslash p' (List.mem_cons_of_mem p hp')

/-- The points that the decoder gives of the body of a literal are spelled by
it. -/
theorem spells_of_decodeEscapes {q : Point} {n : Nat} {t u : Text}
    (h : decodeEscapes n t = .ok u) (hbody : QuotedBody q (t.drop n)) : Spells (t.drop n) u := by
  fun_induction decodeEscapes n t generalizing u with
  | case1 n =>
    obtain rfl := Except.ok.inj h
    rw [List.drop_nil]
    exact .nil
  | case2 n p rest ih => exact ih h hbody
  | case3 rest ih =>
    obtain ⟨⟨point, further⟩, hescape, h⟩ := bind_eq_ok.mp h
    obtain ⟨us, hus, hcons⟩ := bind_eq_ok.mp h
    obtain rfl := Except.ok.inj hcons
    -- A literal's backslash never ends it and never escapes a line feed.
    obtain ⟨p, tail, rfl, hfeed, htail⟩ := hbody.escaped
    rcases escapeAt_ok hfeed hescape with
      ⟨escape, ds, after, heq, rfl, hcode, hvalue⟩ | ⟨hu, hx, rfl, rfl⟩
    · have hspells := ih escape.length hus
      rw [heq, List.drop_left] at hspells
      rw [heq] at hbody ⊢
      exact .code hcode hvalue (hspells (hbody.of_code hcode))
    · exact .letter hu hx hfeed (ih 1 hus htail)
  | case4 p rest hp ih =>
    obtain ⟨us, hus, hcons⟩ := bind_eq_ok.mp h
    obtain rfl := Except.ok.inj hcons
    exact .plain hp (ih hus (hbody.tail hp))

/-! ## Joining surrogates -/

theorem isHighSurrogate_iff {p : Point} :
    p.isHighSurrogate = true ↔ 0xD800 ≤ p.val ∧ p.val ≤ 0xDBFF := by
  simp [Point.isHighSurrogate, Point.within]

theorem isLowSurrogate_iff {p : Point} :
    p.isLowSurrogate = true ↔ 0xDC00 ≤ p.val ∧ p.val ≤ 0xDFFF := by
  simp [Point.isLowSurrogate, Point.within]

theorem units_small {p : Point} (h : p.val < 0x10000) : p.units = [p.val] := by
  rw [Point.units, if_pos h]

theorem units_large {p : Point} (h : ¬p.val < 0x10000) :
    p.units = [0xD800 + (p.val - 0x10000) / 0x400, 0xDC00 + (p.val - 0x10000) % 0x400] := by
  rw [Point.units, if_neg h]

theorem ofSurrogates_val {p q : Point} (hp : p.isHighSurrogate = true)
    (hq : q.isLowSurrogate = true) :
    (Point.ofSurrogates p q).val
      = 0x10000 + 0x400 * (p.val - 0xD800) + (q.val - 0xDC00) := by
  rw [isHighSurrogate_iff] at hp
  rw [isLowSurrogate_iff] at hq
  simp only [Point.ofSurrogates, Fin.ofNat]
  exact Nat.mod_eq_of_lt (by omega)

/-- The point of a pair of surrogates has the two as its units. -/
theorem units_ofSurrogates {p q : Point} (hp : p.isHighSurrogate = true)
    (hq : q.isLowSurrogate = true) : (Point.ofSurrogates p q).units = p.units ++ q.units := by
  have hval := ofSurrogates_val hp hq
  rw [isHighSurrogate_iff] at hp
  rw [isLowSurrogate_iff] at hq
  rw [units_large (by omega), units_small (by omega), units_small (by omega), hval]
  simp only [List.singleton_append, List.cons.injEq, and_true]
  constructor <;> omega

theorem unitsOf_cons (p : Point) (t : Text) : unitsOf (p :: t) = p.units ++ unitsOf t := rfl

theorem unitsOf_joinSurrogates (t : Text) : unitsOf (joinSurrogates t) = unitsOf t := by
  fun_induction joinSurrogates t with
  | case1 => rfl
  | case2 => rfl
  | case3 p q rest h ih =>
    rw [Bool.and_eq_true] at h
    rw [unitsOf_cons, ih, units_ofSurrogates h.1 h.2, unitsOf_cons, unitsOf_cons,
      List.append_assoc]
  | case4 p q rest h ih => rw [unitsOf_cons p, ih, ← unitsOf_cons]

/-- A joined text starts with the first point of the text, or with one that is no
surrogate. -/
theorem joinSurrogates_head {p : Point} {t : Text} :
    ∃ r tail, joinSurrogates (p :: t) = r :: tail ∧ (r = p ∨ r.isLowSurrogate = false) := by
  cases t with
  | nil => exact ⟨p, [], rfl, .inl rfl⟩
  | cons q rest =>
    rw [joinSurrogates]
    split
    · rename_i h
      rw [Bool.and_eq_true] at h
      have hval := ofSurrogates_val h.1 h.2
      refine ⟨_, _, rfl, .inr ?_⟩
      rw [Bool.eq_false_iff, Ne, isLowSurrogate_iff]
      omega
    · exact ⟨p, _, rfl, .inl rfl⟩

theorem unpaired_joinSurrogates (t : Text) : Unpaired (joinSurrogates t) := by
  fun_induction joinSurrogates t with
  | case1 => exact List.isChain_nil
  | case2 p => exact List.isChain_singleton p
  | case3 p q rest h ih =>
    have hval := ofSurrogates_val (Bool.and_eq_true _ _ ▸ h).1 (Bool.and_eq_true _ _ ▸ h).2
    refine List.isChain_cons.mpr ⟨?_, ih⟩
    rintro r _ ⟨hhigh, _⟩
    rw [isHighSurrogate_iff] at hhigh
    omega
  | case4 p q rest h ih =>
    obtain ⟨r, tail, hjoin, hr⟩ := joinSurrogates_head (p := q) (t := rest)
    refine List.isChain_cons.mpr ⟨?_, ih⟩
    rw [hjoin]
    rintro r' hr' ⟨hhigh, hlow⟩
    obtain rfl : r = r' := by simpa using hr'
    rcases hr with rfl | hr
    · exact h (by simp [hhigh, hlow])
    · rw [hr] at hlow
      cases hlow

/-- Where a text has no pairs, no low surrogate follows a high one among its
units. -/
theorem Unpaired.next_unit {p : Point} {t : Text} {n : Nat} {more : List Nat}
    (h : Unpaired (p :: t)) (hp : p.isHighSurrogate = true) (hunits : unitsOf t = n :: more) :
    ¬(0xDC00 ≤ n ∧ n ≤ 0xDFFF) := by
  cases t with
  | nil => cases hunits
  | cons q t =>
    rw [unitsOf_cons] at hunits
    by_cases hq : q.val < 0x10000
    · rw [units_small hq] at hunits
      obtain rfl : q.val = n := by simpa using (List.cons.inj hunits).1
      rintro hlow
      exact (List.isChain_cons_cons.mp h).1 ⟨hp, isLowSurrogate_iff.mpr hlow⟩
    · rw [units_large hq] at hunits
      have hn := (List.cons.inj hunits).1
      have := q.isLt
      omega

/-- A single point and a pair of surrogates never start the same units. -/
theorem Unpaired.units_ne_pair {p q : Point} {t u : Text} (h : Unpaired (p :: t))
    (hp : p.val < 0x10000) (hq : ¬q.val < 0x10000) : unitsOf (p :: t) ≠ unitsOf (q :: u) := by
  intro heq
  rw [unitsOf_cons, unitsOf_cons, units_small hp, units_large hq] at heq
  simp only [List.cons_append, List.nil_append, List.cons.injEq] at heq
  obtain ⟨hfirst, hsecond⟩ := heq
  have := q.isLt
  have hhigh : p.isHighSurrogate = true := isHighSurrogate_iff.mpr (by omega)
  exact h.next_unit hhigh hsecond (by omega)

/-- A text without pairs is determined by its units. -/
theorem eq_of_unitsOf_eq {t u : Text} (ht : Unpaired t) (hu : Unpaired u)
    (h : unitsOf t = unitsOf u) : t = u := by
  have units_ne_nil (p : Point) (t : Text) : unitsOf (p :: t) ≠ [] := by
    rw [unitsOf_cons, Point.units]
    split <;> simp
  induction t generalizing u with
  | nil =>
    cases u with
    | nil => rfl
    | cons q u => exact absurd h.symm (units_ne_nil q u)
  | cons p t ih =>
    cases u with
    | nil => exact absurd h (units_ne_nil p t)
    | cons q u =>
      have htail : unitsOf t = unitsOf u → t = u := ih (List.IsChain.tail ht) (List.IsChain.tail hu)
      by_cases hp : p.val < 0x10000 <;> by_cases hq : q.val < 0x10000
      · rw [unitsOf_cons, unitsOf_cons, units_small hp, units_small hq] at h
        simp only [List.singleton_append, List.cons.injEq] at h
        rw [Fin.ext h.1, htail h.2]
      · exact absurd h (ht.units_ne_pair hp hq)
      · exact absurd h.symm (hu.units_ne_pair hq hp)
      · rw [unitsOf_cons, unitsOf_cons, units_large hp, units_large hq] at h
        simp only [List.cons_append, List.nil_append, List.cons.injEq] at h
        have hpq : p = q := Fin.ext (by omega)
        rw [hpq, htail h.2.2]

/-! ## Literals -/

/-- The decoder accepts exactly the literals that stand for a text, and gives
this text. -/
theorem unquote_ok_iff {w t : Text} (hw : TokenText .literal w) :
    unquote w = .ok t ↔ LiteralOf w t := by
  cases hw with
  | @literal quote body hquote hbody =>
    have hinner : ((quote :: (body ++ [quote])).drop 1).dropLast = body := by simp
    unfold unquote
    rw [hinner, map_eq_ok]
    constructor
    · rintro ⟨points, hpoints, rfl⟩
      have hspells := spells_of_decodeEscapes hpoints (by simpa using hbody)
      exact .quoted hquote hspells (unitsOf_joinSurrogates points) (unpaired_joinSurrogates points)
    · intro h
      generalize hw : quote :: (body ++ [quote]) = w at h
      obtain ⟨_, hspells, hunits, hunpaired⟩ := h
      rename_i points _
      obtain ⟨rfl, hbodies⟩ := List.cons.inj hw
      obtain rfl := List.append_cancel_right hbodies
      refine ⟨points, decodeEscapes_of_spells hspells, ?_⟩
      refine eq_of_unitsOf_eq (unpaired_joinSurrogates points) hunpaired ?_
      rw [unitsOf_joinSurrogates, hunits]

end FieldGate
