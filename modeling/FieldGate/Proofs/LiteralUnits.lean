-- The law of literals as units: a literal that is decoded has the 16-bit units of the points
-- that it spells, with pairs of surrogates joined and lone ones in their places. It is not
-- decoded just when one of its escapes is malformed.
import FieldGate.Proofs.Spelling

namespace FieldGate

/-! ## Malformed escapes -/

/-- What stands after a backslash opens an escape by number, with `u` or `x`, and goes on with
none of a code point: neither with four digits after `u`, two after `x`, nor after `u` with a
number in braces that is small enough. -/
def IsBadEscape (t : Text) : Prop :=
  (∃ p ∈ t.head?, p = 'u' ∨ p = 'x')
    ∧ ∀ escape ds, CodeEscape escape ds → escape <+: t → 0x110000 ≤ numberOfHexDigits ds

/-- A backslash that is not escaped itself opens such an escape in the body of a literal. -/
def HasBadEscape (quote : Point) (body : Text) : Prop :=
  ∃ before rest, body = before ++ ('\\' :: rest : Text) ∧ QuotedBody quote before ∧ IsBadEscape rest

/-! ## Lone surrogates -/

/-- The point is a surrogate without its partner, a high one before no low one or a low one
after no high one. -/
def IsLone (before : Text) (p : Point) (after : Text) : Prop :=
  p.isHighSurrogate = true ∧ (∀ q ∈ after.head?, q.isLowSurrogate = false)
    ∨ p.isLowSurrogate = true ∧ ∀ q ∈ before.getLast?, q.isHighSurrogate = false

/-- Every lone surrogate of the points stands in the text, with the units of what stands
before it in front and the units of what stands after it behind. -/
def KeepsLone (points t : Text) : Prop :=
  ∀ before p after, points = before ++ p :: after → IsLone before p after →
    ∃ front back, t = front ++ p :: back ∧ unitsOf front = unitsOf before
      ∧ unitsOf back = unitsOf after

/-- No pair of surrogates has its halves in both texts. -/
def Apart (t u : Text) : Prop :=
  ∀ p ∈ t.getLast?, ∀ q ∈ u.head?, ¬(p.isHighSurrogate = true ∧ q.isLowSurrogate = true)

theorem not_low_of_high {p : Point} (h : p.isHighSurrogate = true) : p.isLowSurrogate = false := by
  rw [isHighSurrogate_iff] at h
  rw [Bool.eq_false_iff, Ne, isLowSurrogate_iff]
  omega

theorem Apart.tail {p : Point} {t u : Text} (h : Apart (p :: t) u) : Apart t u := by
  intro q hq
  apply h q
  cases t with
  | nil => cases hq
  | cons r t =>
    rw [List.getLast?_cons_cons]
    exact hq

/-- Texts with no pair across their seam are joined apart. -/
theorem joinSurrogates_append {t u : Text} (h : Apart t u) :
    joinSurrogates (t ++ u) = joinSurrogates t ++ joinSurrogates u := by
  fun_induction joinSurrogates t with
  | case1 => rfl
  | case2 p =>
    cases u with
    | nil => rfl
    | cons q u =>
      have hapart := h p rfl q rfl
      rw [List.singleton_append, joinSurrogates, if_neg (by simpa using hapart)]
      rfl
  | case3 p q rest hpair ih =>
    rw [List.cons_append, List.cons_append, joinSurrogates, if_pos hpair, ih h.tail.tail]
    rfl
  | case4 p q rest hpair ih =>
    rw [List.cons_append, List.cons_append, joinSurrogates, if_neg hpair, ← List.cons_append,
      ih h.tail]
    rfl

theorem keepsLone_joinSurrogates (points : Text) : KeepsLone points (joinSurrogates points) := by
  rintro before p after rfl hlone
  have hbefore : Apart before (p :: after) := by
    rintro q hq _ ⟨⟩ ⟨hhigh, hlow⟩
    rcases hlone with ⟨hp, -⟩ | ⟨-, hlast⟩
    · rw [not_low_of_high hp] at hlow
      cases hlow
    · rw [hlast q hq] at hhigh
      cases hhigh
  have hafter : Apart [p] after := by
    intro r hr q hq
    rw [List.getLast?_singleton, Option.mem_some_iff] at hr
    subst hr
    rintro ⟨hhigh, hlow⟩
    rcases hlone with ⟨-, hnext⟩ | ⟨hp, -⟩
    · rw [hnext q hq] at hlow
      cases hlow
    · rw [not_low_of_high hhigh] at hp
      cases hp
  refine ⟨joinSurrogates before, joinSurrogates after, ?_, unitsOf_joinSurrogates before,
    unitsOf_joinSurrogates after⟩
  rw [joinSurrogates_append hbefore, ← List.singleton_append, joinSurrogates_append hafter]
  rfl

/-! ## Escapes that are refused -/

theorem not_isBadEscape_letter {p : Point} {t : Text} (hu : p ≠ 'u') (hx : p ≠ 'x') :
    ¬IsBadEscape (p :: t) := by
  rintro ⟨⟨q, hq, h⟩, -⟩
  obtain rfl := Option.some.inj hq
  rcases h with rfl | rfl
  · exact hu rfl
  · exact hx rfl

theorem not_isBadEscape_code {escape ds t : Text} {q : Point} (hescape : CodeEscape escape ds)
    (hvalue : numberOfHexDigits ds = q.val) : ¬IsBadEscape (escape ++ t) := by
  rintro ⟨-, hnone⟩
  have hlarge := hnone escape ds hescape (List.prefix_append escape t)
  have := q.isLt
  omega

/-- An escape is refused just when it is malformed. -/
theorem escapeAt_error_iff {p : Point} {t : Text} (hfeed : p ≠ '\n') :
    (∃ fault, escapeAt (p :: t) = .error fault) ↔ IsBadEscape (p :: t) := by
  constructor
  · rintro ⟨fault, h⟩
    constructor
    · by_contra hno
      simp only [List.head?_cons, Option.mem_some_iff, exists_eq_left', not_or] at hno
      rw [escapeAt_letter t hno.1 hno.2 hfeed] at h
      cases h
    · rintro escape ds hescape ⟨rest, hrest⟩
      by_contra hsmall
      have hok := escapeAt_code (q := ⟨numberOfHexDigits ds, by omega⟩) rest hescape rfl
      rw [hrest, h] at hok
      cases hok
  · intro hbad
    cases h : escapeAt (p :: t) with
    | error fault => exact ⟨fault, rfl⟩
    | ok found =>
      obtain ⟨q, n⟩ := found
      rcases escapeAt_ok hfeed h with ⟨escape, ds, rest, heq, -, hescape, hvalue⟩ | ⟨hu, hx, -, -⟩
      · rw [heq] at hbad
        exact absurd hbad (not_isBadEscape_code hescape hvalue)
      · exact absurd hbad (not_isBadEscape_letter hu hx)

/-! ## Bodies that are refused -/

section Bodies

variable {quote : Point} {t : Text}

theorem HasBadEscape.plain {p : Point} (hquote : p ≠ quote) (hslash : p ≠ '\\') (hfeed : p ≠ '\n')
    (h : HasBadEscape quote t) : HasBadEscape quote (p :: t) := by
  obtain ⟨before, rest, rfl, hbefore, hbad⟩ := h
  exact ⟨p :: before, rest, rfl, .plain hquote hslash hfeed hbefore, hbad⟩

theorem HasBadEscape.letter {p : Point} (hfeed : p ≠ '\n') (h : HasBadEscape quote t) :
    HasBadEscape quote ('\\' :: p :: t) := by
  obtain ⟨before, rest, rfl, hbefore, hbad⟩ := h
  exact ⟨'\\' :: p :: before, rest, rfl, .escape hfeed hbefore, hbad⟩

theorem HasBadEscape.code {escape ds : Text} (hq : IsQuote quote) (hescape : CodeEscape escape ds)
    (h : HasBadEscape quote t) : HasBadEscape quote ('\\' :: (escape ++ t)) := by
  obtain ⟨before, rest, rfl, hbefore, hbad⟩ := h
  refine ⟨'\\' :: (escape ++ before), rest, ?_, hbefore.append_code hq hescape, hbad⟩
  simp

/-- A body that is refused has a malformed escape. The points that are pending belong to the
escape before them. -/
theorem hasBadEscape_of_error {n : Nat} {fault : EscapeFault} (hq : IsQuote quote)
    (h : decodeEscapes n t = .error fault) (hbody : QuotedBody quote (t.drop n)) :
    HasBadEscape quote (t.drop n) := by
  fun_induction decodeEscapes n t with
  | case1 n => cases h
  | case2 n p rest ih => exact ih h hbody
  | case3 rest ih =>
    obtain ⟨p, tail, rfl, hfeed, htail⟩ := hbody.escaped
    rcases bind_eq_error.mp h with hescape | ⟨⟨q, further⟩, hescape, h⟩
    · exact ⟨[], p :: tail, rfl, .nil, (escapeAt_error_iff hfeed).mp ⟨fault, hescape⟩⟩
    · have hrest : decodeEscapes further (p :: tail) = .error fault := by
        rcases bind_eq_error.mp h with herror | ⟨us, -, hcons⟩
        · exact herror
        · cases hcons
      rcases escapeAt_ok hfeed hescape with
        ⟨escape, ds, after, heq, rfl, hcode, -⟩ | ⟨-, -, -, rfl⟩
      · have hafter := ih escape.length hrest
        rw [heq, List.drop_left] at hafter
        rw [heq] at hbody ⊢
        exact (hafter (hbody.of_code hcode)).code hq hcode
      · exact (ih 1 hrest htail).letter hfeed
  | case4 p rest hp ih =>
    cases hbody with
    | plain hquote _ hfeed hrest =>
      rcases bind_eq_error.mp h with herror | ⟨us, -, hcons⟩
      · exact (ih herror hrest).plain hquote hp hfeed
      · cases hcons
    | escape _ _ => exact absurd rfl hp

/-- No escape in a text that spells something is malformed. The induction is on the spelling;
a backslash that is not escaped opens one of its escapes. -/
theorem Spells.not_bad {u before rest : Text} (h : Spells t u)
    (ht : t = before ++ ('\\' :: rest : Text)) (hbefore : QuotedBody quote before) :
    ¬IsBadEscape rest := by
  induction h generalizing before with
  | nil => simp at ht
  | plain hp _ ih =>
    cases before with
    | nil => exact absurd (List.cons.inj ht).1 hp
    | cons q before =>
      obtain ⟨rfl, hrest⟩ := List.cons.inj ht
      exact ih hrest (hbefore.tail hp)
  | @code escape ds t u q hcode hvalue _ ih =>
    cases before with
    | nil =>
      obtain ⟨-, rfl⟩ := List.cons.inj ht
      exact not_isBadEscape_code hcode hvalue
    | cons r before =>
      obtain ⟨rfl, hrest⟩ := List.cons.inj ht
      rcases List.append_eq_append_iff.mp hrest with ⟨more, rfl, hmore⟩ | ⟨more, hescape, hmore⟩
      · exact ih hmore (hbefore.of_code hcode)
      -- No backslash stands in the escape itself.
      · cases more with
        | nil =>
          have hstart : t = [] ++ ('\\' :: rest : Text) := hmore.symm
          exact ih hstart .nil
        | cons r more =>
          obtain ⟨rfl, -⟩ := List.cons.inj hmore
          have hmem : Point.ofChar '\\' ∈ escape := by simp [hescape]
          exact absurd rfl (hcode.ne_backslash _ hmem)
  | letter hu hx hfeed _ ih =>
    cases before with
    | nil =>
      obtain ⟨-, rfl⟩ := List.cons.inj ht
      exact not_isBadEscape_letter hu hx
    | cons r before =>
      obtain ⟨rfl, hrest⟩ := List.cons.inj ht
      obtain ⟨p, tail, rfl, -, htail⟩ := hbefore.escaped
      exact ih (List.cons.inj hrest).2 htail

/-- A body is refused just when it has a malformed escape. -/
theorem decodeEscapes_error_iff (hq : IsQuote quote) (hbody : QuotedBody quote t) :
    (∃ fault, decodeEscapes 0 t = .error fault) ↔ HasBadEscape quote t := by
  constructor
  · rintro ⟨fault, h⟩
    exact hasBadEscape_of_error hq h hbody
  · rintro ⟨before, rest, ht, hbefore, hbad⟩
    cases h : decodeEscapes 0 t with
    | error fault => exact ⟨fault, rfl⟩
    | ok u => exact absurd hbad ((spells_of_decodeEscapes h hbody).not_bad ht hbefore)

end Bodies

/-! ## Literals -/

theorem Spells.unique {t u v : Text} (hu : Spells t u) (hv : Spells t v) : u = v :=
  Except.ok.inj ((decodeEscapes_of_spells hu).symm.trans (decodeEscapes_of_spells hv))

theorem unquote_body (quote : Point) (body : Text) :
    unquote (quote :: (body ++ [quote])) = (decodeEscapes 0 body).map joinSurrogates := by
  simp [unquote]

/-- A literal of an expression stands for the units of the one row of points that it spells:
the pairs of surrogates among them are joined, and the lone ones stay where they are. It
stands for nothing just when one of its escapes is malformed. -/
theorem a_literal_keeps_its_units_unless_an_escape_is_malformed {expression : Text}
    {ts : List Token} {token : Token} (hts : tokens expression = .ok ts) (hmem : token ∈ ts)
    (hkind : token.kind = .literal) :
    ∃ quote body, token.text = quote :: (body ++ [quote]) ∧ IsQuote quote
      ∧ QuotedBody quote body
      ∧ (∀ t, unquote token.text = .ok t → Unpaired t ∧ ∃ points, Spells body points
        ∧ (∀ others, Spells body others → others = points) ∧ unitsOf t = unitsOf points
        ∧ KeepsLone points t)
      ∧ ((∃ fault, unquote token.text = .error fault) ↔ HasBadEscape quote body) := by
  have htext : TokenText token.kind token.text :=
    (splits_of_tokens hts).text token.lexeme (List.mem_map_of_mem hmem)
  rw [hkind] at htext
  generalize token.text = w at htext
  cases htext with
  | @literal quote body hquote hbody =>
    refine ⟨quote, body, rfl, hquote, hbody, ?_, ?_⟩
    · intro t ht
      rw [unquote_body] at ht
      obtain ⟨points, hpoints, rfl⟩ := map_eq_ok.mp ht
      have hspells := spells_of_decodeEscapes hpoints hbody
      exact ⟨unpaired_joinSurrogates points, points, hspells, fun _ h => h.unique hspells,
        unitsOf_joinSurrogates points, keepsLone_joinSurrogates points⟩
    · simp only [unquote_body, map_eq_error]
      exact decodeEscapes_error_iff hquote hbody

/-- A literal of three escaped surrogates, a high one before a pair. -/
def threeSurrogates : Token := ⟨.literal, "'\\ud800\\uD83D\\ude00'", 1⟩

theorem a_pair_is_joined_and_the_surrogate_before_it_stays :
    tokens "['\\ud800\\uD83D\\ude00']"
        = .ok [⟨.openBracket, "[", 0⟩, threeSurrogates, ⟨.closeBracket, "]", 21⟩]
      ∧ unquote threeSurrogates.text = .ok [0xD800, 0x1F600]
      ∧ Unpaired [0xD800, 0x1F600]
      ∧ ∃ body points, Spells body points ∧ unitsOf [0xD800, 0x1F600] = unitsOf points
        ∧ KeepsLone points [0xD800, 0x1F600] := by
  have htokens : tokens "['\\ud800\\uD83D\\ude00']"
      = .ok [⟨.openBracket, "[", 0⟩, threeSurrogates, ⟨.closeBracket, "]", 21⟩] := by
    decide +kernel
  have hunquote : unquote threeSurrogates.text = .ok [0xD800, 0x1F600] := by decide +kernel
  have hmem : threeSurrogates
      ∈ [⟨.openBracket, "[", 0⟩, threeSurrogates, ⟨.closeBracket, "]", 21⟩] := by simp
  obtain ⟨_, body, -, -, -, hkept, -⟩ :=
    a_literal_keeps_its_units_unless_an_escape_is_malformed htokens hmem rfl
  obtain ⟨hunpaired, points, hspells, -, hunits, hlone⟩ := hkept _ hunquote
  exact ⟨htokens, hunquote, hunpaired, body, points, hspells, hunits, hlone⟩

/-- Braces stand after `u` alone. -/
example : unquote "'\\x\x7b41\x7d'" = .error (.malformed "\\x")
    ∧ unquote "'\\u\x7b41\x7d'" = .ok "A" := by decide +kernel

end FieldGate
