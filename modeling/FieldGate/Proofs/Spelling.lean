-- The law of written paths: steps that are written in brackets, with every
-- point of a name spelled in any of its ways, are the steps that the compiler
-- gives back.
import FieldGate.Proofs.Decimals
import FieldGate.Proofs.PathGrammar
import FieldGate.Proofs.Seams

namespace FieldGate

/-! ## The spellings of a point -/

/-- The letters that stand for a control point after a backslash, with it. -/
def letterEscapes : List (Point × Point) :=
  [('n', '\n'), ('t', '\t'), ('r', '\r'), ('b', '\x08'), ('f', '\x0c'), ('v', '\x0b'),
    ('0', '\x00')]

/-- An escape with its backslash that names a 16-bit unit by four digits. -/
def unitEscape (ds : Text) : Text := '\\' :: 'u' :: ds

/-- A point and a text that spells it between two quotes: the point itself, an
escape by number, the escapes of its two surrogates, its letter, or the point
behind a backslash. -/
inductive Spelling (quote : Point) : Point → Text → Prop
  | raw {p : Point} : p ≠ quote → p ≠ '\\' → p ≠ '\n' → Spelling quote p [p]
  | code {p : Point} {escape ds : Text} : CodeEscape escape ds → numberOfHexDigits ds = p.val →
      Spelling quote p ('\\' :: escape)
  | pair {p : Point} {high low : Text} : high.length = 4 → HexDigits high → low.length = 4 →
      HexDigits low → p.units = [numberOfHexDigits high, numberOfHexDigits low] →
      Spelling quote p (unitEscape high ++ unitEscape low)
  | letter {letter p : Point} : (letter, p) ∈ letterEscapes → Spelling quote p ['\\', letter]
  | self {p : Point} : p ∉ letterEscapes.map Prod.fst → p ≠ 'u' → p ≠ 'x' → p ≠ '\n' →
      Spelling quote p ['\\', p]

/-- A text and one that spells it point by point. -/
inductive Spelled (quote : Point) : Text → Text → Prop
  | nil : Spelled quote [] []
  | cons {p : Point} {t w body : Text} : Spelling quote p w → Spelled quote t body →
      Spelled quote (p :: t) (w ++ body)

/-- A step and what stands for it in brackets: the digits of an index, as many as
can be read, or a name between two quotes of one sort. -/
inductive WrittenStep : Step → Text → Prop
  | index {w : Text} {vs : List Nat} : w ≠ [] → DigitsOf w vs → w.length ≤ longestNumeral →
      WrittenStep (.index (numberOfDigits vs)) w
  | name {quote : Point} {t body : Text} : IsQuote quote → Spelled quote t body →
      WrittenStep (.name t) (quote :: (body ++ [quote]))

def inBrackets (w : Text) : Text := '[' :: (w ++ [Point.ofChar ']'])

/-- Steps and an expression that writes each of them in brackets. -/
inductive WrittenPath : List Step → Text → Prop
  | nil : WrittenPath [] []
  | cons {step : Step} {w e : Text} {steps : List Step} : WrittenStep step w → WrittenPath steps e →
      WrittenPath (step :: steps) (inBrackets w ++ e)

/-- The step is an index with no more digits than can be read, or a name in which
no high surrogate stands right before a low one. -/
def Step.IsWritable : Step → Prop
  | .index n => (decimalDigits n).length ≤ longestNumeral
  | .name t => Unpaired t

/-! ## What a spelling stands for -/

theorem letterEscape_of_mem {letter p : Point} (h : (letter, p) ∈ letterEscapes) :
    letterEscape letter = p ∧ letter ≠ 'u' ∧ letter ≠ 'x' ∧ letter ≠ '\n' := by
  simp only [letterEscapes, List.mem_cons, Prod.mk.injEq, List.not_mem_nil, or_false] at h
  rcases h with ⟨rfl, rfl⟩ | ⟨rfl, rfl⟩ | ⟨rfl, rfl⟩ | ⟨rfl, rfl⟩ | ⟨rfl, rfl⟩ | ⟨rfl, rfl⟩ |
    ⟨rfl, rfl⟩ <;> decide

theorem letterEscape_self {p : Point} (h : p ∉ letterEscapes.map Prod.fst) :
    letterEscape p = p := by
  simp only [letterEscapes, List.map_cons, List.map_nil, List.mem_cons, List.not_mem_nil, or_false,
    not_or] at h
  obtain ⟨hn, ht, hr, hb, hf, hv, hz⟩ := h
  rw [letterEscape, if_neg hn, if_neg ht, if_neg hr, if_neg hb, if_neg hf, if_neg hv, if_neg hz]

theorem pair_points {p : Point} {high low : Nat} (h : p.units = [high, low]) :
    ∃ first second : Point, high = first.val ∧ low = second.val
      ∧ unitsOf [first, second] = p.units := by
  by_cases hp : p.val < 0x10000
  · rw [units_small hp] at h
    cases h
  · have hunits := h
    have hlt := p.isLt
    rw [units_large hp] at hunits
    simp only [List.cons.injEq, and_true] at hunits
    obtain ⟨hhigh, hlow⟩ := hunits
    refine ⟨⟨high, by omega⟩, ⟨low, by omega⟩, rfl, rfl, ?_⟩
    rw [h, unitsOf_cons, unitsOf_cons, units_small, units_small]
    · rfl
    · dsimp only
      omega
    · dsimp only
      omega

/-- A spelling stands for points with the units of the point that it spells: for
the point, or for its two surrogates. -/
theorem Spelling.spells {quote p : Point} {w : Text} (h : Spelling quote p w) :
    ∃ points, unitsOf points = p.units
      ∧ ∀ t u, Spells t u → Spells (w ++ t) (points ++ u) := by
  have hsingle : unitsOf [p] = p.units := by simp [unitsOf]
  cases h with
  | raw _ hslash _ => exact ⟨[p], hsingle, fun t u hspells => .plain hslash hspells⟩
  | code hescape hvalue => exact ⟨[p], hsingle, fun t u hspells => .code hescape hvalue hspells⟩
  | @pair _ high low hhigh hhighs hlow hlows hunits =>
    -- The two halves are decoded apart: only their units are those of `p`.
    obtain ⟨first, second, hfirst, hsecond, hboth⟩ := pair_points hunits
    refine ⟨[first, second], hboth, fun t u hspells => ?_⟩
    have htail := Spells.code (.four hlow hlows) hsecond hspells
    have hwhole := Spells.code (.four hhigh hhighs) hfirst htail
    simpa [unitEscape] using hwhole
  | letter hmem =>
    obtain ⟨hpoint, hu, hx, hfeed⟩ := letterEscape_of_mem hmem
    refine ⟨[p], hsingle, fun t u hspells => ?_⟩
    have hletter := Spells.letter hu hx hfeed hspells
    rwa [hpoint] at hletter
  | self hmem hu hx hfeed =>
    refine ⟨[p], hsingle, fun t u hspells => ?_⟩
    have hletter := Spells.letter hu hx hfeed hspells
    rwa [letterEscape_self hmem] at hletter

theorem Spelled.spells {quote : Point} {t body : Text} (h : Spelled quote t body) :
    ∃ points, Spells body points ∧ unitsOf t = unitsOf points := by
  induction h with
  | nil => exact ⟨[], .nil, rfl⟩
  | cons hpoint _ ih =>
    obtain ⟨rest, hrest, hunits⟩ := ih
    obtain ⟨points, hpoints, happend⟩ := hpoint.spells
    refine ⟨points ++ rest, happend _ _ hrest, ?_⟩
    rw [unitsOf_cons, hunits, ← hpoints]
    exact List.flatMap_append.symm

/-! ## Spellings between quotes -/

theorem HexDigits.ne_quote_or_feed {ds : Text} {quote : Point} (hq : IsQuote quote)
    (h : HexDigits ds) : ∀ p ∈ ds, p ≠ quote ∧ p ≠ '\n' := by
  intro p hp
  have hquote : quote.isHexDigit = false := by rcases hq with rfl | rfl <;> decide
  exact ⟨isHexDigit_ne (h p hp) hquote, isHexDigit_ne (h p hp) (by decide)⟩

theorem CodeEscape.ne_quote_or_feed {escape ds : Text} {quote : Point} (hq : IsQuote quote)
    (h : CodeEscape escape ds) : ∀ p ∈ escape, p ≠ quote ∧ p ≠ '\n' := by
  have hmarks : ∀ p ∈ [Point.ofChar 'u', 'x', openBrace, closeBrace], p ≠ quote ∧ p ≠ '\n' := by
    simp only [List.forall_mem_cons, List.not_mem_nil, false_implies, implies_true, and_true]
    rcases hq with rfl | rfl <;> decide
  intro p hp
  cases h with
  | braced _ hds =>
    simp only [List.mem_cons, List.mem_append, List.not_mem_nil, or_false] at hp
    rcases hp with rfl | rfl | hp | rfl
    · exact hmarks _ (by simp)
    · exact hmarks _ (by simp)
    · exact hds.ne_quote_or_feed hq p hp
    · exact hmarks _ (by simp)
  | four _ hds | two _ hds =>
    rcases List.mem_cons.mp hp with rfl | hp
    · exact hmarks _ (by simp)
    · exact hds.ne_quote_or_feed hq p hp

theorem QuotedBody.append_plain {quote : Point} {w body : Text}
    (hw : ∀ p ∈ w, p ≠ quote ∧ p ≠ '\\' ∧ p ≠ '\n') (h : QuotedBody quote body) :
    QuotedBody quote (w ++ body) := by
  induction w with
  | nil => exact h
  | cons p w ih =>
    obtain ⟨hquote, hslash, hfeed⟩ := hw p List.mem_cons_self
    exact .plain hquote hslash hfeed (ih fun q hq => hw q (List.mem_cons_of_mem p hq))

theorem QuotedBody.append_code {quote : Point} {escape ds body : Text} (hq : IsQuote quote)
    (hescape : CodeEscape escape ds) (h : QuotedBody quote body) :
    QuotedBody quote ('\\' :: (escape ++ body)) := by
  have hfeed := hescape.ne_quote_or_feed hq
  have hslash := hescape.ne_backslash
  obtain ⟨p, rest, rfl⟩ := hescape.exists_cons
  refine .escape (hfeed p List.mem_cons_self).2 (h.append_plain ?_)
  intro r hr
  have hmem := List.mem_cons_of_mem p hr
  exact ⟨(hfeed r hmem).1, hslash r hmem, (hfeed r hmem).2⟩

theorem Spelling.quotedBody {quote p : Point} {w body : Text} (hq : IsQuote quote)
    (h : Spelling quote p w) (hbody : QuotedBody quote body) : QuotedBody quote (w ++ body) := by
  cases h with
  | raw hquote hslash hfeed => exact .plain hquote hslash hfeed hbody
  | code hescape _ => exact hbody.append_code hq hescape
  | pair hhigh hhighs hlow hlows _ =>
    have htail := hbody.append_code hq (.four hlow hlows)
    have hwhole := htail.append_code hq (.four hhigh hhighs)
    simpa [unitEscape] using hwhole
  | letter hmem => exact .escape (letterEscape_of_mem hmem).2.2.2 hbody
  | self _ _ _ hfeed => exact .escape hfeed hbody

theorem Spelled.quotedBody {quote : Point} {t body : Text} (hq : IsQuote quote)
    (h : Spelled quote t body) : QuotedBody quote body := by
  induction h with
  | nil => exact .nil
  | cons hpoint _ ih => exact hpoint.quotedBody hq ih

/-! ## Written steps -/

/-- Digits in front of a bracket are a numeral, and no longer one starts there. -/
theorem longest_digits {w : Text} {vs : List Nat} (rest : Text) (hne : w ≠ [])
    (hds : DigitsOf w vs) : Longest .number w (Point.ofChar ']' :: rest) :=
  (TokenText.number (numeralOf_digits hne hds)).longest_bracket rest

/-- What stands in brackets for a step is one token, and the token stands for the
step. -/
theorem WrittenStep.token {step : Step} {w : Text} (h : WrittenStep step w)
    (hwritable : step.IsWritable) (rest : Text) :
    ∃ kind, Longest kind w (Point.ofChar ']' :: rest) ∧ StepOf (kind, w) step
      ∧ (kind = .number → w.length ≤ longestNumeral) := by
  cases h with
  | index hne hds hlength =>
    exact ⟨.number, longest_digits rest hne hds, .digits hne hds, fun _ => hlength⟩
  | name hq hspelled =>
    obtain ⟨points, hspells, hunits⟩ := hspelled.spells
    have hliteral := LiteralOf.quoted hq hspells hunits hwritable
    refine ⟨.literal, longest_literal _ hq (hspelled.quotedBody hq), .name hliteral, ?_⟩
    simp

theorem splits_inBrackets {kind : TokenKind} {w e : Text} {ls : List Lexeme}
    (h : Longest kind w (Point.ofChar ']' :: e)) (he : Splits e ls) :
    Splits (inBrackets w ++ e)
      ((.openBracket, ['[']) :: (kind, w) :: (.closeBracket, [']']) :: ls) := by
  have hopen : Longest .openBracket ['['] (w ++ Point.ofChar ']' :: e) :=
    longest_mark _ .openBracket (by rintro _ ⟨⟩; rfl)
  have hclose : Longest .closeBracket [']'] e :=
    longest_mark _ .closeBracket (by rintro _ ⟨⟩; rfl)
  have hwhole := Splits.token hopen (.token h (.token hclose he))
  simpa [inBrackets] using hwhole

/-- A written path splits into tokens that stand for its steps. -/
theorem WrittenPath.splits {steps : List Step} {e : Text} (h : WrittenPath steps e)
    (hwritable : ∀ step ∈ steps, step.IsWritable) :
    ∃ ls, Splits e ls ∧ ShortIndices ls ∧ AccessorsOf ls steps
      ∧ (steps ≠ [] → PathOf ls steps) := by
  induction h with
  | nil => exact ⟨[], .nil, by simp [ShortIndices], .nil, by simp⟩
  | @cons step w e steps hliteral _ ih =>
    obtain ⟨ls, hls, hshort, haccessors, _⟩ := ih fun s hs => hwritable s (by simp [hs])
    obtain ⟨kind, hlongest, hstep, hlength⟩ := hliteral.token (hwritable step (by simp)) e
    refine ⟨_, splits_inBrackets hlongest hls, ?_, .bracket hstep haccessors,
      fun _ => .bracket hstep haccessors⟩
    intro l hl vs hkind hds
    simp only [List.mem_cons] at hl
    rcases hl with rfl | rfl | rfl | hl
    · cases hkind
    · exact hlength hkind
    · cases hkind
    · exact hshort l hl vs hkind hds

/-! ## Every step can be written -/

theorem exists_spelling {quote : Point} (hq : IsQuote quote) (p : Point) :
    ∃ w, Spelling quote p w := by
  by_cases hfeed : p = '\n'
  · subst hfeed
    have hmem : (Point.ofChar 'n', Point.ofChar '\n') ∈ letterEscapes := by decide
    exact ⟨_, .letter hmem⟩
  · by_cases hmark : p = quote ∨ p = '\\'
    · have hplain : p ∉ letterEscapes.map Prod.fst ∧ p ≠ 'u' ∧ p ≠ 'x' := by
        rcases hmark with rfl | rfl
        · rcases hq with rfl | rfl <;> decide
        · decide
      exact ⟨_, .self hplain.1 hplain.2.1 hplain.2.2 hfeed⟩
    · rw [not_or] at hmark
      exact ⟨_, .raw hmark.1 hmark.2 hfeed⟩

theorem exists_spelled {quote : Point} (hq : IsQuote quote) (t : Text) :
    ∃ body, Spelled quote t body := by
  induction t with
  | nil => exact ⟨[], .nil⟩
  | cons p t ih =>
    obtain ⟨w, hw⟩ := exists_spelling hq p
    obtain ⟨body, hbody⟩ := ih
    exact ⟨w ++ body, .cons hw hbody⟩

theorem exists_writtenStep {step : Step} (h : step.IsWritable) : ∃ w, WrittenStep step w := by
  cases step with
  | index n =>
    have hds := digitsOf_decimal n
    have hlength : (decimal n).length ≤ longestNumeral := hds.length_eq ▸ h
    have hliteral := WrittenStep.index (decimal_ne_nil n) hds hlength
    rw [numberOfDigits_decimalDigits] at hliteral
    exact ⟨_, hliteral⟩
  | name t =>
    have hq : IsQuote '\'' := .inl rfl
    obtain ⟨body, hbody⟩ := exists_spelled hq t
    exact ⟨_, .name hq hbody⟩

theorem exists_writtenPath {steps : List Step} (h : ∀ step ∈ steps, step.IsWritable) :
    ∃ e, WrittenPath steps e := by
  induction steps with
  | nil => exact ⟨[], .nil⟩
  | cons step steps ih =>
    obtain ⟨w, hw⟩ := exists_writtenStep (h step (by simp))
    obtain ⟨e, he⟩ := ih fun s hs => h s (by simp [hs])
    exact ⟨_, .cons hw he⟩

/-! ## Reading back -/

/-- Steps can be written in brackets when no index is too long to be read and no
name holds a pair of surrogates, and the compiler gives these steps back however
they are written. -/
theorem every_written_path_is_read_back {steps : List Step} (hne : steps ≠ [])
    (hwritable : ∀ step ∈ steps, step.IsWritable) :
    (∃ e, WrittenPath steps e)
      ∧ ∀ e, WrittenPath steps e → compilePath (.text e) = .ok ⟨e, steps⟩ := by
  refine ⟨exists_writtenPath hwritable, fun e he => ?_⟩
  obtain ⟨ls, hls, hshort, _, hpath⟩ := he.splits hwritable
  have short : ∀ ms, Splits e ms → ShortIndices ms := by
    intro ms hms
    rwa [← hls.unique hms]
  rw [compilePath_ok_iff]
  rcases compile_spec e short with ⟨ms, others, hok, hms, hothers⟩ | ⟨_, hnone⟩
  · obtain rfl := hls.unique hms
    rw [hok, PathOf.unique short hls hothers (hpath hne)]
  · exact absurd (hpath hne) (hnone ls steps hls)

theorem a_pair_and_a_quote_are_read_back :
    ([Step.name [0x1F600, '\''], .index 7] ≠ []
        ∧ ∀ step ∈ [Step.name [0x1F600, '\''], .index 7], step.IsWritable)
      ∧ compilePath (.text "['\\uD83D\\ude00\\''][7]")
        = .ok ⟨"['\\uD83D\\ude00\\''][7]", [.name [0x1F600, '\''], .index 7]⟩ := by
  have hne : [Step.name [0x1F600, '\''], .index 7] ≠ [] := List.cons_ne_nil _ _
  have hwritable : ∀ step ∈ [Step.name [0x1F600, '\''], .index 7], step.IsWritable := by
    simp only [List.forall_mem_cons, List.not_mem_nil, false_implies, implies_true, and_true]
    unfold Step.IsWritable Unpaired
    decide +kernel
  have hhigh : HexDigits "D83D" := hexDigits_iff.mp (by decide)
  have hlow : HexDigits "de00" := hexDigits_iff.mp (by decide)
  have hpair : Spelling '\'' 0x1F600 "\\uD83D\\ude00" :=
    .pair rfl hhigh rfl hlow (by decide)
  have hquote : Spelling '\'' '\'' "\\'" :=
    .self (by decide) (by decide) (by decide) (by decide)
  have hname : WrittenStep (.name [0x1F600, '\'']) "'\\uD83D\\ude00\\''" :=
    .name (.inl rfl) (.cons hpair (.cons hquote .nil))
  have hseven : DigitsOf "7" [7] := by
    unfold DigitsOf
    decide +kernel
  have hindex : WrittenStep (.index 7) "7" := .index (by decide) hseven (by decide)
  refine ⟨⟨hne, hwritable⟩, ?_⟩
  exact (every_written_path_is_read_back hne hwritable).2 _ (.cons hname (.cons hindex .nil))

end FieldGate
