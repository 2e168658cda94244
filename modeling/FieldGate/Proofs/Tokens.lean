-- The laws of the lexer: what it makes of an expression is the one way to split
-- it into white space and tokens that are each as long as they can be.
import FieldGate.Proofs.Numerals

namespace FieldGate

/-! ## The texts of tokens -/

/-- What stands between the quotes of a literal: a backslash takes the next
point with it, and neither the quote nor a line feed stands there alone. -/
inductive QuotedBody (quote : Point) : Text → Prop
  | nil : QuotedBody quote []
  | plain {p : Point} {body : Text} : p ≠ quote → p ≠ '\\' → p ≠ '\n' → QuotedBody quote body →
      QuotedBody quote (p :: body)
  | escape {p : Point} {body : Text} : p ≠ '\n' → QuotedBody quote body →
      QuotedBody quote ('\\' :: p :: body)

def IsQuote (p : Point) : Prop := p = '\'' ∨ p = '"'

/-- The texts that tokens of a sort have. -/
inductive TokenText : TokenKind → Text → Prop
  | name {p : Point} {rest : Text} : p.startsName = true →
      (∀ q ∈ rest, q.continuesName = true) → TokenText .name (p :: rest)
  | number {w : Text} {n : Numeral} : NumeralOf w n → TokenText .number w
  | literal {quote : Point} {body : Text} : IsQuote quote → QuotedBody quote body →
      TokenText .literal (quote :: (body ++ [quote]))
  | dot : TokenText .dot ['.']
  | openBracket : TokenText .openBracket ['[']
  | closeBracket : TokenText .closeBracket [']']
  | comma : TokenText .comma [',']

/-- A token without its position. -/
abbrev Lexeme := TokenKind × Text

def Token.lexeme (t : Token) : Lexeme := (t.kind, t.text)

/-- The text is one of the sort, and the longest that stands in front of the
rest. -/
structure Longest (kind : TokenKind) (w rest : Text) : Prop where
  text : TokenText kind w
  longest : ∀ w', TokenText kind w' → w' <+: w ++ rest → w'.length ≤ w.length

/-- An expression and the tokens that it splits into. White space between them
is dropped, and no other point is left over. -/
inductive Splits : Text → List Lexeme → Prop
  | nil : Splits [] []
  | blank {p : Point} {rest : Text} {ls : List Lexeme} : p.isBlank = true → Splits rest ls →
      Splits (p :: rest) ls
  | token {kind : TokenKind} {w rest : Text} {ls : List Lexeme} : Longest kind w rest →
      Splits rest ls → Splits (w ++ rest) ((kind, w) :: ls)

/-! ## The first point of a token -/

/-- The decimal digits, one row of ten after the other. -/
theorem exists_zero_of_isDigit {p : Point} (h : p.isDigit = true) :
    ∃ z ∈ decimalZeros, ∃ d < 10, p = Fin.ofNat _ (z + d) := by
  obtain ⟨v, hv⟩ := Option.isSome_iff_exists.mp h
  obtain ⟨z, hz, rfl⟩ := Option.map_eq_some_iff.mp hv
  have hin := List.find?_some hz
  simp only [Bool.and_eq_true, decide_eq_true_eq] at hin
  refine ⟨z, List.mem_of_find?_eq_some hz, p.val - z, by omega, ?_⟩
  apply Fin.ext
  have hp := p.isLt
  simp only [Fin.ofNat]
  rw [Nat.add_sub_cancel' hin.1, Nat.mod_eq_of_lt hp]

theorem digit_rows_apart : ∀ z ∈ decimalZeros, ∀ d < 10,
    Point.isBlank (Fin.ofNat _ (z + d)) = false
      ∧ Point.startsName (Fin.ofNat _ (z + d)) = false := by
  decide +kernel

theorem isBlank_of_isDigit {p : Point} (h : p.isDigit = true) : p.isBlank = false := by
  obtain ⟨z, hz, d, hd, rfl⟩ := exists_zero_of_isDigit h
  exact (digit_rows_apart z hz d hd).1

theorem startsName_of_isDigit {p : Point} (h : p.isDigit = true) : p.startsName = false := by
  obtain ⟨z, hz, d, hd, rfl⟩ := exists_zero_of_isDigit h
  exact (digit_rows_apart z hz d hd).2

theorem isBlank_of_startsName {p : Point} (h : p.startsName = true) : p.isBlank = false := by
  simp only [Point.startsName, Point.isAsciiLetter, Point.within, Bool.or_eq_true,
    decide_eq_true_eq] at h
  rcases h with (h | rfl) | rfl
  · simp only [Point.isBlank, Point.within]
    simp only [List.any_cons, List.any_nil, Bool.or_false, Bool.or_eq_true, Bool.and_eq_true,
      decide_eq_true_eq, Bool.or_eq_false_iff, Bool.and_eq_false_iff,
      decide_eq_false_iff_not] at h ⊢
    omega
  · decide +kernel
  · decide +kernel

theorem isBlank_of_continuesName {p : Point} (h : p.continuesName = true) : p.isBlank = false := by
  rcases Bool.or_eq_true_iff.mp h with hname | hdigit
  · exact isBlank_of_startsName hname
  · simp only [Point.isAsciiDigit, Point.isBlank, Point.within, List.any_cons, List.any_nil,
      Bool.or_false, Bool.and_eq_true, decide_eq_true_eq, Bool.or_eq_false_iff,
      Bool.and_eq_false_iff, decide_eq_false_iff_not] at hdigit ⊢
    omega

theorem numeralOf_head {w : Text} {n : Numeral} (h : NumeralOf w n) :
    ∃ p rest, w = p :: rest ∧ p.isDigit = true := by
  obtain ⟨hne, hwhole, _, _⟩ := h
  rename_i whole fraction exponent _ _ _ _ _
  obtain ⟨p, rest, rfl⟩ := List.exists_cons_of_ne_nil hne
  exact ⟨p, rest ++ (fraction ++ exponent), rfl, hwhole.isDigit p List.mem_cons_self⟩

/-- A token starts with a point that is no white space. -/
theorem TokenText.head {kind : TokenKind} {w : Text} (h : TokenText kind w) :
    ∃ p rest, w = p :: rest ∧ p.isBlank = false := by
  cases h with
  | name hp _ => exact ⟨_, _, rfl, isBlank_of_startsName hp⟩
  | number hn =>
    obtain ⟨p, rest, rfl, hp⟩ := numeralOf_head hn
    exact ⟨p, rest, rfl, isBlank_of_isDigit hp⟩
  | literal hq _ =>
    refine ⟨_, _, rfl, ?_⟩
    rcases hq with rfl | rfl <;> decide +kernel
  | dot | openBracket | closeBracket | comma => exact ⟨_, _, rfl, by decide +kernel⟩

/-! ## One token -/

theorem quote_ne_backslash {q : Point} (h : IsQuote q) : q ≠ '\\' := by
  rcases h with rfl | rfl <;> decide

theorem literalLength?_quote (q : Point) (rest : Text) :
    literalLength? q (q :: rest) = some 1 := by
  rw [literalLength?.eq_def]
  simp

theorem literalLength?_plain {q p : Point} (rest : Text) (hquote : p ≠ q) (hslash : p ≠ '\\')
    (hfeed : p ≠ '\n') :
    literalLength? q (p :: rest) = (literalLength? q rest).map (· + 1) := by
  rw [literalLength?.eq_def]
  simp [hquote, hslash, hfeed]

theorem literalLength?_escape {q p : Point} (rest : Text) (hq : IsQuote q) (hfeed : p ≠ '\n') :
    literalLength? q ('\\' :: p :: rest) = (literalLength? q rest).map (· + 2) := by
  have hslash : Point.ofChar '\\' ≠ '\n' := by decide
  rw [literalLength?.eq_def]
  simp [(quote_ne_backslash hq).symm, hslash, hfeed]

theorem literalLength?_body {q : Point} {body : Text} (rest : Text) (hq : IsQuote q)
    (h : QuotedBody q body) : literalLength? q (body ++ q :: rest) = some (body.length + 1) := by
  induction h with
  | nil => exact literalLength?_quote q rest
  | plain hquote hslash hfeed _ ih =>
    rw [List.cons_append, literalLength?_plain _ hquote hslash hfeed, ih]
    rfl
  | escape hfeed _ ih =>
    rw [List.cons_append, List.cons_append, literalLength?_escape _ hq hfeed, ih]
    rfl

/-- A literal that is closed holds a body and then its quote. -/
theorem literalLength?_some {q : Point} {t : Text} {n : Nat} (h : literalLength? q t = some n) :
    ∃ body rest, QuotedBody q body ∧ t = body ++ q :: rest ∧ n = body.length + 1 := by
  fun_induction literalLength? q t generalizing n with
  | case1 => simp at h
  | case2 rest => exact ⟨[], rest, .nil, rfl, by simpa using h.symm⟩
  | case3 => simp at h
  | case4 => simp at h
  | case5 => simp at h
  | case6 p more hfeed hquote hslash ih =>
    obtain ⟨m, hm, rfl⟩ := Option.map_eq_some_iff.mp h
    obtain ⟨body, rest, hbody, rfl, rfl⟩ := ih hm
    exact ⟨'\\' :: p :: body, rest, .escape hfeed hbody, rfl, by simp⟩
  | case7 p rest hquote hfeed hslash ih =>
    obtain ⟨m, hm, rfl⟩ := Option.map_eq_some_iff.mp h
    obtain ⟨body, rest', hbody, rfl, rfl⟩ := ih hm
    exact ⟨p :: body, rest', .plain hquote hslash hfeed hbody, rfl, by simp⟩

/-- Names are as long as the points that continue a name. -/
theorem longest_name_iff {p : Point} {w rest : Text} (hp : p.startsName = true) :
    Longest .name (p :: w) rest ↔ (w ++ rest).takeWhile Point.continuesName = w := by
  constructor
  · rintro ⟨htext, hlongest⟩
    obtain ⟨_, hw⟩ := htext
    have hprefix := List.takeWhile_prefix (l := w ++ rest) Point.continuesName
    have hle := hlongest (p :: (w ++ rest).takeWhile Point.continuesName)
      (.name hp fun q hq => List.mem_takeWhile_imp hq) (List.prefix_cons_inj p |>.mpr hprefix)
    rw [List.takeWhile_append_of_pos hw] at hle ⊢
    have hnil : rest.takeWhile Point.continuesName = [] := by
      apply List.eq_nil_of_length_eq_zero
      simp only [List.length_cons, List.length_append] at hle
      omega
    rw [hnil, List.append_nil]
  · intro h
    refine ⟨.name hp fun q hq => List.mem_takeWhile_imp (h.symm ▸ hq), ?_⟩
    rintro w' hw' hprefix
    obtain ⟨tail, htail⟩ := hprefix
    cases hw' with
    | @name _ others _ hall =>
      simp only [List.cons_append, List.cons.injEq] at htail
      have hrun : (others ++ tail).takeWhile Point.continuesName
          = others ++ tail.takeWhile Point.continuesName := List.takeWhile_append_of_pos hall
      rw [htail.2, h] at hrun
      rw [hrun]
      simp

/-- The lexer takes the longest numeral, neither more nor less. -/
theorem numeralLength_longest {w rest : Text} (h : Longest .number w rest) :
    numeralLength (w ++ rest) = w.length := by
  have htext := h.text
  cases htext with
  | number hn =>
    have hge := numeralLength_append_ge rest hn
    obtain ⟨p, tail, rfl, hp⟩ := numeralOf_head hn
    have hrun : 0 < digitRun (p :: tail ++ rest) := by simp [digitRun, hp]
    obtain ⟨m, hm⟩ := numeralOf_take hrun
    have hle := h.longest _ (.number hm) (List.take_prefix _ _)
    rw [List.length_take_of_le (numeralLength_le _)] at hle
    omega

theorem longest_number {p : Point} {rest : Text} (hp : p.isDigit = true) :
    ∃ w tail, rest = w ++ tail ∧ w.length = numeralLength (p :: rest) - 1
      ∧ Longest .number (p :: w) tail := by
  have hrun : 0 < digitRun (p :: rest) := by simp [digitRun, hp]
  obtain ⟨n, hn⟩ := numeralOf_take hrun
  have hle := numeralLength_le (p :: rest)
  have hpos : 0 < numeralLength (p :: rest) := by
    simp only [numeralLength]
    omega
  obtain ⟨k, hk⟩ := Nat.exists_eq_succ_of_ne_zero (Nat.ne_of_gt hpos)
  rw [hk] at hn hle ⊢
  rw [List.length_cons] at hle
  refine ⟨rest.take k, rest.drop k, (List.take_append_drop k rest).symm, ?_, .number hn, ?_⟩
  · rw [List.length_take_of_le (by omega), Nat.succ_sub_one]
  · rintro w' hw' ⟨tail, htail⟩
    cases hw' with
    | number hm =>
      have hge := numeralLength_append_ge tail hm
      rw [htail, List.cons_append, List.take_append_drop, hk] at hge
      rw [List.length_cons, List.length_take_of_le (by omega)]
      exact hge

theorem longest_literal {q : Point} {body : Text} (tail : Text) (hq : IsQuote q)
    (h : QuotedBody q body) : Longest .literal (q :: (body ++ [q])) tail := by
  refine ⟨.literal hq h, ?_⟩
  rintro w' hw' ⟨more, hmore⟩
  cases hw' with
  | @literal q' body' hq' h' =>
    simp only [List.cons_append, List.append_assoc, List.nil_append, List.cons.injEq] at hmore
    obtain ⟨rfl, hbodies⟩ := hmore
    have hlength := literalLength?_body more hq h'
    rw [hbodies, literalLength?_body tail hq h, Option.some.injEq] at hlength
    simp only [List.length_cons, List.length_append, List.length_nil]
    omega

/-- A token of one point is the longest of its sort. -/
theorem longest_mark {kind : TokenKind} {p : Point} (rest : Text) (h : TokenText kind [p])
    (only : ∀ w, TokenText kind w → w.length = 1) : Longest kind [p] rest :=
  ⟨h, fun w' hw' _ => (only w' hw').le⟩

/-- A token with nothing behind it is as long as it can be. -/
theorem TokenText.longest_alone {kind : TokenKind} {w : Text} (h : TokenText kind w) :
    Longest kind w [] := by
  refine ⟨h, ?_⟩
  intro w' _ hfront
  simpa using hfront.length_le

/-- The token that the lexer finds at a point is the longest of its sort. -/
theorem longest_of_tokenAt {p : Point} {rest : Text} {kind : TokenKind} {n : Nat}
    (h : tokenAt p rest = some (kind, n)) :
    ∃ w tail, rest = w ++ tail ∧ w.length = n ∧ Longest kind (p :: w) tail := by
  unfold tokenAt at h
  split_ifs at h with hname hdigit hquote hdot hopen hclose hcomma
  · obtain ⟨rfl, rfl⟩ := Prod.mk.inj (Option.some.inj h)
    refine ⟨rest.takeWhile Point.continuesName, rest.dropWhile Point.continuesName,
      List.takeWhile_append_dropWhile.symm, rfl, ?_⟩
    rw [longest_name_iff hname, List.takeWhile_append_dropWhile]
  · obtain ⟨rfl, rfl⟩ := Prod.mk.inj (Option.some.inj h)
    exact longest_number hdigit
  · obtain ⟨m, hm, hpair⟩ := Option.map_eq_some_iff.mp h
    obtain ⟨rfl, rfl⟩ := Prod.mk.inj hpair
    obtain ⟨body, tail, hbody, rfl, rfl⟩ := literalLength?_some hm
    have hq : IsQuote p := by simpa [IsQuote] using hquote
    exact ⟨body ++ [p], tail, by simp, by simp, longest_literal tail hq hbody⟩
  all_goals
    obtain ⟨rfl, rfl⟩ := Prod.mk.inj (Option.some.inj h)
    subst p
    refine ⟨[], rest, rfl, rfl, longest_mark rest ?_ ?_⟩
    · constructor
    · intro w hw
      cases hw
      rfl

/-- The lexer finds the longest token that stands at a point. -/
theorem tokenAt_longest {kind : TokenKind} {p : Point} {w rest : Text}
    (h : Longest kind (p :: w) rest) : tokenAt p (w ++ rest) = some (kind, w.length) := by
  have htext := h.text
  generalize hw : p :: w = text at htext
  cases htext with
  | name hp _ =>
    obtain ⟨rfl, rfl⟩ := List.cons.inj hw
    rw [tokenAt, if_pos hp, (longest_name_iff hp).mp h]
  | number hn =>
    obtain ⟨p', tail, rfl, hp⟩ := numeralOf_head hn
    obtain ⟨rfl, rfl⟩ := List.cons.inj hw
    have hlength := numeralLength_longest h
    rw [List.cons_append] at hlength
    rw [tokenAt, if_neg (by simp [startsName_of_isDigit hp]), if_pos hp, hlength]
    rfl
  | @literal q body hq hbody =>
    obtain ⟨rfl, rfl⟩ := List.cons.inj hw
    have hname : p.startsName = false := by rcases hq with rfl | rfl <;> decide +kernel
    have hdigit : p.isDigit = false := by rcases hq with rfl | rfl <;> decide +kernel
    have hquote : (decide (p = '\'') || decide (p = '"')) = true := by simpa [IsQuote] using hq
    rw [tokenAt, if_neg (by simp [hname]), if_neg (by simp [hdigit]), if_pos hquote,
      List.append_assoc, List.singleton_append, literalLength?_body rest hq hbody]
    simp
  | dot | openBracket | closeBracket | comma =>
    obtain ⟨rfl, rfl⟩ := List.cons.inj hw
    rfl

/-! ## All tokens -/

theorem tokensFrom_skip (position : Nat) (w rest : Text) :
    tokensFrom position w.length (w ++ rest) = tokensFrom (position + w.length) 0 rest := by
  induction w generalizing position with
  | nil => rfl
  | cons p w ih =>
    rw [List.length_cons, List.cons_append, tokensFrom, ih, Nat.add_assoc, Nat.add_comm 1]

theorem tokensFrom_blank {p : Point} (position : Nat) (rest : Text) (h : p.isBlank = true) :
    tokensFrom position 0 (p :: rest) = tokensFrom (position + 1) 0 rest := by
  rw [tokensFrom, if_pos h]

/-- The lexer goes on behind the longest token at the front of a text. -/
theorem tokensFrom_token {kind : TokenKind} {w rest : Text} (position : Nat)
    (h : Longest kind w rest) :
    tokensFrom position 0 (w ++ rest)
      = (tokensFrom (position + w.length) 0 rest).map (⟨kind, w, position⟩ :: ·) := by
  obtain ⟨p, tail, rfl, hp⟩ := h.text.head
  rw [List.cons_append, tokensFrom, if_neg (by simp [hp]), tokenAt_longest h]
  simp only [List.take_left]
  rw [tokensFrom_skip, List.length_cons, Nat.add_assoc, Nat.add_comm 1]

theorem splits_of_tokensFrom {position pending : Nat} {t : Text} {ts : List Token}
    (h : tokensFrom position pending t = .ok ts) :
    Splits (t.drop pending) (ts.map Token.lexeme) := by
  fun_induction tokensFrom position pending t generalizing ts with
  | case1 position pending =>
    obtain rfl := Except.ok.inj h
    rw [List.drop_nil]
    exact .nil
  | case2 position pending p rest ih => exact ih h
  | case3 position p rest hblank ih => exact .blank hblank (ih h)
  | case4 => cases h
  | case5 position p rest hblank kind further htoken ih =>
    obtain ⟨w, tail, rfl, rfl, hlongest⟩ := longest_of_tokenAt htoken
    rw [List.take_left] at h
    cases htail : tokensFrom (position + 1) w.length (w ++ tail) with
    | error s => simp [htail, Except.map] at h
    | ok us =>
      rw [htail] at h
      obtain rfl := Except.ok.inj h
      have hsplits := ih htail
      rw [List.drop_left] at hsplits
      exact .token hlongest hsplits

theorem tokensFrom_of_splits {t : Text} {ls : List Lexeme} (h : Splits t ls) (position : Nat) :
    ∃ ts, tokensFrom position 0 t = .ok ts ∧ ts.map Token.lexeme = ls := by
  induction h generalizing position with
  | nil => exact ⟨[], rfl, rfl⟩
  | blank hblank _ ih =>
    rw [tokensFrom_blank position _ hblank]
    exact ih (position + 1)
  | @token kind w rest ls hlongest _ ih =>
    obtain ⟨ts, hts, rfl⟩ := ih (position + w.length)
    refine ⟨⟨kind, w, position⟩ :: ts, ?_, rfl⟩
    rw [tokensFrom_token position hlongest, hts]
    rfl

/-- The lexer gives the tokens that the expression splits into. -/
theorem splits_of_tokens {t : Text} {ts : List Token} (h : tokens t = .ok ts) :
    Splits t (ts.map Token.lexeme) :=
  splits_of_tokensFrom h

theorem tokens_of_splits {t : Text} {ls : List Lexeme} (h : Splits t ls) :
    ∃ ts, tokens t = .ok ts ∧ ts.map Token.lexeme = ls :=
  tokensFrom_of_splits h 0

/-- An expression splits into tokens in at most one way. -/
theorem Splits.unique {t : Text} {ls ms : List Lexeme} (h : Splits t ls) (h' : Splits t ms) :
    ls = ms := by
  obtain ⟨ts, hts, rfl⟩ := tokens_of_splits h
  obtain ⟨us, hus, rfl⟩ := tokens_of_splits h'
  rw [hts] at hus
  rw [Except.ok.inj hus]

theorem Splits.text {t : Text} {ls : List Lexeme} (h : Splits t ls) :
    ∀ l ∈ ls, TokenText l.1 l.2 := by
  induction h with
  | nil => simp
  | blank _ _ ih => exact ih
  | token hlongest _ ih =>
    intro l hl
    rcases List.mem_cons.mp hl with rfl | hl
    · exact hlongest.text
    · exact ih l hl

theorem Splits.length_le {t : Text} {ls : List Lexeme} (h : Splits t ls) :
    ∀ l ∈ ls, l.2.length ≤ t.length := by
  induction h with
  | nil => simp
  | blank _ _ ih => exact fun l hl => (ih l hl).trans (Nat.le_succ _)
  | token _ _ ih =>
    intro l hl
    rw [List.length_append]
    rcases List.mem_cons.mp hl with rfl | hl
    · exact Nat.le_add_right _ _
    · exact (ih l hl).trans (Nat.le_add_left _ _)

end FieldGate
