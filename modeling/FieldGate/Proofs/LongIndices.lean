-- What compiling an expression ends with: a path, or the refusal of the expression.
-- One thing alone falls outside: where the compiler comes to an index of too many
-- digits, the reader of integers stops it with a mishap of its own.
import FieldGate.Proofs.Spelling

namespace FieldGate

/-! ## Where a literal is read -/

/-- The token is an index in digits alone, with too many of them to be read. -/
def IsLongIndex (l : Lexeme) : Prop :=
  l.1 = .number ∧ (∃ vs, DigitsOf l.2 vs) ∧ longestNumeral < l.2.length

/-- What stands in a shorthand before a literal: elements, each with a comma
behind it. -/
inductive ElementNext : List Lexeme → Prop
  | first : ElementNext []
  | later {l : Lexeme} {step : Step} {mark : Text} {ls : List Lexeme} : StepOf l step →
      ElementNext ls → ElementNext (l :: (.comma, mark) :: ls)

/-- What stands among the accesses before a literal: whole accesses, and the bracket
that opens the next one. -/
inductive AccessNext : List Lexeme → Prop
  | opened {opener : Text} : AccessNext [(.openBracket, opener)]
  | dot {mark name : Text} {ls : List Lexeme} : AccessNext ls →
      AccessNext ((.dot, mark) :: (.name, name) :: ls)
  | bracket {opener closer : Text} {l : Lexeme} {step : Step} {ls : List Lexeme} :
      StepOf l step → AccessNext ls →
      AccessNext ((.openBracket, opener) :: l :: (.closeBracket, closer) :: ls)

/-- The tokens behind which the compiler reads a literal: a shorthand that is still
open, or a head with accesses of which the last is still open. -/
inductive LiteralNext : List Lexeme → Prop
  | shorthand {opener : Text} {ls : List Lexeme} : ElementNext ls →
      LiteralNext ((.openBracket, opener) :: ls)
  | name {name : Text} {ls : List Lexeme} : AccessNext ls → LiteralNext ((.name, name) :: ls)
  | bracket {opener closer : Text} {l : Lexeme} {step : Step} {ls : List Lexeme} :
      StepOf l step → AccessNext ls →
      LiteralNext ((.openBracket, opener) :: l :: (.closeBracket, closer) :: ls)
  | comma {opener mark closer : Text} {l : Lexeme} {step : Step} {ls : List Lexeme} :
      StepOf l step → AccessNext ls →
      LiteralNext ((.openBracket, opener) :: l :: (.comma, mark) :: (.closeBracket, closer) :: ls)

/-- The first long index among some tokens stands where a literal is read, and this
is the mishap of reading it. -/
def ComesToLong (Next : List Lexeme → Prop) (ls : List Lexeme) (m : Mishap) : Prop :=
  ∃ before w after, ls = before ++ (.number, w) :: after ∧ Next before
    ∧ (∀ l ∈ before, ¬IsLongIndex l) ∧ IsLongIndex (.number, w) ∧ m = .numeralTooLong w.length

/-! ## One literal -/

/-- The tokens are such as the lexer makes. -/
def Lexed (ts : List Token) : Prop := ∀ t ∈ ts, TokenText t.kind t.text

theorem Lexed.tail {t : Token} {ts : List Token} (h : Lexed (t :: ts)) : Lexed ts :=
  fun u hu => h u (List.mem_cons_of_mem t hu)

theorem lexed_of_tokens {e : Text} {ts : List Token} (h : tokens e = .ok ts) : Lexed ts :=
  fun _ ht => (splits_of_tokens h).text _ (List.mem_map_of_mem ht)

theorem readable_of_not_long {t : Token} (htext : TokenText t.kind t.text)
    (h : ¬IsLongIndex t.lexeme) : t.Readable where
  text := htext
  short := by
    intro vs hkind hds
    by_contra hlong
    exact h ⟨hkind, ⟨vs, hds⟩, Nat.lt_of_not_le hlong⟩

theorem literalStep_long {t : Token} (h : IsLongIndex t.lexeme) :
    literalStep t = .error (.unreadable (.numeralTooLong t.text.length)) := by
  obtain ⟨hkind, ⟨vs, hds⟩, hlong⟩ := h
  change t.kind = .number at hkind
  change DigitsOf t.text vs at hds
  change longestNumeral < t.text.length at hlong
  rw [← hds.length_eq] at hlong ⊢
  unfold literalStep indexStep
  rw [hkind, splitDigits_digits hds]
  simp only [integerOfDigits, if_pos hlong]
  rfl

theorem literalStep_reads_iff {t : Token} {step : Step} (htext : TokenText t.kind t.text) :
    literalStep t = .ok step ↔ StepOf t.lexeme step ∧ ¬IsLongIndex t.lexeme := by
  by_cases hlong : IsLongIndex t.lexeme
  · rw [literalStep_long hlong]
    constructor
    · intro h
      cases h
    · exact fun h => absurd hlong h.2
  · rw [literalStep_ok_iff (readable_of_not_long htext hlong)]
    exact ⟨fun h => ⟨h, hlong⟩, fun h => h.1⟩

theorem literalStep_unreadable {t : Token} {m : Mishap} (htext : TokenText t.kind t.text)
    (h : literalStep t = .error (.unreadable m)) :
    t.kind = .number ∧ IsLongIndex t.lexeme ∧ m = .numeralTooLong t.text.length := by
  by_cases hlong : IsLongIndex t.lexeme
  · rw [literalStep_long hlong] at h
    exact ⟨hlong.1, hlong, (PathError.unreadable.inj (Except.error.inj h)).symm⟩
  · obtain ⟨fault, position, herror⟩ :=
      endsInGrammar_literalStep (readable_of_not_long htext hlong) _ h
    cases herror

/-! ## Coming to a long index -/

namespace ComesToLong

variable {Next Next' : List Lexeme → Prop} {ls : List Lexeme} {m : Mishap}

/-- Tokens that are no long index may stand in front, where they lead on. -/
theorem append (h : ComesToLong Next ls m) (ms : List Lexeme) (hms : ∀ l ∈ ms, ¬IsLongIndex l)
    (hnext : ∀ before, Next before → Next' (ms ++ before)) : ComesToLong Next' (ms ++ ls) m := by
  obtain ⟨before, w, after, rfl, hbefore, hshort, hlong, rfl⟩ := h
  refine ⟨ms ++ before, w, after, (List.append_assoc _ _ _).symm, hnext before hbefore, ?_,
    hlong, rfl⟩
  intro l hl
  rcases List.mem_append.mp hl with hl | hl
  · exact hms l hl
  · exact hshort l hl

/-- A long index behind tokens that lead to a literal. -/
theorem here {t : Token} {ts : List Token} (htext : TokenText t.kind t.text)
    (h : literalStep t = .error (.unreadable m)) (ms : List Lexeme)
    (hms : ∀ l ∈ ms, ¬IsLongIndex l) (hnext : Next ms) :
    ComesToLong Next (ms ++ (t :: ts).map Token.lexeme) m := by
  obtain ⟨hkind, hlong, rfl⟩ := literalStep_unreadable htext h
  rw [List.map_cons, lexeme_of_kind hkind]
  rw [lexeme_of_kind hkind] at hlong
  exact ⟨ms, t.text, ts.map Token.lexeme, rfl, hnext, hms, hlong, rfl⟩

end ComesToLong

theorem not_long_of_kind {kind : TokenKind} {w : Text} (h : kind ≠ .number) :
    ¬IsLongIndex (kind, w) :=
  fun hlong => h hlong.1

/-! ## Accesses -/

/-- Accesses that stop the compiler come to a long index. -/
theorem comesToLong_of_accessors {ts : List Token} {m : Mishap} (hts : Lexed ts)
    (h : accessors ts = .error (.unreadable m)) :
    ComesToLong AccessNext (ts.map Token.lexeme) m := by
  fun_induction accessors ts with
  | case1 | case2 | case4 | case5 | case7 => cases h
  | case3 dot hdot name more hname ih =>
    have hmore := ih hts.tail.tail (map_eq_error.mp h)
    simp only [List.map_cons, lexeme_of_kind hdot, lexeme_of_kind hname]
    refine hmore.append [(.dot, dot.text), (.name, name.text)] ?_ fun _ => .dot
    simp [not_long_of_kind]
  | case6 opener hopener element after ih =>
    have helement := hts.tail element List.mem_cons_self
    rw [List.map_cons, lexeme_of_kind hopener]
    rcases bind_eq_error.mp h with hstep | ⟨step, hstep, h⟩
    · exact .here helement hstep [(.openBracket, opener.text)]
        (by simp [not_long_of_kind]) .opened
    · obtain ⟨hreads, hshort⟩ := (literalStep_reads_iff helement).mp hstep
      cases after with
      | nil => cases h
      | cons closer more =>
        dsimp only at h ih
        split at h
        · rename_i hcloser
          rcases bind_eq_error.mp h with hmore | ⟨_, _, h⟩
          · have hlong := ih hts.tail.tail.tail hmore
            simp only [List.map_cons, lexeme_of_kind hcloser]
            refine hlong.append [(.openBracket, opener.text), element.lexeme,
              (.closeBracket, closer.text)] ?_ fun _ => .bracket hreads
            simp [not_long_of_kind, hshort]
          · cases h
        · cases h

theorem accessors_stop {opener element : Token} {e : PathError} (rest : List Token)
    (hopener : opener.kind = .openBracket) (hstep : literalStep element = .error e) :
    accessors (opener :: element :: rest) = .error e := by
  rw [accessors.eq_def]
  simp only [hopener, hstep, error_bind]

/-- Accesses that come to a long index stop the compiler there. -/
theorem accessors_of_comesToLong {ts : List Token} {m : Mishap} (hts : Lexed ts)
    (h : ComesToLong AccessNext (ts.map Token.lexeme) m) :
    accessors ts = .error (.unreadable m) := by
  obtain ⟨before, w, after, hsplit, hnext, hshort, hlong, rfl⟩ := h
  induction hnext generalizing ts with
  | opened =>
    obtain ⟨opener, rest, rfl, hopener, hrest⟩ := List.map_eq_cons_iff.mp hsplit
    obtain ⟨element, rest, rfl, helement, -⟩ := List.map_eq_cons_iff.mp hrest
    obtain ⟨-, rfl⟩ := Prod.mk.inj helement
    rw [← helement] at hlong
    exact accessors_stop rest (Prod.mk.inj hopener).1 (literalStep_long hlong)
  | dot _ ih =>
    obtain ⟨dot, rest, rfl, hdot, hrest⟩ := List.map_eq_cons_iff.mp hsplit
    obtain ⟨name, more, rfl, hname, hmore⟩ := List.map_eq_cons_iff.mp hrest
    rw [accessors_dot more (Prod.mk.inj hdot).1 (Prod.mk.inj hname).1,
      ih hts.tail.tail hmore fun l hl => hshort l (by simp [hl])]
    rfl
  | bracket hreads _ ih =>
    obtain ⟨opener, rest, rfl, hopener, hrest⟩ := List.map_eq_cons_iff.mp hsplit
    obtain ⟨element, tail, rfl, rfl, htail⟩ := List.map_eq_cons_iff.mp hrest
    obtain ⟨closer, more, rfl, hcloser, hmore⟩ := List.map_eq_cons_iff.mp htail
    have hstep := (literalStep_reads_iff (hts.tail element List.mem_cons_self)).mpr
      ⟨hreads, hshort _ (by simp)⟩
    rw [accessors_bracket more (Prod.mk.inj hopener).1 hstep (Prod.mk.inj hcloser).1,
      ih hts.tail.tail.tail hmore fun l hl => hshort l (by simp [hl])]
    rfl

/-! ## The shorthand -/

theorem shorthandElements_stop {opener element : Token} {e : PathError} (rest : List Token)
    (hstep : literalStep element = .error e) :
    shorthandElements opener (element :: rest) = .error e := by
  rw [shorthandElements.eq_def]
  simp only [hstep, error_bind]

/-- Elements that stop the compiler come to a long index. -/
theorem comesToLong_of_elements {opener : Token} {ts : List Token} {m : Mishap} (hts : Lexed ts)
    (h : shorthandElements opener ts = .error (.unreadable m)) :
    ComesToLong ElementNext (ts.map Token.lexeme) m := by
  fun_induction shorthandElements opener ts with
  | case1 => cases h
  | case2 element rest ih =>
    have helement := hts element List.mem_cons_self
    rcases bind_eq_error.mp h with hstep | ⟨step, hstep, h⟩
    · exact .here helement hstep [] (by simp) .first
    · obtain ⟨hreads, hshort⟩ := (literalStep_reads_iff helement).mp hstep
      cases rest with
      | nil => cases h
      | cons mark more =>
        dsimp only at ih h
        split_ifs at h with hclose hcomma hended
        · cases h
        · cases h
        · rcases bind_eq_error.mp h with hmore | ⟨_, _, h⟩
          · have hlong := ih hts.tail.tail hmore
            simp only [List.map_cons, lexeme_of_kind hcomma]
            refine hlong.append [element.lexeme, (.comma, mark.text)] ?_
              fun _ => .later hreads
            simp [not_long_of_kind, hshort]
          · cases h
        · cases h

theorem not_startsClosed_of_next {ts : List Token} {m : Mishap}
    (h : ComesToLong ElementNext (ts.map Token.lexeme) m) : startsClosed ts = false := by
  rw [← Bool.not_eq_true, startsClosed_iff]
  rintro ⟨closer, more, rfl, hcloser⟩
  obtain ⟨before, w, after, hsplit, hnext, -⟩ := h
  rw [List.map_cons, lexeme_of_kind hcloser] at hsplit
  cases hnext with
  | first => cases hsplit
  | later hreads _ =>
    obtain ⟨rfl, -⟩ := List.cons.inj hsplit
    cases hreads

/-- Elements that come to a long index stop the compiler there. -/
theorem elements_of_comesToLong {opener : Token} {ts : List Token} {m : Mishap} (hts : Lexed ts)
    (h : ComesToLong ElementNext (ts.map Token.lexeme) m) :
    shorthandElements opener ts = .error (.unreadable m) := by
  obtain ⟨before, w, after, hsplit, hnext, hshort, hlong, rfl⟩ := h
  induction hnext generalizing ts with
  | first =>
    obtain ⟨element, rest, rfl, helement, -⟩ := List.map_eq_cons_iff.mp hsplit
    obtain ⟨-, rfl⟩ := Prod.mk.inj helement
    rw [← helement] at hlong
    exact shorthandElements_stop rest (literalStep_long hlong)
  | later hreads hnext ih =>
    obtain ⟨element, rest, rfl, rfl, hrest⟩ := List.map_eq_cons_iff.mp hsplit
    obtain ⟨mark, more, rfl, hmark, hmore⟩ := List.map_eq_cons_iff.mp hrest
    have hkind := (Prod.mk.inj hmark).1
    have hstep := (literalStep_reads_iff (hts element List.mem_cons_self)).mpr
      ⟨hreads, hshort _ (by simp)⟩
    have hshort' := fun l hl => hshort l (List.mem_cons_of_mem _ (List.mem_cons_of_mem _ hl))
    have hopen : startsClosed more = false :=
      not_startsClosed_of_next ⟨_, w, after, hmore, hnext, hshort', hlong, rfl⟩
    rw [shorthandElements.eq_def]
    simp [hstep, hkind, hopen, ih hts.tail.tail hmore hshort']

theorem shorthand_unreadable_iff {opener : Token} {ts : List Token} {m : Mishap}
    (hts : Lexed ts) : shorthand opener ts = .error (.unreadable m) ↔
      ComesToLong ElementNext (ts.map Token.lexeme) m := by
  unfold shorthand
  constructor
  · intro h
    split_ifs at h with hclosed
    exact comesToLong_of_elements hts h
  · intro h
    rw [if_neg (by simp [not_startsClosed_of_next h])]
    exact elements_of_comesToLong hts h

/-! ## The whole of an expression -/

theorem comesToLong_of_stepsOf {ts : List Token} {m : Mishap} (hts : Lexed ts)
    (h : stepsOf ts = .error (.unreadable m)) :
    ComesToLong LiteralNext (ts.map Token.lexeme) m := by
  cases ts with
  | nil => cases h
  | cons t rest =>
    rw [stepsOf.eq_def] at h
    dsimp only at h
    split at h
    · rename_i hname
      have hrest := comesToLong_of_accessors hts.tail (map_eq_error.mp h)
      rw [List.map_cons, lexeme_of_kind hname]
      exact hrest.append [(.name, t.text)] (by simp [not_long_of_kind]) fun _ => .name
    · rename_i hopener
      rw [List.map_cons, lexeme_of_kind hopener]
      rcases bind_eq_error.mp h with hshorthand | ⟨⟨steps, left⟩, hshorthand, h⟩
      · have hrest := (shorthand_unreadable_iff hts.tail).mp hshorthand
        exact hrest.append [(.openBracket, t.text)] (by simp [not_long_of_kind])
          fun _ => .shorthand
      · dsimp only at h
        split at h
        · rename_i step
          rcases bind_eq_error.mp h with haccessors | ⟨_, _, h⟩
          · have hleft : Lexed left := fun u hu =>
              hts.tail u (shorthand_left hshorthand u hu)
            have hlong := comesToLong_of_accessors hleft haccessors
            obtain ⟨element, hstep, ⟨closer, hcloser, rfl⟩ |
              ⟨mark, closer, hmark, hcloser, rfl⟩⟩ := shorthand_one hshorthand
            · obtain ⟨hreads, hshort⟩ :=
                (literalStep_reads_iff (hts.tail element List.mem_cons_self)).mp hstep
              simp only [List.map_cons, lexeme_of_kind hcloser]
              refine hlong.append [(.openBracket, t.text), element.lexeme,
                (.closeBracket, closer.text)] ?_ fun _ => .bracket hreads
              simp [not_long_of_kind, hshort]
            · obtain ⟨hreads, hshort⟩ :=
                (literalStep_reads_iff (hts.tail element List.mem_cons_self)).mp hstep
              simp only [List.map_cons, lexeme_of_kind hcloser, lexeme_of_kind hmark]
              refine hlong.append [(.openBracket, t.text), element.lexeme,
                (.comma, mark.text), (.closeBracket, closer.text)] ?_ fun _ => .comma hreads
              simp [not_long_of_kind, hshort]
          · cases h
        · cases h
    · cases h

theorem stepsOf_stop {opener : Token} {rest : List Token} {e : PathError}
    (hopener : opener.kind = .openBracket) (hshorthand : shorthand opener rest = .error e) :
    stepsOf (opener :: rest) = .error e := by
  rw [stepsOf.eq_def]
  simp only [hopener, hshorthand, error_bind]

theorem stepsOf_of_comesToLong {ts : List Token} {m : Mishap} (hts : Lexed ts)
    (h : ComesToLong LiteralNext (ts.map Token.lexeme) m) :
    stepsOf ts = .error (.unreadable m) := by
  obtain ⟨before, w, after, hsplit, hnext, hshort, hlong, rfl⟩ := h
  cases hnext with
  | shorthand hnext =>
    obtain ⟨opener, rest, rfl, hopener, hrest⟩ := List.map_eq_cons_iff.mp hsplit
    apply stepsOf_stop (Prod.mk.inj hopener).1
    rw [shorthand_unreadable_iff hts.tail]
    exact ⟨_, w, after, hrest, hnext, fun l hl => hshort l (by simp [hl]), hlong, rfl⟩
  | name hnext =>
    obtain ⟨name, rest, rfl, hname, hrest⟩ := List.map_eq_cons_iff.mp hsplit
    have haccessors := accessors_of_comesToLong hts.tail
      ⟨_, w, after, hrest, hnext, fun l hl => hshort l (by simp [hl]), hlong, rfl⟩
    rw [stepsOf_name rest (Prod.mk.inj hname).1, haccessors]
    rfl
  | bracket hreads hnext =>
    obtain ⟨opener, rest, rfl, hopener, hrest⟩ := List.map_eq_cons_iff.mp hsplit
    obtain ⟨element, tail, rfl, rfl, htail⟩ := List.map_eq_cons_iff.mp hrest
    obtain ⟨closer, more, rfl, hcloser, hmore⟩ := List.map_eq_cons_iff.mp htail
    have hstep := (literalStep_reads_iff (hts.tail element List.mem_cons_self)).mpr
      ⟨hreads, hshort _ (by simp)⟩
    have haccessors := accessors_of_comesToLong hts.tail.tail.tail
      ⟨_, w, after, hmore, hnext, fun l hl => hshort l (by simp [hl]), hlong, rfl⟩
    rw [stepsOf_shorthand (Prod.mk.inj hopener).1
      (shorthand_bracket more hstep (Prod.mk.inj hcloser).1), haccessors]
    rfl
  | comma hreads hnext =>
    obtain ⟨opener, rest, rfl, hopener, hrest⟩ := List.map_eq_cons_iff.mp hsplit
    obtain ⟨element, tail, rfl, rfl, htail⟩ := List.map_eq_cons_iff.mp hrest
    obtain ⟨mark, tail', rfl, hmark, htail'⟩ := List.map_eq_cons_iff.mp htail
    obtain ⟨closer, more, rfl, hcloser, hmore⟩ := List.map_eq_cons_iff.mp htail'
    have hstep := (literalStep_reads_iff (hts.tail element List.mem_cons_self)).mpr
      ⟨hreads, hshort _ (by simp)⟩
    have haccessors := accessors_of_comesToLong hts.tail.tail.tail.tail
      ⟨_, w, after, hmore, hnext, fun l hl => hshort l (by simp [hl]), hlong, rfl⟩
    rw [stepsOf_shorthand (Prod.mk.inj hopener).1
      (shorthand_comma more hstep (Prod.mk.inj hmark).1 (Prod.mk.inj hcloser).1), haccessors]
    rfl

/-! ## What compiling ends with -/

/-- The compiler comes to a long index in the expression, and this is the mishap of
reading it. -/
def StopsAtLongIndex (e : Text) (m : Mishap) : Prop :=
  ∃ ls, Splits e ls ∧ ComesToLong LiteralNext ls m

theorem compile_unreadable_iff {e : Text} {m : Mishap} :
    Path.compile e = .error (.unreadable m) ↔ StopsAtLongIndex e m := by
  cases htokens : tokens e with
  | error s =>
    rw [compile_of_stray htokens]
    constructor
    · intro h
      cases h
    · rintro ⟨ls, hls, -⟩
      obtain ⟨ts, hts, -⟩ := tokens_of_splits hls
      rw [htokens] at hts
      cases hts
  | ok ts =>
    have hsplits := splits_of_tokens htokens
    have hlexed := lexed_of_tokens htokens
    rw [compile_of_tokens htokens]
    constructor
    · intro h
      exact ⟨_, hsplits, comesToLong_of_stepsOf hlexed (map_eq_error.mp h)⟩
    · rintro ⟨ls, hls, hlong⟩
      obtain rfl := hsplits.unique hls
      exact map_eq_error.mpr (stepsOf_of_comesToLong hlexed hlong)

/-- Too many digits in brackets stop the compiler. -/
theorem stopsAtLongIndex_brackets {ds : Text} {vs : List Nat} (hds : DigitsOf ds vs)
    (hlong : longestNumeral < ds.length) :
    StopsAtLongIndex (inBrackets ds) (.numeralTooLong ds.length) := by
  have hne : ds ≠ [] := List.ne_nil_of_length_pos (Nat.zero_lt_of_lt hlong)
  have hsplits := splits_inBrackets (longest_digits [] hne hds) .nil
  rw [List.append_nil] at hsplits
  refine ⟨_, hsplits, [(.openBracket, ['['])], ds, _, rfl, .shorthand .first, ?_,
    ⟨rfl, ⟨vs, hds⟩, hlong⟩, rfl⟩
  simp [not_long_of_kind]

theorem stepsOf_ne_nil {ts : List Token} {steps : List Step} (h : stepsOf ts = .ok steps) :
    steps ≠ [] := by
  cases ts with
  | nil => cases h
  | cons t rest =>
    rw [stepsOf.eq_def] at h
    dsimp only at h
    split at h
    · obtain ⟨others, -, rfl⟩ := map_eq_ok.mp h
      exact List.cons_ne_nil _ _
    · obtain ⟨⟨elements, left⟩, -, h⟩ := bind_eq_ok.mp h
      dsimp only at h
      split at h
      · obtain ⟨others, -, hcons⟩ := bind_eq_ok.mp h
        obtain rfl := Except.ok.inj hcons
        exact List.cons_ne_nil _ _
      · cases h
    · cases h

/-- The fault says that a value is no path, and carries that value. -/
def Fault.RefusesExpression (v : Value) (f : Fault) : Prop :=
  ∃ message position circumstances,
    f = .report (.malformedPath message v position circumstances none)

/-- The value is an expression in which the compiler comes to a long index, and this
is the mishap of reading it. -/
def StopsCompiling (v : Value) (m : Mishap) : Prop := ∃ e, v = .text e ∧ StopsAtLongIndex e m

theorem compilePath_mishap_iff {v : Value} {m : Mishap} :
    compilePath v = .error (.mishap m) ↔ StopsCompiling v m := by
  constructor
  · intro h
    cases v with
    | text e =>
      refine ⟨e, rfl, compile_unreadable_iff.mp ?_⟩
      cases hcompile : Path.compile e with
      | ok p =>
        rw [compilePath, hcompile] at h
        cases h
      | error err =>
        rw [compilePath, hcompile] at h
        cases err with
        | unreadable n =>
          obtain rfl := Fault.mishap.inj (Except.error.inj h)
          rfl
        | blank | notText _ | stray _ | grammar _ _ => cases h
    | _ => cases h
  · rintro ⟨e, rfl, hstops⟩
    rw [compilePath, compile_unreadable_iff.mpr hstops]
    rfl

/-- A value gives a path with steps, its refusal, or a mishap. -/
theorem compilePath_cases (v : Value) :
    (∃ p, compilePath v = .ok p ∧ v = .text p.expression ∧ p.steps ≠ [])
      ∨ (∃ f, compilePath v = .error f ∧ f.RefusesExpression v)
      ∨ ∃ m, compilePath v = .error (.mishap m) := by
  cases v with
  | text e =>
    cases h : Path.compile e with
    | ok p =>
      obtain ⟨ts, -, hsteps, rfl⟩ := compile_ok_spec h
      exact .inl ⟨p, compilePath_ok_iff.mpr h, rfl, stepsOf_ne_nil hsteps⟩
    | error err =>
      have herror : compilePath (.text e) = .error (Fault.ofPathError (.text e) e err) := by
        rw [compilePath, h]
        rfl
      by_cases hread : ∃ m, err = .unreadable m
      · obtain ⟨m, rfl⟩ := hread
        exact .inr (.inr ⟨m, herror⟩)
      · exact .inr (.inl ⟨_, herror, refusesPath_of_error fun m hm => hread ⟨m, hm⟩⟩)
  | _ => exact .inr (.inl ⟨_, rfl, _, _, _, rfl⟩)

/-- Compiling a value ends with a path of at least one step, or with the refusal that
carries the value, just when the compiler comes to no long index in it. Where it does,
the mishap of reading that index comes out as it is, and no mishap comes otherwise. -/
theorem compiling_ends_with_a_path_or_a_refusal_but_for_a_long_index (v : Value) :
    ((∃ p, compilePath v = .ok p ∧ v = .text p.expression ∧ p.steps ≠ [])
        ∨ (∃ f, compilePath v = .error f ∧ f.RefusesExpression v)
      ↔ ¬∃ m, StopsCompiling v m)
    ∧ ∀ m, compilePath v = .error (.mishap m) ↔ StopsCompiling v m := by
  refine ⟨?_, fun m => compilePath_mishap_iff⟩
  simp only [← compilePath_mishap_iff]
  constructor
  · rintro (⟨p, hp, -⟩ | ⟨f, hf, message, position, circumstances, rfl⟩) ⟨m, hm⟩
    · rw [hp] at hm
      cases hm
    · rw [hf] at hm
      cases hm
  · intro hnone
    rcases compilePath_cases v with hpath | hrefused | hmishap
    · exact .inl hpath
    · exact .inr hrefused
    · exact absurd hmishap hnone

/-- An index of 4301 ones: one digit more than are read. -/
def indexOfOnes : Text := inBrackets (List.replicate 4301 '1')

/-- The index of 4301 ones ends with the mishap of reading it, which refuses no
expression. -/
theorem a_long_index_is_no_refusal :
    compilePath (.text indexOfOnes) = .error (.mishap (.numeralTooLong 4301))
      ∧ ¬(Fault.mishap (.numeralTooLong 4301)).RefusesExpression (.text indexOfOnes) := by
  have hone : Point.digit? '1' = some 1 := by decide +kernel
  have hlength : (List.replicate 4301 (Point.ofChar '1')).length = 4301 := List.length_replicate
  have hones : DigitsOf (List.replicate 4301 (Point.ofChar '1')) (List.replicate 4301 1) := by
    rw [DigitsOf, List.map_replicate, List.map_replicate, hone]
  have hlong : longestNumeral < (List.replicate 4301 (Point.ofChar '1')).length := by
    rw [hlength]
    decide
  have hstops := stopsAtLongIndex_brackets hones hlong
  rw [hlength] at hstops
  constructor
  · rw [compilePath, indexOfOnes, compile_unreadable_iff.mpr hstops]
    rfl
  · rintro ⟨message, position, circumstances, h⟩
    cases h

end FieldGate
