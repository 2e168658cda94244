-- White space between tokens means nothing: with more of it, or other of it, an
-- expression has the same tokens and the same steps, or is refused at the same token.
import FieldGate.Proofs.PathGrammar

namespace FieldGate

/-! ## Spacing -/

def IsGap (gap : Text) : Prop := ∀ p ∈ gap, p.isBlank = true

instance : DecidablePred IsGap := fun gap =>
  decidable_of_iff (gap.all Point.isBlank = true) List.all_eq_true

/-- Two expressions with these tokens, which differ in the white space around them at
most. Where the first has some, so has the second. -/
inductive Respaced : List Lexeme → Text → Text → Prop
  | nil {gap gap' : Text} : IsGap gap → IsGap gap' → Respaced [] gap gap'
  | token {gap gap' : Text} {kind : TokenKind} {w rest rest' : Text} {ls : List Lexeme} :
      IsGap gap → IsGap gap' → (gap' = [] → gap = []) → Respaced ls rest rest' →
      Respaced ((kind, w) :: ls) (gap ++ (w ++ rest)) (gap' ++ (w ++ rest'))

/-- The errors of two expressions that are refused alike: both are blank, or the fault
is the same and at tokens that have the same place among all. -/
inductive RefusedAlike (ts us : List Token) : PathError → PathError → Prop
  | blank : ts = [] → us = [] → RefusedAlike ts us .blank .blank
  | grammar {fault : GrammarFault} {t u : Token} : (t, u) ∈ ts.zip us →
      RefusedAlike ts us (.grammar fault t.position) (.grammar fault u.position)

/-! ## Tokens without white space -/

theorem isBlank_of_exponentMark {p : Point} (h : IsExponentMark p) : p.isBlank = false := by
  rcases h with rfl | rfl <;> decide +kernel

theorem DigitsOf.no_blank {ds : Text} {vs : List Nat} (h : DigitsOf ds vs) :
    ∀ p ∈ ds, p.isBlank = false :=
  fun p hp => isBlank_of_isDigit (h.isDigit p hp)

theorem FractionOf.no_blank {fraction : Text} {vs : List Nat} (h : FractionOf fraction vs) :
    ∀ p ∈ fraction, p.isBlank = false := by
  cases h with
  | none => simp
  | digits _ hds => exact List.forall_mem_cons.mpr ⟨by decide +kernel, hds.no_blank⟩

theorem ExponentOf.no_blank {exponent : Text} {e : Int} (h : ExponentOf exponent e) :
    ∀ p ∈ exponent, p.isBlank = false := by
  cases h with
  | none => simp
  | bare hmark _ hds =>
    exact List.forall_mem_cons.mpr ⟨isBlank_of_exponentMark hmark, hds.no_blank⟩
  | plus hmark _ hds | minus hmark _ hds =>
    refine List.forall_mem_cons.mpr ⟨isBlank_of_exponentMark hmark, ?_⟩
    exact List.forall_mem_cons.mpr ⟨by decide +kernel, hds.no_blank⟩

/-- White space stands in literals only. -/
theorem TokenText.no_blank {kind : TokenKind} {w : Text} (h : TokenText kind w)
    (hkind : kind ≠ .literal) : ∀ p ∈ w, p.isBlank = false := by
  cases h with
  | name hp hrest =>
    refine List.forall_mem_cons.mpr ⟨isBlank_of_startsName hp, ?_⟩
    exact fun q hq => isBlank_of_continuesName (hrest q hq)
  | number hn =>
    obtain ⟨_, hwhole, hfraction, hexponent⟩ := hn
    intro p hp
    rcases List.mem_append.mp hp with hp | hp
    · exact hwhole.no_blank p hp
    · rcases List.mem_append.mp hp with hp | hp
      · exact hfraction.no_blank p hp
      · exact hexponent.no_blank p hp
  | literal _ _ => exact absurd rfl hkind
  | dot | openBracket | closeBracket | comma =>
    exact List.forall_mem_cons.mpr ⟨by decide +kernel, by simp⟩

/-- How long a token is depends on what follows it up to the next white space. -/
theorem Longest.of_no_blank {kind : TokenKind} {w rest rest' : Text} (h : Longest kind w rest)
    (hrest : ∀ u, (∀ p ∈ u, p.isBlank = false) → u <+: rest' → u <+: rest) :
    Longest kind w rest' := by
  by_cases hkind : kind = .literal
  · subst hkind
    have htext := h.text
    cases htext with
    | literal hq hbody => exact longest_literal rest' hq hbody
  · refine ⟨h.text, ?_⟩
    intro w' hw' hfront
    by_contra hlonger
    obtain ⟨u, rfl⟩ : w <+: w' :=
      List.prefix_of_prefix_length_le (List.prefix_append w rest') hfront (by omega)
    have hblank := hw'.no_blank hkind
    have hu := hrest u (fun p hp => hblank p (List.mem_append_right w hp))
      ((List.prefix_append_right_inj w).mp hfront)
    exact hlonger (h.longest _ hw' ((List.prefix_append_right_inj w).mpr hu))

/-! ## The tokens of an expression that is spaced otherwise -/

theorem IsGap.front_eq_nil {gap rest u : Text} (h : IsGap gap) (hne : gap ≠ [])
    (hu : ∀ p ∈ u, p.isBlank = false) (hfront : u <+: gap ++ rest) : u = [] := by
  obtain ⟨q, gap, rfl⟩ := List.exists_cons_of_ne_nil hne
  cases u with
  | nil => rfl
  | cons p u =>
    obtain ⟨rfl, -⟩ := List.cons_prefix_cons.mp hfront
    have hblank := hu p List.mem_cons_self
    rw [h p List.mem_cons_self] at hblank
    cases hblank

/-- Up to its first white space the second expression starts like the first. -/
theorem Respaced.front {ls : List Lexeme} {e e' : Text} (h : Respaced ls e e') :
    ∀ u, (∀ p ∈ u, p.isBlank = false) → u <+: e' → u <+: e := by
  induction h with
  | @nil gap gap' _ hgap' =>
    intro u hu hfront
    by_cases hne : gap' = []
    · subst hne
      rw [List.prefix_nil.mp hfront]
      exact List.nil_prefix
    · rw [← List.append_nil gap'] at hfront
      rw [hgap'.front_eq_nil hne hu hfront]
      exact List.nil_prefix
  | @token gap gap' kind w rest rest' ls _ hgap' hkept _ ih =>
    intro u hu hfront
    by_cases hne : gap' = []
    · obtain rfl := hkept hne
      subst hne
      rw [List.nil_append] at hfront ⊢
      by_cases hlength : u.length ≤ w.length
      · have hw := List.prefix_of_prefix_length_le hfront (List.prefix_append w rest') hlength
        exact hw.trans (List.prefix_append w rest)
      · obtain ⟨v, rfl⟩ : w <+: u :=
          List.prefix_of_prefix_length_le (List.prefix_append w rest') hfront (by omega)
        rw [List.prefix_append_right_inj] at hfront ⊢
        exact ih v (fun p hp => hu p (List.mem_append_right w hp)) hfront
    · rw [hgap'.front_eq_nil hne hu hfront]
      exact List.nil_prefix

theorem Splits.of_gap {gap e : Text} {ls : List Lexeme} (hgap : IsGap gap)
    (h : Splits (gap ++ e) ls) : Splits e ls := by
  induction gap with
  | nil => exact h
  | cons p gap ih =>
    apply ih fun q hq => hgap q (List.mem_cons_of_mem p hq)
    have hp := hgap p List.mem_cons_self
    rw [List.cons_append] at h
    generalize htext : p :: (gap ++ e) = text at h
    cases h with
    | nil => cases htext
    | blank _ hrest =>
      obtain ⟨rfl, rfl⟩ := List.cons.inj htext
      exact hrest
    | token hlongest _ =>
      obtain ⟨q, w, rfl, hq⟩ := hlongest.text.head
      obtain ⟨rfl, -⟩ := List.cons.inj htext
      rw [hp] at hq
      cases hq

/-- What stands in front of its first token is that token and the text behind it. -/
theorem Splits.of_token {kind : TokenKind} {w rest : Text} {ls : List Lexeme}
    (h : Splits (w ++ rest) ((kind, w) :: ls)) : Longest kind w rest ∧ Splits rest ls := by
  obtain ⟨p, tail, rfl, hp⟩ := (h.text _ List.mem_cons_self).head
  generalize htext : p :: tail ++ rest = text at h
  cases h with
  | blank hblank _ =>
    obtain ⟨rfl, -⟩ := List.cons.inj htext
    rw [hblank] at hp
    cases hp
  | token hlongest hrest =>
    obtain rfl := List.append_cancel_left htext
    exact ⟨hlongest, hrest⟩

/-- The tokens stay what they are. -/
theorem Splits.respaced {ls : List Lexeme} {e e' : Text} (h : Splits e ls)
    (hspaced : Respaced ls e e') : Splits e' ls := by
  induction hspaced with
  | nil _ hgap' => exact splits_blank hgap'
  | token hgap hgap' _ hrest ih =>
    obtain ⟨hlongest, htail⟩ := (h.of_gap hgap).of_token
    exact (Splits.token (hlongest.of_no_blank hrest.front) (ih htail)).gap_append hgap'

/-! ## The steps of an expression that is spaced otherwise -/

/-- Tokens with the same sorts and texts are compiled alike, wherever they stand. -/
theorem stepsOf_alike {ts us : List Token} (hts : ∀ t ∈ ts, t.Readable)
    (hlexemes : ts.map Token.lexeme = us.map Token.lexeme) :
    EndAlike (RefusedAlike ts us) Eq (stepsOf ts) (stepsOf us) := by
  have hpairs : List.Forall₂ Eq (ts.map Token.lexeme) (us.map Token.lexeme) := by
    rw [List.forall₂_eq_eq_eq]
    exact hlexemes
  rw [List.forall₂_map_left_iff, List.forall₂_map_right_iff] at hpairs
  have halike : List.Forall₂ (Token.Corresponds fun e f =>
      RefusedAlike ts us e f ∨ ∃ m, e = .unreadable m) ts us := by
    rw [List.forall₂_iff_zip] at hpairs ⊢
    refine ⟨hpairs.1, ?_⟩
    intro t u hpair
    have hsame := Prod.mk.inj (hpairs.2 hpair)
    exact Token.corresponds_of_lexeme hsame.1 hsame.2 (fun _ => .inl (.grammar hpair))
      fun m => .inr ⟨m, rfl⟩
  cases halike with
  | nil => exact .error (.blank rfl rfl)
  | cons ht hrest =>
    -- an index too long to be read is the one error that has no place
    apply (stepsOf_corresponds ht hrest).imp
    rintro e f he (halike | ⟨m, rfl⟩)
    · exact halike
    · exact absurd rfl (stepsOf_error hts he m)

/-- An expression that splits into tokens, none of them an index too long to be read,
keeps its meaning under other spacing: the tokens are the same, and they give the same
steps, or are refused for the same fault at the same token. -/
theorem spacing_between_tokens_changes_no_meaning {e e' : Text} {ls : List Lexeme}
    (hsplits : Splits e ls) (hshort : ShortIndices ls) (hspaced : Respaced ls e e') :
    ∃ ts us, tokens e = .ok ts ∧ tokens e' = .ok us
      ∧ ts.map Token.lexeme = ls ∧ us.map Token.lexeme = ls
      ∧ ((∃ steps, compilePath (.text e) = .ok ⟨e, steps⟩
            ∧ compilePath (.text e') = .ok ⟨e', steps⟩)
          ∨ ∃ err err', compilePath (.text e) = .error (Fault.ofPathError (.text e) e err)
            ∧ compilePath (.text e') = .error (Fault.ofPathError (.text e') e' err')
            ∧ RefusedAlike ts us err err') := by
  obtain ⟨ts, hts, htokens⟩ := tokens_of_splits hsplits
  obtain ⟨us, hus, htokens'⟩ := tokens_of_splits (hsplits.respaced hspaced)
  refine ⟨ts, us, hts, hus, htokens, htokens', ?_⟩
  have hreadable : ∀ t ∈ ts, t.Readable := by
    apply readable_of_tokens hts
    intro ms hms
    rwa [hms.unique hsplits]
  simp only [compilePath, compile_of_tokens hts, compile_of_tokens hus]
  have halike := stepsOf_alike hreadable (htokens.trans htokens'.symm)
  generalize stepsOf ts = x at halike ⊢
  generalize stepsOf us = y at halike ⊢
  cases halike with
  | ok hsteps =>
    subst hsteps
    exact .inl ⟨_, rfl, rfl⟩
  | error herrors => exact .inr ⟨_, _, rfl, rfl, herrors⟩

/-- The tokens of a short expression, once without white space and once with it. -/
theorem respaced_brackets : Respaced
    [(.name, "x"), (.openBracket, "["), (.number, "10e1"), (.closeBracket, "]")]
    "x[10e1]" " x\n[ 10e1]\t" := by
  have hnone : IsGap [] := by simp [IsGap]
  have hblank : IsGap " " := by decide +kernel
  have hfeed : IsGap "\n" := by decide +kernel
  have htab : IsGap "\t" := by decide +kernel
  exact .token hnone hblank (by simp) (.token hnone hfeed (by simp) (.token hnone hblank (by simp)
    (.token hnone hnone (by simp) (.nil hnone htab))))

theorem a_spaced_exponent_names_the_same_steps :
    ∃ ls, Splits "x[10e1]" ls ∧ ShortIndices ls ∧ Respaced ls "x[10e1]" " x\n[ 10e1]\t"
      ∧ compilePath (.text " x\n[ 10e1]\t")
        = .ok ⟨" x\n[ 10e1]\t", [.name "x", .index 100]⟩ := by
  have hlex : tokens "x[10e1]" = .ok [⟨.name, "x", 0⟩, ⟨.openBracket, "[", 1⟩,
      ⟨.number, "10e1", 2⟩, ⟨.closeBracket, "]", 6⟩] := by decide +kernel
  have hsplits := splits_of_tokens hlex
  have hshort := shortIndices_of_length_le (e := "x[10e1]") (by decide) _ hsplits
  have hok : compilePath (.text "x[10e1]") = .ok ⟨"x[10e1]", [.name "x", .index 100]⟩ :=
    compilePath_ok_iff.mpr (by decide +kernel)
  obtain ⟨ts, us, -, -, -, -, ⟨steps, hsame, hother⟩ | ⟨err, err', herror, -⟩⟩ :=
    spacing_between_tokens_changes_no_meaning hsplits hshort respaced_brackets
  · obtain rfl := (Path.mk.inj (Except.ok.inj (hsame.symm.trans hok))).2
    exact ⟨_, hsplits, hshort, respaced_brackets, hother⟩
  · rw [hok] at herror
    cases herror

end FieldGate
