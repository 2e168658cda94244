-- Where the tokens of an expression stand: one behind the other, each as it is written in
-- its place, and nothing but white space outside them. The lexer stops at the first point
-- that is no white space and starts no token.
import FieldGate.Proofs.Positions

namespace FieldGate

/-! ## Places -/

namespace Token

/-- Where the text behind a token starts. -/
def stop (t : Token) : Nat := t.position + t.text.length

/-- The token reaches over a place of the expression. -/
def Covers (t : Token) (place : Nat) : Prop := t.position ≤ place ∧ place < t.stop

end Token

/-- Tokens in their places in an expression: they stand one behind the other and apart,
each of them is written where it stands, and what they do not cover is white space. -/
structure InPlace (e : Text) (ts : List Token) : Prop where
  increasing : ts.Pairwise fun t u => t.position < u.position
  apart : ts.Pairwise fun t u => t.stop ≤ u.position
  written : ∀ t ∈ ts, (e.drop t.position).take t.text.length = t.text
  between : ∀ i p, e[i]? = some p → (∀ t ∈ ts, ¬t.Covers i) → p.isBlank = true

/-- From a position, scanning passes over white space and over these tokens, each as long
as it can be, and comes to the rest of the text at a further position. -/
inductive Passes : Nat → Text → List Token → Nat → Text → Prop
  | here {position : Nat} {t : Text} : Passes position t [] position t
  | blank {position stop : Nat} {p : Point} {t rest : Text} {ts : List Token} :
      p.isBlank = true → Passes (position + 1) t ts stop rest →
      Passes position (p :: t) ts stop rest
  | token {position stop : Nat} {kind : TokenKind} {w t rest : Text} {ts : List Token} :
      Longest kind w t → Passes (position + w.length) t ts stop rest →
      Passes position (w ++ t) (⟨kind, w, position⟩ :: ts) stop rest

/-- Scanning an expression from left to right comes to this point, which is no white space
and starts no token. -/
def ComesToStray (e : Text) (s : StrayPoint) : Prop :=
  ∃ ts rest, Passes 0 e ts s.position (s.point :: rest) ∧ s.point.isBlank = false
    ∧ StartsNone s.point rest

section Passes

variable {position stop : Nat} {t rest : Text} {ts : List Token}

/-! ## What scanning passes over -/

/-- What is passed over is as long as the way to the further position. -/
theorem Passes.consumed (h : Passes position t ts stop rest) :
    ∃ before, t = before ++ rest ∧ stop = position + before.length := by
  induction h with
  | here => exact ⟨[], rfl, rfl⟩
  | @blank _ _ p _ _ _ _ _ ih =>
    obtain ⟨before, rfl, rfl⟩ := ih
    exact ⟨p :: before, rfl, by simp [Nat.add_assoc, Nat.add_comm 1]⟩
  | @token _ _ _ w _ _ _ _ _ ih =>
    obtain ⟨before, rfl, rfl⟩ := ih
    exact ⟨w ++ before, by simp, by simp [Nat.add_assoc]⟩

/-- A token that is passed over is written in its place, which is not before the start. -/
theorem Passes.written (h : Passes position t ts stop rest) : ∀ u ∈ ts, TokenText u.kind u.text
    ∧ ∃ i, u.position = position + i ∧ (t.drop i).take u.text.length = u.text := by
  induction h with
  | here => simp
  | blank _ _ ih =>
    intro u hu
    obtain ⟨htext, i, hi, hwritten⟩ := ih u hu
    exact ⟨htext, i + 1, by omega, hwritten⟩
  | @token _ _ _ w _ _ _ hlongest _ ih =>
    intro u hu
    rcases List.mem_cons.mp hu with rfl | hu
    · exact ⟨hlongest.text, 0, rfl, List.take_left⟩
    · obtain ⟨htext, i, hi, hwritten⟩ := ih u hu
      refine ⟨htext, w.length + i, by omega, ?_⟩
      rw [List.drop_length_add_append, hwritten]

theorem Passes.apart (h : Passes position t ts stop rest) :
    ts.Pairwise fun u v => u.stop ≤ v.position := by
  induction h with
  | here => exact .nil
  | blank _ _ ih => exact ih
  | token _ hrest ih =>
    refine .cons (fun u hu => ?_) ih
    obtain ⟨-, i, hi, -⟩ := hrest.written u hu
    rw [hi]
    exact Nat.le_add_right _ _

/-- What is passed over outside the tokens is white space. -/
theorem Passes.between (h : Passes position t ts stop rest) : ∀ i p, position + i < stop →
    t[i]? = some p → (∀ u ∈ ts, ¬u.Covers (position + i)) → p.isBlank = true := by
  induction h with
  | here => intro i p hi; omega
  | @blank position stop p t rest ts hblank _ ih =>
    intro i q hi hq hfree
    cases i with
    | zero =>
      obtain rfl := Option.some.inj hq
      exact hblank
    | succ i =>
      have hplace : position + 1 + i = position + (i + 1) := by omega
      exact ih i q (by omega) hq (hplace ▸ hfree)
  | @token position stop kind w t rest ts _ _ ih =>
    intro i q hi hq hfree
    obtain ⟨hfirst, hothers⟩ := List.forall_mem_cons.mp hfree
    have hbehind : w.length ≤ i := by
      by_contra hinside
      exact hfirst ⟨Nat.le_add_right _ _, by simp only [Token.stop]; omega⟩
    obtain ⟨j, rfl⟩ := Nat.exists_eq_add_of_le hbehind
    rw [List.getElem?_append_right hbehind, Nat.add_sub_cancel_left] at hq
    rw [← Nat.add_assoc] at hi hothers
    exact ih j q hi hq hothers

theorem Passes.inPlace {e : Text} (h : Passes 0 e ts e.length []) : InPlace e ts := by
  refine ⟨?increasing, h.apart, ?written, ?between⟩
  case increasing =>
    -- no token is empty
    refine h.apart.imp_of_mem fun {u v} hu _ huv => ?_
    obtain ⟨p, tail, htext, -⟩ := (h.written u hu).1.head
    simp only [Token.stop, htext, List.length_cons] at huv
    omega
  case written =>
    intro u hu
    obtain ⟨-, i, hi, hwritten⟩ := h.written u hu
    rw [hi, Nat.zero_add]
    exact hwritten
  case between =>
    intro i p hp hfree
    have hi : i < e.length := (List.getElem?_eq_some_iff.mp hp).1
    exact h.between i p (by omega) hp (by simpa using hfree)

/-! ## Where scanning comes to -/

/-- The lexer goes on where scanning comes to. -/
theorem Passes.tokensFrom (h : Passes position t ts stop rest) :
    tokensFrom position 0 t = (FieldGate.tokensFrom stop 0 rest).map (ts ++ ·) := by
  induction h with
  | here => exact (congrFun Except.map_id _).symm
  | blank hblank _ ih => rw [tokensFrom_blank _ _ hblank, ih]
  | @token position stop kind w t rest ts hlongest _ ih =>
    rw [tokensFrom_token position hlongest, ih]
    cases FieldGate.tokensFrom stop 0 rest <;> rfl

/-- Scanning comes to the end of the text or to a point that starts no token. -/
theorem exists_passes (position : Nat) (t : Text) : ∃ ts stop rest,
    Passes position t ts stop rest
      ∧ (rest = [] ∨ ∃ p tail, rest = p :: tail ∧ p.isBlank = false ∧ StartsNone p tail) := by
  obtain ⟨marks, hscan⟩ := exists_scan position t
  induction hscan with
  | nil => exact ⟨[], _, [], .here, .inl rfl⟩
  | blank hblank _ ih =>
    obtain ⟨ts, stop, rest, hpasses, hend⟩ := ih
    exact ⟨ts, stop, rest, .blank hblank hpasses, hend⟩
  | token hlongest _ ih =>
    obtain ⟨ts, stop, rest, hpasses, hend⟩ := ih
    exact ⟨_, stop, rest, .token hlongest hpasses, hend⟩
  | stray hblank hnone _ _ => exact ⟨[], _, _, .here, .inr ⟨_, _, rfl, hblank, hnone⟩⟩

end Passes

/-- The lexer gives these tokens just when scanning passes over them and comes to the end. -/
theorem tokens_ok_iff {e : Text} {ts : List Token} :
    tokens e = .ok ts ↔ Passes 0 e ts e.length [] := by
  constructor
  · intro h
    obtain ⟨us, stop, rest, hpasses, rfl | ⟨p, tail, rfl, hblank, hnone⟩⟩ := exists_passes 0 e
    · obtain ⟨before, rfl, rfl⟩ := hpasses.consumed
      rw [tokens, hpasses.tokensFrom] at h
      obtain rfl := Except.ok.inj h
      simpa using hpasses
    · rw [tokens, hpasses.tokensFrom, tokensFrom_stray stop hblank hnone] at h
      cases h
  · intro h
    rw [tokens, h.tokensFrom]
    exact congrArg Except.ok (List.append_nil ts)

/-- The lexer stops at a point just when scanning comes to it. -/
theorem tokens_error_iff {e : Text} {s : StrayPoint} :
    tokens e = .error s ↔ ComesToStray e s := by
  constructor
  · intro h
    obtain ⟨ts, stop, rest, hpasses, rfl | ⟨p, tail, rfl, hblank, hnone⟩⟩ := exists_passes 0 e
    · rw [tokens, hpasses.tokensFrom] at h
      cases h
    · rw [tokens, hpasses.tokensFrom, tokensFrom_stray stop hblank hnone] at h
      obtain rfl := Except.error.inj h
      exact ⟨ts, tail, hpasses, hblank, hnone⟩
  · rintro ⟨ts, rest, hpasses, hblank, hnone⟩
    rw [tokens, hpasses.tokensFrom, tokensFrom_stray _ hblank hnone]
    rfl

/-- The text of a token is that token when it stands alone. -/
theorem TokenText.tokens {kind : TokenKind} {w : Text} (h : TokenText kind w) :
    tokens w = .ok [⟨kind, w, 0⟩] := by
  have hlex := tokensFrom_token 0 h.longest_alone
  rw [List.append_nil] at hlex
  exact hlex

theorem ComesToStray.point {e : Text} {s : StrayPoint} (h : ComesToStray e s) :
    e[s.position]? = some s.point := by
  obtain ⟨ts, rest, hpasses, -⟩ := h
  obtain ⟨before, rfl, hstop⟩ := hpasses.consumed
  rw [hstop, Nat.zero_add, List.getElem?_append_right (le_refl _), Nat.sub_self]
  rfl

/-- The tokens of an expression are those that scanning passes over on its way to the end.
They stand in their places, with nothing but white space outside them, and each is the one
token of its own text. An expression has no tokens just when scanning comes to a point that
is no white space and starts none; that point and its position are what is reported. -/
theorem nothing_but_white_space_is_lost_between_tokens (e : Text) :
    (∀ ts, (tokens e = .ok ts ↔ Passes 0 e ts e.length [])
        ∧ (tokens e = .ok ts →
          InPlace e ts ∧ ∀ t ∈ ts, tokens t.text = .ok [⟨t.kind, t.text, 0⟩]))
      ∧ ∀ s, (tokens e = .error s ↔ ComesToStray e s)
        ∧ (tokens e = .error s → e[s.position]? = some s.point
          ∧ ∃ r, compilePath (.text e) = .error (.report r) ∧ r.PointsAt e s.position) := by
  constructor
  · intro ts
    refine ⟨tokens_ok_iff, ?_⟩
    intro hts
    refine ⟨(tokens_ok_iff.mp hts).inPlace, ?_⟩
    intro t ht
    exact ((splits_of_tokens hts).text t.lexeme (List.mem_map_of_mem ht)).tokens
  · intro s
    refine ⟨tokens_error_iff, ?_⟩
    intro hs
    refine ⟨(tokens_error_iff.mp hs).point, ?_⟩
    have hrefused : compilePath (.text e)
        = .error (Fault.ofPathError (.text e) e (.stray s)) := by
      rw [compilePath, compile_of_stray hs, mapError_error]
    have hposition : (PathError.stray s).position? = some s.position := rfl
    exact ⟨_, hrefused, pointsAt_of_position hposition rfl⟩

/-- An exponent without digits is given back, and so is all of an open literal but its quote,
where the lexer stops. -/
theorem an_open_exponent_is_a_name_and_an_open_literal_is_stray :
    let ts : List Token := [⟨.number, "1.5", 0⟩, ⟨.name, "e", 3⟩, ⟨.openBracket, "[", 5⟩,
      ⟨.literal, "'b c'", 6⟩, ⟨.closeBracket, "]", 11⟩]
    tokens "1.5e ['b c']" = .ok ts ∧ InPlace "1.5e ['b c']" ts
      ∧ tokens "1.5" = .ok [⟨.number, "1.5", 0⟩]
      ∧ tokens "a['b c]" = .error ⟨'\'', 2⟩ ∧ ComesToStray "a['b c]" ⟨'\'', 2⟩
      ∧ ∃ r, compilePath (.text "a['b c]") = .error (.report r) ∧ r.PointsAt "a['b c]" 2 := by
  intro ts
  have hts : tokens "1.5e ['b c']" = .ok ts := by decide +kernel
  have hstray : tokens "a['b c]" = .error ⟨'\'', 2⟩ := by decide +kernel
  obtain ⟨hplaced, -⟩ := nothing_but_white_space_is_lost_between_tokens "1.5e ['b c']"
  obtain ⟨hplace, halone⟩ := (hplaced ts).2 hts
  obtain ⟨-, hstops⟩ := nothing_but_white_space_is_lost_between_tokens "a['b c]"
  obtain ⟨hcomes, hreported⟩ := hstops ⟨'\'', 2⟩
  exact ⟨hts, hplace, halone ⟨.number, "1.5", 0⟩ (by simp [ts]), hstray, hcomes.mp hstray,
    (hreported hstray).2⟩

end FieldGate
