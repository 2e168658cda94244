-- Where a refusal points: to a point of the expression that is no white space, at which
-- a token starts or which starts none. Points of the second sort come first, and of
-- those the leftmost.
import FieldGate.Proofs.PathGrammar

namespace FieldGate

/-! ## Marks -/

/-- What stands in an expression besides white space: a token, or a point that starts
none. -/
inductive Mark where
  | token (t : Token)
  | stray (s : StrayPoint)

namespace Mark

def position : Mark → Nat
  | token t => t.position
  | stray s => s.position

def head? : Mark → Option Point
  | token t => t.text.head?
  | stray s => some s.point

/-- The mark is a point that starts no token. -/
def IsStray (m : Mark) : Prop := ∃ s, m = stray s

end Mark

/-- No token starts here, whatever its sort. -/
def StartsNone (p : Point) (rest : Text) : Prop :=
  ∀ kind w, TokenText kind w → ¬w <+: p :: rest

/-- A text that starts at a position, and its marks from left to right. Tokens are as
long as they can be; a point that starts none is passed over alone. -/
inductive Scans : Nat → Text → List Mark → Prop
  | nil {position : Nat} : Scans position [] []
  | blank {position : Nat} {p : Point} {rest : Text} {marks : List Mark} : p.isBlank = true →
      Scans (position + 1) rest marks → Scans position (p :: rest) marks
  | token {position : Nat} {kind : TokenKind} {w rest : Text} {marks : List Mark} :
      Longest kind w rest → Scans (position + w.length) rest marks →
      Scans position (w ++ rest) (.token ⟨kind, w, position⟩ :: marks)
  | stray {position : Nat} {p : Point} {rest : Text} {marks : List Mark} : p.isBlank = false →
      StartsNone p rest → Scans (position + 1) rest marks →
      Scans position (p :: rest) (.stray ⟨p, position⟩ :: marks)

/-- The report names this place of the expression wherever it names one: by itself, in
its record and in its wording. -/
structure Report.PointsAt (r : Report) (e : Text) (position : Nat) : Prop where
  code : r.code = .malformedPath
  detail : r.detail = .path (.text e) (.int position)
  metadata : r.circumstances.metadata
    = Value.record [("expression", .text e), ("position", .int position)]
  message : ∃ before after, r.message
    = .text (before ++ ("position " ++ decimal position ++ " in path " ++ e.quoted) ++ after)

/-! ## Scanning -/

/-- The lexer finds a token wherever one starts. -/
theorem tokenAt_of_prefix {kind : TokenKind} {w : Text} {p : Point} {rest : Text}
    (hw : TokenText kind w) (h : w <+: p :: rest) : tokenAt p rest ≠ none := by
  obtain ⟨tail, htail⟩ := h
  cases hw with
  | name hname _ =>
    obtain ⟨rfl, -⟩ := List.cons.inj htail
    simp [tokenAt, hname]
  | number hn =>
    obtain ⟨q, others, rfl, hq⟩ := numeralOf_head hn
    obtain ⟨rfl, -⟩ := List.cons.inj htail
    simp [tokenAt, startsName_of_isDigit hq, hq]
  | @literal q body hq hbody =>
    rw [List.cons_append, List.append_assoc] at htail
    obtain ⟨rfl, rfl⟩ := List.cons.inj htail
    rw [← List.append_assoc, tokenAt_longest (longest_literal tail hq hbody)]
    simp
  | dot | openBracket | closeBracket | comma =>
    obtain ⟨rfl, -⟩ := List.cons.inj htail
    exact Option.some_ne_none _

theorem startsNone_iff {p : Point} {rest : Text} :
    StartsNone p rest ↔ tokenAt p rest = none := by
  constructor
  · intro h
    cases htoken : tokenAt p rest with
    | none => rfl
    | some found =>
      obtain ⟨w, tail, rfl, -, hlongest⟩ := longest_of_tokenAt htoken
      exact absurd (List.prefix_append (p :: w) tail) (h _ _ hlongest.text)
  · exact fun hnone kind w hw hfront => tokenAt_of_prefix hw hfront hnone

theorem tokensFrom_stray {p : Point} {rest : Text} (position : Nat) (hp : p.isBlank = false)
    (h : StartsNone p rest) : tokensFrom position 0 (p :: rest) = .error ⟨p, position⟩ := by
  rw [tokensFrom, if_neg (by simp [hp]), startsNone_iff.mp h]

/-- Every text can be scanned. -/
theorem exists_scan (position : Nat) (t : Text) : ∃ marks, Scans position t marks := by
  induction hlength : t.length using Nat.strong_induction_on generalizing position t with
  | _ n ih =>
    cases t with
    | nil => exact ⟨[], .nil⟩
    | cons p rest =>
      rw [List.length_cons] at hlength
      by_cases hblank : p.isBlank = true
      · obtain ⟨marks, hmarks⟩ := ih rest.length (by omega) (position + 1) rest rfl
        exact ⟨marks, .blank hblank hmarks⟩
      · cases htoken : tokenAt p rest with
        | none =>
          obtain ⟨marks, hmarks⟩ := ih rest.length (by omega) (position + 1) rest rfl
          exact ⟨_, .stray (by simpa using hblank) (startsNone_iff.mpr htoken) hmarks⟩
        | some found =>
          obtain ⟨w, tail, rfl, -, hlongest⟩ := longest_of_tokenAt htoken
          rw [List.length_append] at hlength
          obtain ⟨marks, hmarks⟩ :=
            ih tail.length (by omega) (position + (p :: w).length) tail rfl
          exact ⟨_, .token hlongest hmarks⟩

section Scans

variable {position : Nat} {t : Text} {marks : List Mark}

/-- A mark starts inside the text, with a point that is no white space. -/
theorem Scans.point (h : Scans position t marks) : ∀ m ∈ marks, ∃ i p,
    m.position = position + i ∧ t[i]? = some p ∧ m.head? = some p ∧ p.isBlank = false := by
  induction h with
  | nil => simp
  | blank _ _ ih =>
    intro m hm
    obtain ⟨i, p, hi, hp⟩ := ih m hm
    exact ⟨i + 1, p, by omega, hp⟩
  | @token position kind w rest marks hlongest _ ih =>
    intro m hm
    rcases List.mem_cons.mp hm with rfl | hm
    · obtain ⟨p, tail, rfl, hp⟩ := hlongest.text.head
      exact ⟨0, p, rfl, rfl, rfl, hp⟩
    · obtain ⟨i, p, hi, hp, hrest⟩ := ih m hm
      refine ⟨w.length + i, p, by omega, ?_, hrest⟩
      rw [List.getElem?_append_right (by omega), Nat.add_sub_cancel_left, hp]
  | @stray position p rest marks hp _ _ ih =>
    intro m hm
    rcases List.mem_cons.mp hm with rfl | hm
    · exact ⟨0, p, rfl, rfl, rfl, hp⟩
    · obtain ⟨i, q, hi, hq⟩ := ih m hm
      exact ⟨i + 1, q, by omega, hq⟩

theorem Scans.position_le (h : Scans position t marks) : ∀ m ∈ marks, position ≤ m.position := by
  intro m hm
  obtain ⟨i, -, hi, -⟩ := h.point m hm
  omega

/-- The marks stand one behind the other. -/
theorem Scans.sorted (h : Scans position t marks) :
    marks.Pairwise fun m m' => m.position ≤ m'.position := by
  induction h with
  | nil => exact .nil
  | blank _ _ ih => exact ih
  | token _ hrest ih =>
    refine .cons (fun m hm => ?_) ih
    exact (Nat.le_add_right _ _).trans (hrest.position_le m hm)
  | stray _ _ hrest ih =>
    refine .cons (fun m hm => ?_) ih
    exact (Nat.le_add_right _ _).trans (hrest.position_le m hm)

theorem Scans.blank_of_nil (h : Scans position t []) : ∀ p ∈ t, p.isBlank = true := by
  generalize hmarks : ([] : List Mark) = marks at h
  induction h with
  | nil => simp
  | blank hblank _ ih => exact List.forall_mem_cons.mpr ⟨hblank, ih hmarks⟩
  | token | stray => cases hmarks

/-- The lexer gives the marks when all of them are tokens, and otherwise stops at the
first that is none. -/
theorem tokensFrom_of_scans (h : Scans position t marks) :
    (∃ ts : List Token, tokensFrom position 0 t = .ok ts ∧ marks = ts.map .token)
      ∨ ∃ (ts : List Token) (s : StrayPoint) (after : List Mark), tokensFrom position 0 t = .error s
        ∧ marks = ts.map .token ++ .stray s :: after := by
  induction h with
  | nil => exact .inl ⟨[], rfl, rfl⟩
  | blank hblank _ ih =>
    rw [tokensFrom_blank _ _ hblank]
    exact ih
  | @token position kind w rest marks hlongest _ ih =>
    rw [tokensFrom_token position hlongest]
    rcases ih with ⟨ts, hts, rfl⟩ | ⟨ts, s, after, hts, rfl⟩
    · exact .inl ⟨⟨kind, w, position⟩ :: ts, by rw [hts]; rfl, rfl⟩
    · exact .inr ⟨⟨kind, w, position⟩ :: ts, s, after, by rw [hts]; rfl, rfl⟩
  | @stray position p rest marks hblank hnone _ _ =>
    exact .inr ⟨[], ⟨p, position⟩, marks, tokensFrom_stray position hblank hnone, rfl⟩

/-- What the lexer stops at is the leftmost point that starts no token. -/
theorem Scans.leftmost {ts : List Token} {s : StrayPoint} {after : List Mark}
    (h : Scans position t (ts.map .token ++ .stray s :: after)) {s' : StrayPoint}
    (hs' : .stray s' ∈ ts.map Mark.token ++ .stray s :: after) : s.position ≤ s'.position := by
  rcases List.mem_append.mp hs' with hs' | hs'
  · obtain ⟨t, -, ht⟩ := List.mem_map.mp hs'
    cases ht
  · rcases List.mem_cons.mp hs' with heq | hs'
    · rw [Mark.stray.inj heq]
    · have hsorted := (List.pairwise_append.mp h.sorted).2.1
      exact (List.pairwise_cons.mp hsorted).1 _ hs'

end Scans

/-! ## Errors -/

/-- An error in the order of tokens is at one of them. -/
theorem stepsOf_error_at {ts : List Token} {err : PathError} (hne : ts ≠ [])
    (h : stepsOf ts = .error err) :
    (∃ m, err = .unreadable m) ∨ ∃ fault, ∃ t ∈ ts, err = .grammar fault t.position := by
  have halike (t : Token) (ht : t ∈ ts) : t.Corresponds
      (fun err _ => (∃ m, err = .unreadable m) ∨ ∃ fault, ∃ t ∈ ts, err = .grammar fault t.position)
      t :=
    Token.corresponds_of_lexeme rfl rfl (fun fault => .inr ⟨fault, t, ht, rfl⟩)
      fun m => .inl ⟨m, rfl⟩
  cases ts with
  | nil => exact absurd rfl hne
  | cons t rest =>
    have hrest := List.forall₂_same.mpr fun u hu => halike u (List.mem_cons_of_mem t hu)
    exact (stepsOf_corresponds (halike t (by simp)) hrest).error_of_eq h

/-- An expression that is not blank is refused at one of its marks: at the first that
is no token, if there is one. -/
theorem compile_error_at {e : Text} {marks : List Mark} {err : PathError}
    (hpoint : ∃ p ∈ e, p.isBlank = false) (hscan : Scans 0 e marks)
    (h : Path.compile e = .error err) :
    (∃ m, err = .unreadable m) ∨ ∃ m ∈ marks, err.position? = some m.position
      ∧ ∀ s, .stray s ∈ marks → m.IsStray ∧ m.position ≤ s.position := by
  rcases tokensFrom_of_scans hscan with ⟨ts, hts, rfl⟩ | ⟨ts, s, after, hts, rfl⟩
  · have hne : ts ≠ [] := by
      rintro rfl
      obtain ⟨p, hp, hblank⟩ := hpoint
      rw [hscan.blank_of_nil p hp] at hblank
      cases hblank
    rw [compile_of_tokens hts] at h
    rcases stepsOf_error_at hne (map_eq_error.mp h) with hlong | ⟨fault, t, ht, rfl⟩
    · exact .inl hlong
    · refine .inr ⟨.token t, List.mem_map_of_mem ht, rfl, ?_⟩
      intro s hs
      obtain ⟨u, -, hu⟩ := List.mem_map.mp hs
      cases hu
  · rw [compile_of_stray hts] at h
    obtain rfl := Except.error.inj h
    exact .inr ⟨.stray s, by simp, rfl, fun s' hs' => ⟨⟨s, rfl⟩, hscan.leftmost hs'⟩⟩

theorem pointsAt_of_position {e : Text} {err : PathError} {position : Nat} {r : Report}
    (hposition : err.position? = some position)
    (h : Fault.ofPathError (.text e) e err = .report r) : r.PointsAt e position := by
  cases err with
  | blank | notText _ | unreadable _ => cases hposition
  | stray s =>
    obtain rfl := Option.some.inj hposition
    obtain rfl := Fault.report.inj h
    refine ⟨rfl, rfl, rfl, "Unexpected character " ++ Text.quoted [s.point] ++ " at ", [], ?_⟩
    have hat : (" at position " : Text) = " at " ++ "position " := rfl
    simp only [Report.malformedPath, PathError.message, hat, List.append_assoc, List.append_nil]
  | grammar fault position =>
    obtain rfl := Option.some.inj hposition
    obtain rfl := Fault.report.inj h
    refine ⟨rfl, rfl, rfl, fault.message ++ " (", ")", ?_⟩
    have hopen : (" (position " : Text) = " (" ++ "position " := rfl
    simp only [Report.malformedPath, PathError.message, hopen, List.append_assoc]

/-- Whatever is wrong with an expression that is not blank, its refusal points into it:
at a token or at a point that starts none, and if there are such points, at the
leftmost of them. -/
theorem a_refusal_points_at_a_token_or_at_the_first_stray_point {e : Text} {r : Report}
    (hpoint : ∃ p ∈ e, p.isBlank = false) (h : compilePath (.text e) = .error (.report r)) :
    (∃ marks, Scans 0 e marks) ∧ ∀ marks, Scans 0 e marks →
      ∃ m ∈ marks, ∃ p, r.PointsAt e m.position ∧ e[m.position]? = some p ∧ m.head? = some p
        ∧ p.isBlank = false ∧ ∀ s, .stray s ∈ marks → m.IsStray ∧ m.position ≤ s.position := by
  refine ⟨exists_scan 0 e, ?_⟩
  intro marks hscan
  cases hcompile : Path.compile e with
  | ok path =>
    rw [compilePath, hcompile] at h
    cases h
  | error err =>
    rw [compilePath, hcompile, mapError_error] at h
    have hfault := Except.error.inj h
    rcases compile_error_at hpoint hscan hcompile with ⟨m, rfl⟩ | ⟨m, hm, hposition, hfirst⟩
    · cases hfault
    · obtain ⟨i, p, hi, hp, hhead, hblank⟩ := hscan.point m hm
      rw [Nat.zero_add] at hi
      exact ⟨m, hm, p, pointsAt_of_position hposition hfault, hi ▸ hp, hhead, hblank, hfirst⟩

theorem a_stray_point_is_reported_before_a_second_dot :
    ∃ (r : Report) (m : Mark), compilePath (.text "a..?b") = .error (.report r)
      ∧ r.PointsAt "a..?b" m.position ∧ m.position = 3 ∧ m.head? = some (Point.ofChar '?') := by
  have hcompile : Path.compile "a..?b" = .error (.stray ⟨'?', 3⟩) := by decide +kernel
  have hrefused : compilePath (.text "a..?b")
      = .error (Fault.ofPathError (.text "a..?b") "a..?b" (.stray ⟨'?', 3⟩)) := by
    rw [compilePath, hcompile, mapError_error]
  have hpoint : ∃ p ∈ ("a..?b" : Text), p.isBlank = false :=
    ⟨'a', by decide +kernel, by decide +kernel⟩
  obtain ⟨⟨marks, hscan⟩, hall⟩ :=
    a_refusal_points_at_a_token_or_at_the_first_stray_point hpoint hrefused
  obtain ⟨m, -, p, hat, hp, hhead, -⟩ := hall marks hscan
  have hposition : m.position = 3 := by
    have hdetail := (ReportDetail.path.inj hat.detail).2
    exact Int.ofNat.inj (Value.int.inj hdetail).symm
  rw [hposition] at hp
  obtain rfl := Option.some.inj hp
  exact ⟨_, m, hrefused, hat, hposition, hhead⟩

end FieldGate
