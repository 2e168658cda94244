-- Two runs of the compiler on tokens that correspond end alike. It reads the sorts
-- and the texts of tokens, and literals inside brackets; a position it only reports.
import FieldGate.Path
import FieldGate.Proofs.Outcomes
import Mathlib.Data.List.Forall2

namespace FieldGate

/-! ## Ends that are alike -/

section EndAlike

variable {E : PathError → PathError → Prop} {α β α' β' : Type}

/-- Both runs end with values that are related, or both with errors that are. -/
inductive EndAlike (E : PathError → PathError → Prop) (V : α → β → Prop) :
    Except PathError α → Except PathError β → Prop
  | ok {a : α} {b : β} : V a b → EndAlike E V (.ok a) (.ok b)
  | error {e f : PathError} : E e f → EndAlike E V (.error e) (.error f)

theorem EndAlike.bind {V : α → β → Prop} {W : α' → β' → Prop} {x : Except PathError α}
    {y : Except PathError β} {f : α → Except PathError α'} {g : β → Except PathError β'}
    (h : EndAlike E V x y) (hnext : ∀ a b, V a b → EndAlike E W (f a) (g b)) :
    EndAlike E W (x >>= f) (y >>= g) := by
  cases h with
  | ok hvalues => exact hnext _ _ hvalues
  | error herrors => exact .error herrors

theorem EndAlike.map {x y : Except PathError α} (f : α → β) (h : EndAlike E Eq x y) :
    EndAlike E Eq (x.map f) (y.map f) := by
  cases h with
  | ok hvalues => exact .ok (congrArg f hvalues)
  | error herrors => exact .error herrors

theorem EndAlike.imp {E' : PathError → PathError → Prop} {V : α → β → Prop}
    {x : Except PathError α} {y : Except PathError β} (h : EndAlike E V x y)
    (himp : ∀ e f, x = .error e → E e f → E' e f) : EndAlike E' V x y := by
  cases h with
  | ok hvalues => exact .ok hvalues
  | error herrors => exact .error (himp _ _ rfl herrors)

/-- The ends of one run with itself say what its errors are. -/
theorem EndAlike.error_of_eq {V : α → α → Prop} {x : Except PathError α} {e : PathError}
    (h : EndAlike E V x x) (he : x = .error e) : E e e := by
  subst he
  cases h with
  | error herrors => exact herrors

end EndAlike

/-! ## Tokens that correspond -/

section Corresponds

variable {E : PathError → PathError → Prop}

/-- Tokens of one sort and one text, at which faults are related, and which end alike
when they are read inside brackets. -/
structure Token.Corresponds (E : PathError → PathError → Prop) (t u : Token) : Prop where
  kind : t.kind = u.kind
  text : t.text = u.text
  fault : ∀ fault, E (.grammar fault t.position) (.grammar fault u.position)
  literal : EndAlike E Eq (literalStep t) (literalStep u)

theorem Token.Corresponds.faultAt {t u : Token} {α β : Type} {V : α → β → Prop}
    (h : t.Corresponds E u) {fault fault' : GrammarFault} (heq : fault = fault') :
    EndAlike E V (FieldGate.faultAt t fault) (FieldGate.faultAt u fault') := by
  subst heq
  exact .error (h.fault fault)

/-- Tokens of one sort and one text end alike, however long their digits are. -/
theorem Token.corresponds_of_lexeme {t u : Token} (hkind : t.kind = u.kind)
    (htext : t.text = u.text)
    (hfault : ∀ fault, E (.grammar fault t.position) (.grammar fault u.position))
    (hlong : ∀ m, E (.unreadable m) (.unreadable m)) : t.Corresponds E u := by
  refine ⟨hkind, htext, hfault, ?_⟩
  unfold literalStep indexStep
  rw [hkind, htext]
  split
  · split
    · exact .ok rfl
    · exact .error (hfault _)
  · split
    · rename_i digits _
      cases integerOfDigits digits with
      | ok n => exact .ok rfl
      | error m => exact .error (hlong m)
    · split
      · split
        · exact .ok rfl
        · exact .error (hfault _)
      · exact .error (hfault _)
  · exact .error (hfault _)

variable {ts us : List Token}

theorem startsClosed_corresponds (h : List.Forall₂ (Token.Corresponds E) ts us) :
    startsClosed ts = startsClosed us := by
  cases h with
  | nil => rfl
  | cons htoken _ => simp [startsClosed, htoken.kind]

/-! ## The runs of the compiler -/

/-- The accesses after the first end alike. -/
theorem accessors_corresponds (h : List.Forall₂ (Token.Corresponds E) ts us) :
    EndAlike E Eq (accessors ts) (accessors us) := by
  fun_induction accessors ts generalizing us with
  | case1 =>
    cases h
    exact .ok rfl
  | case2 dot hdot =>
    obtain ⟨u, _, hu, ⟨⟩, rfl⟩ := List.forall₂_cons_left_iff.mp h
    rw [accessors.eq_def]
    simp only [← hu.kind, hdot]
    exact hu.faultAt rfl
  | case3 dot hdot name more hname ih =>
    obtain ⟨u, _, hu, htail, rfl⟩ := List.forall₂_cons_left_iff.mp h
    obtain ⟨v, vs, hv, hmore, rfl⟩ := List.forall₂_cons_left_iff.mp htail
    rw [accessors.eq_def (u :: v :: vs), hv.text]
    simp only [← hu.kind, hdot, ← hv.kind, hname, if_true]
    exact (ih hmore).map _
  | case4 dot hdot name more hname =>
    obtain ⟨u, _, hu, htail, rfl⟩ := List.forall₂_cons_left_iff.mp h
    obtain ⟨v, vs, hv, _, rfl⟩ := List.forall₂_cons_left_iff.mp htail
    rw [accessors.eq_def]
    simp only [← hu.kind, hdot, ← hv.kind, if_neg hname]
    exact hv.faultAt rfl
  | case5 opener hopener =>
    obtain ⟨u, _, hu, ⟨⟩, rfl⟩ := List.forall₂_cons_left_iff.mp h
    rw [accessors.eq_def]
    simp only [← hu.kind, hopener]
    exact hu.faultAt rfl
  | case6 opener hopener element after ih =>
    obtain ⟨u, _, hu, htail, rfl⟩ := List.forall₂_cons_left_iff.mp h
    obtain ⟨v, vs, hv, hafter, rfl⟩ := List.forall₂_cons_left_iff.mp htail
    rw [accessors.eq_def (u :: v :: vs)]
    simp only [← hu.kind, hopener]
    refine hv.literal.bind ?_
    rintro step _ rfl
    cases hafter with
    | nil => exact hu.faultAt rfl
    | @cons closer w more ws hclosers hmore =>
      dsimp only at ih ⊢
      rw [← hclosers.kind]
      split
      · refine (ih hmore).bind ?_
        rintro steps _ rfl
        exact .ok rfl
      · exact hclosers.faultAt rfl
  | case7 t rest hdot hopener =>
    obtain ⟨u, _, hu, _, rfl⟩ := List.forall₂_cons_left_iff.mp h
    rw [accessors.eq_def]
    dsimp only
    rw [← hu.kind]
    split
    · exact absurd ‹_› hdot
    · exact absurd ‹_› hopener
    · exact hu.faultAt (by rw [hu.text])

/-- Elements that end alike: the same steps, and tokens left over that correspond. -/
def LeftAlike (E : PathError → PathError → Prop) (a b : List Step × List Token) : Prop :=
  a.1 = b.1 ∧ List.Forall₂ (Token.Corresponds E) a.2 b.2

theorem shorthandElements_corresponds {opener opener' : Token}
    (hopener : opener.Corresponds E opener') (h : List.Forall₂ (Token.Corresponds E) ts us) :
    EndAlike E (LeftAlike E) (shorthandElements opener ts) (shorthandElements opener' us) := by
  fun_induction shorthandElements opener ts generalizing us with
  | case1 =>
    cases h
    exact hopener.faultAt rfl
  | case2 element rest ih =>
    obtain ⟨u, us, hu, hrest, rfl⟩ := List.forall₂_cons_left_iff.mp h
    rw [shorthandElements.eq_def opener' (u :: us)]
    refine hu.literal.bind ?_
    rintro step _ rfl
    cases hrest with
    | nil => exact hopener.faultAt rfl
    | @cons mark v more vs hmark hmore =>
      dsimp only at ih ⊢
      rw [← hmark.kind, ← startsClosed_corresponds hmore]
      split_ifs
      · exact .ok ⟨rfl, hmore⟩
      · refine .ok ⟨rfl, ?_⟩
        cases hmore with
        | nil => exact .nil
        | cons _ htail => exact htail
      · refine (ih hmore).bind ?_
        rintro ⟨steps, left⟩ ⟨_, left'⟩ ⟨rfl, hleft⟩
        exact .ok ⟨rfl, hleft⟩
      · exact hmark.faultAt (by rw [hmark.text])

theorem shorthand_corresponds {opener opener' : Token}
    (hopener : opener.Corresponds E opener') (h : List.Forall₂ (Token.Corresponds E) ts us) :
    EndAlike E (LeftAlike E) (shorthand opener ts) (shorthand opener' us) := by
  unfold shorthand
  rw [← startsClosed_corresponds h]
  split_ifs
  · refine .ok ⟨rfl, ?_⟩
    cases h with
    | nil => exact .nil
    | cons _ htail => exact htail
  · exact shorthandElements_corresponds hopener h

/-- The compiler ends alike on tokens that correspond, of which there is at least one. -/
theorem stepsOf_corresponds {t u : Token} (ht : t.Corresponds E u)
    (h : List.Forall₂ (Token.Corresponds E) ts us) :
    EndAlike E Eq (stepsOf (t :: ts)) (stepsOf (u :: us)) := by
  rw [stepsOf.eq_def, stepsOf.eq_def]
  dsimp only
  rw [← ht.kind]
  split
  · rw [ht.text]
    exact (accessors_corresponds h).map _
  · refine (shorthand_corresponds ht h).bind ?_
    rintro ⟨steps, left⟩ ⟨_, left'⟩ ⟨rfl, hleft⟩
    dsimp only
    split
    · refine (accessors_corresponds hleft).bind ?_
      rintro others _ rfl
      exact .ok rfl
    · exact ht.faultAt rfl
  · exact ht.faultAt (by rw [ht.text])

end Corresponds

end FieldGate
