-- The law of glued paths: one path and another behind it, with a dot between them or
-- none, compile to the steps of both, and looking them up composes. Gluing shifts no
-- token, and an access is read from the same tokens as a head.
import FieldGate.Proofs.LongIndices
import FieldGate.Proofs.Walking

namespace FieldGate

/-! ## How an expression starts -/

def StartsWithName (e : Text) : Prop := ∃ name ls, Splits e ((.name, name) :: ls)

/-- The expression starts with brackets around one element, and no comma follows the
element. -/
def StartsWithBracket (e : Text) : Prop :=
  ∃ opener l closer ls, Splits e ((.openBracket, opener) :: l :: (.closeBracket, closer) :: ls)

theorem Splits.head {e : Text} {l : Lexeme} {ls : List Lexeme} (h : Splits e (l :: ls)) :
    ∃ p rest, e = p :: rest ∧ (p.isBlank = true ∨ ∃ w, l.2 = p :: w) := by
  cases h with
  | blank hblank _ => exact ⟨_, _, rfl, .inl hblank⟩
  | token hlongest _ =>
    obtain ⟨p, w, rfl, -⟩ := hlongest.text.head
    exact ⟨p, w ++ _, rfl, .inr ⟨w, rfl⟩⟩

/-- A dot with a name behind it is a seam: no numeral goes on with it. -/
theorem seam_dot {e : Text} (h : StartsWithName e) : Seam ('.' :: e) := by
  obtain ⟨name, ls, hls⟩ := h
  have hdigit : ∀ p ∈ e.head?, p.isDigit = false := by
    obtain ⟨p, rest, rfl, hblank | ⟨w, hw⟩⟩ := hls.head
    · exact (seam_blank rest hblank).digit
    · have htext := hls.text _ List.mem_cons_self
      dsimp only at htext hw
      subst hw
      cases htext with
      | name hname _ =>
        rintro q ⟨⟩
        by_contra hdigit
        rw [startsName_of_isDigit (by simpa using hdigit)] at hname
        cases hname
  have hrun : digitRun e = 0 := congrArg List.length (takeWhile_append_stop [] hdigit)
  refine ⟨?name, ?digit, ?sign, by simp [fractionLength, hrun]⟩
  all_goals
    rintro q ⟨⟩
    decide +kernel

theorem seam_of_startsWithBracket {e : Text} (h : StartsWithBracket e) : Seam e := by
  obtain ⟨opener, l, closer, ls, hls⟩ := h
  obtain ⟨p, rest, rfl, hblank | ⟨w, hw⟩⟩ := hls.head
  · exact seam_blank rest hblank
  · have htext := hls.text _ List.mem_cons_self
    dsimp only at htext hw
    subst hw
    cases htext
    exact seam_mark rest (.inl rfl)

/-! ## Heads as accesses -/

theorem AccessorsOf.append {ls ms : List Lexeme} {steps others : List Step}
    (h : AccessorsOf ls steps) (h' : AccessorsOf ms others) :
    AccessorsOf (ls ++ ms) (steps ++ others) := by
  induction h with
  | nil => exact h'
  | dot _ ih => exact .dot ih
  | bracket hstep _ ih => exact .bracket hstep ih

theorem PathOf.append {ls ms : List Lexeme} {steps others : List Step}
    (h : PathOf ls steps) (h' : AccessorsOf ms others) : PathOf (ls ++ ms) (steps ++ others) := by
  cases h with
  | name haccessors => exact .name (haccessors.append h')
  | bracket hstep haccessors => exact .bracket hstep (haccessors.append h')
  | comma hstep haccessors => exact .comma hstep (haccessors.append h')

/-- A head that is a name is an access, with a dot in front of it. -/
theorem PathOf.accessors_name {name : Text} {ls : List Lexeme} {steps : List Step} (mark : Text)
    (h : PathOf ((.name, name) :: ls) steps) :
    AccessorsOf ((.dot, mark) :: (.name, name) :: ls) steps := by
  cases h with
  | name haccessors => exact .dot haccessors

/-- A head in brackets without a comma is an access as it is. -/
theorem PathOf.accessors_bracket {opener closer : Text} {l : Lexeme} {ls : List Lexeme}
    {steps : List Step}
    (h : PathOf ((.openBracket, opener) :: l :: (.closeBracket, closer) :: ls) steps) :
    AccessorsOf ((.openBracket, opener) :: l :: (.closeBracket, closer) :: ls) steps := by
  cases h with
  | bracket hstep haccessors => exact .bracket hstep haccessors

/-! ## Compiling -/

theorem accessors_not_long {ts : List Token} {steps : List Step} (hts : Lexed ts)
    (h : accessors ts = .ok steps) : ∀ t ∈ ts, ¬IsLongIndex t.lexeme := by
  fun_induction accessors ts generalizing steps with
  | case1 => simp
  | case2 | case4 | case5 | case7 => cases h
  | case3 dot hdot name more hname ih =>
    obtain ⟨rest, hrest, rfl⟩ := map_eq_ok.mp h
    simp only [List.forall_mem_cons, lexeme_of_kind hdot, lexeme_of_kind hname]
    exact ⟨not_long_of_kind (by decide), not_long_of_kind (by decide), ih hts.tail.tail hrest⟩
  | case6 opener hopener element after ih =>
    obtain ⟨step, hstep, h⟩ := bind_eq_ok.mp h
    have helement := ((literalStep_reads_iff (hts element (by simp))).mp hstep).2
    cases after with
    | nil => cases h
    | cons closer more =>
      dsimp only at h ih
      split at h
      · rename_i hcloser
        obtain ⟨rest, hrest, -⟩ := bind_eq_ok.mp h
        simp only [List.forall_mem_cons, lexeme_of_kind hopener, lexeme_of_kind hcloser]
        exact ⟨not_long_of_kind (by decide), helement, not_long_of_kind (by decide),
          ih hts.tail.tail.tail hrest⟩
      · cases h

/-- An expression that compiles holds no long index. -/
theorem stepsOf_not_long {ts : List Token} {steps : List Step} (hts : Lexed ts)
    (h : stepsOf ts = .ok steps) : ∀ t ∈ ts, ¬IsLongIndex t.lexeme := by
  cases ts with
  | nil => cases h
  | cons t rest =>
    rw [stepsOf.eq_def] at h
    dsimp only at h
    split at h
    · rename_i hname
      obtain ⟨others, hothers, -⟩ := map_eq_ok.mp h
      rw [List.forall_mem_cons, lexeme_of_kind hname]
      exact ⟨not_long_of_kind (by decide), accessors_not_long hts.tail hothers⟩
    · rename_i hopener
      obtain ⟨⟨elements, left⟩, hshorthand, h⟩ := bind_eq_ok.mp h
      dsimp only at h
      split at h
      · obtain ⟨others, hothers, -⟩ := bind_eq_ok.mp h
        rw [List.forall_mem_cons, lexeme_of_kind hopener]
        refine ⟨not_long_of_kind (by decide), ?_⟩
        obtain ⟨element, hstep, ⟨closer, hcloser, rfl⟩ | ⟨mark, closer, hmark, hcloser, rfl⟩⟩ :=
          shorthand_one hshorthand
        · have helement := ((literalStep_reads_iff (hts element (by simp))).mp hstep).2
          simp only [List.forall_mem_cons, lexeme_of_kind hcloser]
          exact ⟨helement, not_long_of_kind (by decide),
            accessors_not_long hts.tail.tail.tail hothers⟩
        · have helement := ((literalStep_reads_iff (hts element (by simp))).mp hstep).2
          simp only [List.forall_mem_cons, lexeme_of_kind hcloser, lexeme_of_kind hmark]
          exact ⟨helement, not_long_of_kind (by decide), not_long_of_kind (by decide),
            accessors_not_long hts.tail.tail.tail.tail hothers⟩
      · cases h
    · cases h

/-- What compiles is derived by the grammar, from tokens without a long index. -/
theorem pathOf_of_compilePath {e : Text} {p : Path} (h : compilePath (.text e) = .ok p) :
    ∃ ls, Splits e ls ∧ (∀ l ∈ ls, ¬IsLongIndex l) ∧ PathOf ls p.steps := by
  obtain ⟨ts, hts, hsteps, -⟩ := compile_ok_spec (compilePath_ok_iff.mp h)
  have hlexed := lexed_of_tokens hts
  have hshort := stepsOf_not_long hlexed hsteps
  refine ⟨_, splits_of_tokens hts, List.forall_mem_map.mpr hshort, ?_⟩
  exact pathOf_of_stepsOf (fun t ht => readable_of_not_long (hlexed t ht) (hshort t ht)) hsteps

theorem compilePath_of_pathOf {e : Text} {ls : List Lexeme} {steps : List Step}
    (hls : Splits e ls) (hshort : ∀ l ∈ ls, ¬IsLongIndex l) (h : PathOf ls steps) :
    compilePath (.text e) = .ok ⟨e, steps⟩ := by
  have short : ∀ ms, Splits e ms → ShortIndices ms := by
    intro ms hms l hl vs hkind hds
    obtain rfl := hls.unique hms
    by_contra hlong
    exact hshort l hl ⟨hkind, ⟨vs, hds⟩, Nat.lt_of_not_le hlong⟩
  rw [compilePath_ok_iff]
  rcases compile_spec e short with ⟨ms, others, hok, hms, hothers⟩ | ⟨-, hnone⟩
  · obtain rfl := hls.unique hms
    rw [hok, PathOf.unique short hls hothers h]
  · exact absurd h (hnone ls steps hls)

/-! ## Looking up -/

theorem walk_append (context : Value) (steps others : List Step) :
    context.walk ((steps ++ others).map Step.value)
      = (context.walk (steps.map Step.value) >>= fun v => v.walk (others.map Step.value)) := by
  induction steps generalizing context with
  | nil => simp
  | cons step steps ih =>
    simp only [List.cons_append, List.map_cons, walk_cons, bind_assoc, ih]

/-! ## The law of glued paths -/

/-- The text of one path with that of another behind it: behind a dot when the other
starts with a name, and directly when it starts with a bracket. -/
inductive Glued (e e' : Text) : Text → Prop
  | dot : StartsWithName e' → Glued e e' (e ++ "." ++ e')
  | direct : StartsWithBracket e' → Glued e e' (e ++ e')

/-- The tokens of a glued text are derived by the grammar, and give the steps of both. -/
theorem Glued.compiles {e e' glued : Text} {p q : Path} (h : Glued e e' glued)
    (hp : compilePath (.text e) = .ok p) (hq : compilePath (.text e') = .ok q) :
    compilePath (.text glued) = .ok ⟨glued, p.steps ++ q.steps⟩ := by
  obtain ⟨ls, hls, hshort, hpath⟩ := pathOf_of_compilePath hp
  obtain ⟨ms, hms, hshort', hpath'⟩ := pathOf_of_compilePath hq
  cases h with
  | dot hname =>
    have hseam := seam_dot hname
    obtain ⟨name, rest, hstarts⟩ := hname
    obtain rfl := hms.unique hstarts
    have hdot : Longest .dot ['.'] e' := longest_mark e' .dot (by rintro _ ⟨⟩; rfl)
    have hsplits := Splits.append hseam hls (.token hdot hms)
    rw [List.append_assoc]
    refine compilePath_of_pathOf hsplits ?_ (hpath.append (hpath'.accessors_name _))
    rw [List.forall_mem_append, List.forall_mem_cons]
    exact ⟨hshort, not_long_of_kind (by decide), hshort'⟩
  | direct hbracket =>
    have hsplits := Splits.append (seam_of_startsWithBracket hbracket) hls hms
    obtain ⟨opener, l, closer, rest, hstarts⟩ := hbracket
    obtain rfl := hms.unique hstarts
    refine compilePath_of_pathOf hsplits ?_ (hpath.append hpath'.accessors_bracket)
    rw [List.forall_mem_append]
    exact ⟨hshort, hshort'⟩

/-- Two paths can be glued: by a dot when the second starts with a name, and directly
when it starts with one element in brackets. The whole compiles, its steps are those of
the first and then those of the second, and in every context it finds what the second
finds in what the first has found there: nothing as soon as the first finds nothing. -/
theorem gluing_two_paths_composes_their_lookups {e e' glued : Text} {p q : Path}
    (hp : compilePath (.text e) = .ok p) (hq : compilePath (.text e') = .ok q)
    (hglued : Glued e e' glued) :
    ∃ r, compilePath (.text glued) = .ok r ∧ r.steps = p.steps ++ q.steps
      ∧ ∀ context, r.resolve context = (p.resolve context >>= fun v => q.resolve v)
        ∧ (p.resolve context = .ok .null → r.resolve context = .ok .null) := by
  refine ⟨_, hglued.compiles hp hq, rfl, fun context => ?_⟩
  have hcomposes : Path.resolve ⟨glued, p.steps ++ q.steps⟩ context
      = (p.resolve context >>= fun v => q.resolve v) := walk_append context p.steps q.steps
  refine ⟨hcomposes, fun hnull => ?_⟩
  rw [hcomposes, hnull, ok_bind]
  exact walk_null _

/-- A caller with one role, which has a name. -/
def callerWithRole : Value :=
  .record [("user", .record [("roles", .list [.record [("name", .text "admin")]])])]

theorem the_name_of_a_role_is_looked_up_in_two_parts :
    Glued "user.roles" " [0].name" "user.roles [0].name"
      ∧ ∃ r, compilePath (.text "user.roles [0].name") = .ok r
        ∧ r.steps = [.name "user", .name "roles", .index 0, .name "name"]
        ∧ r.resolve callerWithRole = .ok (.text "admin") := by
  have hp : compilePath (.text "user.roles")
      = .ok ⟨"user.roles", [.name "user", .name "roles"]⟩ :=
    compilePath_ok_iff.mpr (by decide +kernel)
  have hq : compilePath (.text " [0].name") = .ok ⟨" [0].name", [.index 0, .name "name"]⟩ :=
    compilePath_ok_iff.mpr (by decide +kernel)
  have htokens : tokens " [0].name" = .ok [⟨.openBracket, "[", 1⟩, ⟨.number, "0", 2⟩,
      ⟨.closeBracket, "]", 3⟩, ⟨.dot, ".", 4⟩, ⟨.name, "name", 5⟩] := by decide +kernel
  have hglued : Glued "user.roles" " [0].name" "user.roles [0].name" :=
    .direct ⟨_, _, _, _, splits_of_tokens htokens⟩
  obtain ⟨r, hr, hsteps, hresolve⟩ := gluing_two_paths_composes_their_lookups hp hq hglued
  exact ⟨hglued, r, hr, hsteps, (hresolve callerWithRole).1⟩

end FieldGate
