-- The law of insertion order: values that differ only in the order in which the entries of
-- their maps were put in are shown alike, at any depth, and a tuple is shown like a list. So
-- the reason of a denial says nothing of that order.
import FieldGate.Check
import FieldGate.Proofs.SortedRows
import FieldGate.Proofs.WrittenIndices

namespace FieldGate

/-! ## The same data -/

/-- The value is a list or a tuple, and these are its items. -/
inductive Value.IsRow : Value → List Value → Prop
  | list (items : List Value) : IsRow (.list items) items
  | tuple (items : List Value) : IsRow (.tuple items) items

/-- The two values are the same data: a row of the one has the items of the other in order,
be they lists or tuples, and a map of the one has the keys and the values of the other in
any order. Every key is a text, and no map has a key twice. -/
inductive Value.SameData : Value → Value → Prop
  | null : SameData .null .null
  | bool (b : Bool) : SameData (.bool b) (.bool b)
  | int (n : Int) : SameData (.int n) (.int n)
  | float (d : Double) : SameData (.float d) (.float d)
  | text (t : Text) : SameData (.text t) (.text t)
  | row {v w : Value} {items others : List Value} : v.IsRow items → w.IsRow others →
      items.length = others.length → (∀ pair ∈ items.zip others, SameData pair.1 pair.2) →
      SameData v w
  | map {fields others : List (Text × Value)} : (fields.map Prod.fst).Nodup →
      (fields.map Prod.fst).Perm (others.map Prod.fst) →
      (∀ name v w, (name, v) ∈ fields → (name, w) ∈ others → SameData v w) →
      SameData (.record fields) (.record others)

/-! ## Entries in the order of their names -/

/-- An entry of an object whose key is a text: the key, and the JSON of its value. -/
def namedEntry (e : Text × Text) : JsonEntry := (.text e.1, e.2)

/-- Each name sorts strictly before those that follow. -/
def Ascending (row : List (Text × Text)) : Prop := row.Pairwise fun e f => e.1 < f.1

theorem before_namedEntry (e f : Text × Text) :
    (namedEntry e).1.before (namedEntry f).1 = true ↔ e.1 < f.1 := by
  simp [namedEntry, JsonKey.before]

/-- An entry with a new name goes to the one place that keeps the names in order. -/
theorem insertByKey_ascending {e : Text × Text} {row : List (Text × Text)} (hrow : Ascending row)
    (hnew : e.1 ∉ row.map Prod.fst) :
    ∃ longer, insertByKey (namedEntry e) (row.map namedEntry) = longer.map namedEntry
      ∧ Ascending longer ∧ longer.Perm (e :: row) := by
  induction row with
  | nil => exact ⟨[e], rfl, List.pairwise_singleton _ _, .refl _⟩
  | cons f rest ih =>
    obtain ⟨hfirst, hrest⟩ := List.pairwise_cons.mp hrow
    simp only [List.map_cons, List.mem_cons, not_or] at hnew
    rw [List.map_cons, insertByKey]
    by_cases hlt : e.1 < f.1
    · rw [if_pos ((before_namedEntry e f).mpr hlt)]
      refine ⟨e :: f :: rest, rfl, List.pairwise_cons.mpr ⟨?_, hrow⟩, .refl _⟩
      intro g hg
      rcases List.mem_cons.mp hg with rfl | hg
      · exact hlt
      · exact hlt.trans (hfirst g hg)
    · have hgt : f.1 < e.1 := lt_of_le_of_ne (not_lt.mp hlt) (Ne.symm hnew.1)
      obtain ⟨longer, hinsert, hlonger, hperm⟩ := ih hrest hnew.2
      rw [if_neg (mt (before_namedEntry e f).mp hlt), hinsert]
      refine ⟨f :: longer, rfl, List.pairwise_cons.mpr ⟨?_, hlonger⟩, ?_⟩
      · intro g hg
        rcases List.mem_cons.mp (hperm.mem_iff.mp hg) with rfl | hg
        · exact hgt
        · exact hfirst g hg
      · exact (hperm.cons f).trans (.swap e f rest)

/-- Entries that are put in one after another stand in order with those that were there. -/
theorem foldl_insertByKey_ascending {row es : List (Text × Text)} (hrow : Ascending row)
    (hnodup : ((es ++ row).map Prod.fst).Nodup) :
    ∃ sorted, (es.map namedEntry).foldl (fun sorted e => insertByKey e sorted) (row.map namedEntry)
        = sorted.map namedEntry
      ∧ Ascending sorted ∧ sorted.Perm (es ++ row) := by
  induction es generalizing row with
  | nil => exact ⟨row, rfl, hrow, .refl _⟩
  | cons e es ih =>
    have hnew : e.1 ∉ row.map Prod.fst := by
      rw [List.cons_append, List.map_cons, List.nodup_cons, List.map_append] at hnodup
      exact fun hmem => hnodup.1 (List.mem_append_right _ hmem)
    obtain ⟨longer, hinsert, hlonger, hperm⟩ := insertByKey_ascending hrow hnew
    have hmoved : (es ++ longer).Perm (e :: es ++ row) :=
      (hperm.append_left es).trans List.perm_middle
    obtain ⟨sorted, hfold, hsorted, hall⟩ :=
      ih hlonger ((hmoved.map Prod.fst).nodup_iff.mpr hnodup)
    refine ⟨sorted, ?_, hsorted, hall.trans hmoved⟩
    rw [List.map_cons, List.foldl_cons, hinsert, hfold]

theorem sortByKey_ascending {es : List (Text × Text)} (hnodup : (es.map Prod.fst).Nodup) :
    ∃ sorted, sortByKey (es.map namedEntry) = sorted.map namedEntry ∧ Ascending sorted
      ∧ sorted.Perm es := by
  have hplaced : (es.map namedEntry).any (·.1.isUnplaced) = false := by
    simp [namedEntry, JsonKey.isUnplaced]
  have hempty : Ascending [] := List.Pairwise.nil
  rw [← List.append_nil es] at hnodup
  obtain ⟨sorted, hfold, hsorted, hperm⟩ := foldl_insertByKey_ascending hempty hnodup
  rw [List.append_nil] at hperm
  refine ⟨sorted, ?_, hsorted, hperm⟩
  unfold sortByKey
  rw [hplaced]
  exact hfold

/-- The names in order are the same, whatever the order is in which the entries came. -/
theorem sortByKey_eq_of_perm {es fs : List (Text × Text)} (hnodup : (es.map Prod.fst).Nodup)
    (h : es.Perm fs) : sortByKey (es.map namedEntry) = sortByKey (fs.map namedEntry) := by
  obtain ⟨row, hes, hrow, hperm⟩ := sortByKey_ascending hnodup
  obtain ⟨row', hfs, hrow', hperm'⟩ :=
    sortByKey_ascending ((h.map Prod.fst).nodup_iff.mp hnodup)
  have hrows : row.Perm row' := hperm.trans (h.trans hperm'.symm)
  have heq : row = row' := by
    apply List.Perm.eq_of_pairwise _ hrow hrow' hrows
    intro e f _ _ hef hfe
    exact absurd hfe (lt_asymm hef)
  rw [hes, hfs, heq]

/-! ## The JSON of an object -/

def writtenField (f : Text × Value) : Text × Text := (f.1, f.2.json?.getD [])

theorem names_writtenField (fields : List (Text × Value)) :
    (fields.map writtenField).map Prod.fst = fields.map Prod.fst := by
  rw [List.map_map]
  rfl

theorem sortable_names (es : List (Text × Text)) :
    JsonKey.sortable ((es.map namedEntry).map (·.1)) = true := by
  cases es with
  | nil => rfl
  | cons e rest =>
    cases rest with
    | nil => rfl
    | cons f rest => simp [JsonKey.sortable, namedEntry, JsonKey.comparable]

theorem jsonEntries?_fields {fields : List (Text × Value)}
    (h : ∀ f ∈ fields, f.2.json?.isSome = true) :
    Value.jsonEntries? (fields.map fun f => (.text f.1, f.2))
      = some ((fields.map writtenField).map namedEntry) := by
  induction fields with
  | nil => rfl
  | cons f rest ih =>
    rw [List.forall_mem_cons] at h
    obtain ⟨t, ht⟩ := Option.isSome_iff_exists.mp h.1
    simp only [List.map_cons, Value.jsonEntries?, JsonKey.ofValue?, ht, ih h.2, writtenField]
    rfl

theorem jsonEntries?_none {fields : List (Text × Value)} {f : Text × Value} (hf : f ∈ fields)
    (h : f.2.json? = none) :
    Value.jsonEntries? (fields.map fun f => (.text f.1, f.2)) = none := by
  induction fields with
  | nil => cases hf
  | cons g rest ih =>
    rw [List.map_cons, Value.jsonEntries?]
    rcases List.mem_cons.mp hf with rfl | hf
    · simp [JsonKey.ofValue?, h]
    · rw [ih hf]
      cases g.2.json? <;> rfl

/-- An object is its fields in the order of their names. -/
theorem json?_record {fields : List (Text × Value)} (h : ∀ f ∈ fields, f.2.json?.isSome = true) :
    (Value.record fields).json? = some (Value.bracketed "\x7b"
      ((sortByKey ((fields.map writtenField).map namedEntry)).map jsonEntry) "\x7d") := by
  have hentries := jsonEntries?_fields h
  simp only [Value.record, Value.json?, hentries, Option.bind_eq_bind, Option.bind_some]
  rw [if_pos (sortable_names _)]
  rfl

theorem json?_record_none {fields : List (Text × Value)} {f : Text × Value} (hf : f ∈ fields)
    (h : f.2.json? = none) : (Value.record fields).json? = none := by
  have hentries := jsonEntries?_none hf h
  simp only [Value.record, Value.json?, hentries]
  rfl

/-! ## Objects with the same names -/

section SameNames

variable {fields others : List (Text × Value)}

/-- A name of the one list has a value in the other. -/
theorem exists_partner (hnames : (fields.map Prod.fst).Perm (others.map Prod.fst))
    {f : Text × Value} (hf : f ∈ fields) : ∃ w, (f.1, w) ∈ others := by
  have hname : f.1 ∈ others.map Prod.fst :=
    hnames.mem_iff.mp (List.mem_map_of_mem hf)
  simpa using hname

theorem writtenField_subset (hnames : (fields.map Prod.fst).Perm (others.map Prod.fst))
    (heq : ∀ name v w, (name, v) ∈ fields → (name, w) ∈ others → v.json? = w.json?) :
    fields.map writtenField ⊆ others.map writtenField := by
  intro e he
  obtain ⟨f, hf, rfl⟩ := List.mem_map.mp he
  obtain ⟨w, hw⟩ := exists_partner hnames hf
  refine List.mem_map.mpr ⟨(f.1, w), hw, ?_⟩
  rw [writtenField, writtenField, heq f.1 f.2 w hf hw]

theorem writtenField_perm (hnodup : (fields.map Prod.fst).Nodup)
    (hnames : (fields.map Prod.fst).Perm (others.map Prod.fst))
    (heq : ∀ name v w, (name, v) ∈ fields → (name, w) ∈ others → v.json? = w.json?) :
    (fields.map writtenField).Perm (others.map writtenField) := by
  have hfields : ((fields.map writtenField).map Prod.fst).Nodup := by
    rwa [names_writtenField]
  have hothers : ((others.map writtenField).map Prod.fst).Nodup := by
    rw [names_writtenField]
    exact hnames.nodup_iff.mp hnodup
  rw [List.perm_ext_iff_of_nodup (.of_map _ hfields) (.of_map _ hothers)]
  intro e
  constructor
  · exact fun he => writtenField_subset hnames heq he
  · apply writtenField_subset hnames.symm
    exact fun name w v hw hv => (heq name v w hv hw).symm

/-- Objects with the same names, and with the same JSON under each, have the same JSON. -/
theorem json?_record_congr (hnodup : (fields.map Prod.fst).Nodup)
    (hnames : (fields.map Prod.fst).Perm (others.map Prod.fst))
    (heq : ∀ name v w, (name, v) ∈ fields → (name, w) ∈ others → v.json? = w.json?) :
    (Value.record fields).json? = (Value.record others).json? := by
  by_cases hall : ∀ f ∈ fields, f.2.json?.isSome = true
  · have hall' : ∀ g ∈ others, g.2.json?.isSome = true := by
      intro g hg
      obtain ⟨v, hv⟩ := exists_partner hnames.symm hg
      rw [← heq g.1 v g.2 hv hg]
      exact hall (g.1, v) hv
    have hwritten : ((fields.map writtenField).map Prod.fst).Nodup := by
      rwa [names_writtenField]
    rw [json?_record hall, json?_record hall',
      sortByKey_eq_of_perm hwritten (writtenField_perm hnodup hnames heq)]
  · simp only [not_forall] at hall
    obtain ⟨f, hf, hnone⟩ := hall
    rw [Option.not_isSome_iff_eq_none] at hnone
    obtain ⟨w, hw⟩ := exists_partner hnames hf
    have hnone' : w.json? = none := by rw [← heq f.1 f.2 w hf hw, hnone]
    rw [json?_record_none hf hnone, json?_record_none hw hnone']

end SameNames

/-! ## The JSON of the same data -/

theorem Value.IsRow.json? {v : Value} {items : List Value} (h : v.IsRow items) :
    v.json? = (jsonItems? items).map fun parts => bracketed "[" parts "]" := by
  cases h <;> rfl

theorem jsonItems?_congr {items others : List Value} (hlength : items.length = others.length)
    (h : ∀ pair ∈ items.zip others, pair.1.json? = pair.2.json?) :
    Value.jsonItems? items = Value.jsonItems? others := by
  induction items generalizing others with
  | nil =>
    rw [List.eq_nil_of_length_eq_zero hlength.symm]
  | cons v items ih =>
    cases others with
    | nil => cases hlength
    | cons w others =>
      simp only [List.length_cons, Nat.add_right_cancel_iff] at hlength
      rw [List.zip_cons_cons, List.forall_mem_cons] at h
      rw [Value.jsonItems?, Value.jsonItems?, h.1, ih hlength h.2]

/-- The same data has the same JSON, or none. -/
theorem Value.SameData.json?_eq {v w : Value} (h : v.SameData w) : v.json? = w.json? := by
  induction h with
  | null | bool | int | float | text => rfl
  | row hv hw hlength _ ih => rw [hv.json?, hw.json?, jsonItems?_congr hlength ih]
  | map hnodup hnames _ ih => exact json?_record_congr hnodup hnames ih

/-! ## Data without JSON -/

theorem Value.IsRow.isJson {v : Value} {items : List Value} (h : v.IsRow items)
    (hitems : ∀ item ∈ items, item.IsJson) : v.IsJson := by
  cases h with
  | list => exact .list hitems
  | tuple => exact .tuple hitems

theorem Value.IsJson.record {fields : List (Text × Value)} (h : ∀ f ∈ fields, f.2.IsJson) :
    (Value.record fields).IsJson := by
  refine .map ?_ ?_
  · intro e he
    obtain ⟨f, -, rfl⟩ := List.mem_map.mp he
    exact ⟨f.1, rfl⟩
  · intro e he
    obtain ⟨f, hf, rfl⟩ := List.mem_map.mp he
    exact h f hf

theorem Value.SameData.isJson {v w : Value} (h : v.SameData w) : v.IsJson ∧ w.IsJson := by
  induction h with
  | null => exact ⟨.null, .null⟩
  | bool b => exact ⟨.bool b, .bool b⟩
  | int n => exact ⟨.int n, .int n⟩
  | float d => exact ⟨.float d, .float d⟩
  | text t => exact ⟨.text t, .text t⟩
  | @row v w items others hv hw hlength _ ih =>
    refine ⟨hv.isJson ?_, hw.isJson ?_⟩
    · intro item hitem
      rw [← List.map_fst_zip hlength.le] at hitem
      obtain ⟨pair, hpair, rfl⟩ := List.mem_map.mp hitem
      exact (ih pair hpair).1
    · intro item hitem
      rw [← List.map_snd_zip hlength.ge] at hitem
      obtain ⟨pair, hpair, rfl⟩ := List.mem_map.mp hitem
      exact (ih pair hpair).2
  | map _ hnames _ ih =>
    refine ⟨.record ?_, .record ?_⟩
    · intro f hf
      obtain ⟨w, hw⟩ := exists_partner hnames hf
      exact (ih f.1 f.2 w hf hw).1
    · intro g hg
      obtain ⟨v, hv⟩ := exists_partner hnames.symm hg
      exact (ih g.1 v g.2 hv hg).2

theorem jsonItems?_eq_none {items : List Value} (h : Value.jsonItems? items = none) :
    ∃ v ∈ items, v.json? = none := by
  induction items with
  | nil => cases h
  | cons v rest ih =>
    cases hv : v.json? with
    | none => exact ⟨v, by simp, hv⟩
    | some t =>
      have hrest : Value.jsonItems? rest = none := by
        rw [Value.jsonItems?, hv] at h
        cases hrest : Value.jsonItems? rest with
        | none => rfl
        | some parts => simp [hrest] at h
      obtain ⟨w, hw, hnone⟩ := ih hrest
      exact ⟨w, List.mem_cons_of_mem v hw, hnone⟩

/-- A map whose keys are texts is the record of its fields. -/
theorem exists_record {entries : List (Value × Value)} (h : ∀ e ∈ entries, ∃ t, e.1 = .text t) :
    ∃ fields, Value.map entries = .record fields := by
  induction entries with
  | nil => exact ⟨[], rfl⟩
  | cons e rest ih =>
    rw [List.forall_mem_cons] at h
    obtain ⟨key, v⟩ := e
    obtain ⟨name, rfl⟩ := h.1
    obtain ⟨fields, hfields⟩ := ih h.2
    refine ⟨(name, v) :: fields, ?_⟩
    rw [Value.map.inj hfields]
    rfl

/-- Data without JSON holds an integer that is too long to be written out. -/
theorem Value.IsJson.exists_tooLong {v : Value} (h : v.IsJson) (hnone : v.json? = none) :
    ∃ n ∈ v.quotedIntegers, IsTooLong n := by
  have hitems {items : List Value}
      (ih : ∀ v ∈ items, v.json? = none → ∃ n ∈ v.quotedIntegers, IsTooLong n)
      (hnone : jsonItems? items = none) : ∃ n ∈ itemIntegers items, IsTooLong n := by
    obtain ⟨v, hv, hnone⟩ := jsonItems?_eq_none hnone
    obtain ⟨n, hn, hlong⟩ := ih v hv hnone
    exact ⟨n, mem_itemIntegers.mpr ⟨v, hv, hn⟩, hlong⟩
  induction h with
  | null | bool | float | text => cases hnone
  | int n =>
    rcases writesOut_integerText n with ⟨⟨t, ht⟩, -⟩ | ⟨-, hlong⟩
    · rw [Value.json?, ht] at hnone
      cases hnone
    · exact hlong
  | list _ ih | tuple _ ih => exact hitems ih (Option.map_eq_none_iff.mp hnone)
  | map hkeys _ ih =>
    obtain ⟨fields, hfields⟩ := exists_record hkeys
    obtain rfl := Value.map.inj hfields
    have hsome : ¬∀ f ∈ fields, f.2.json?.isSome = true := by
      intro hall
      rw [hfields, json?_record hall] at hnone
      cases hnone
    simp only [not_forall] at hsome
    obtain ⟨f, hf, hf_none⟩ := hsome
    rw [Option.not_isSome_iff_eq_none] at hf_none
    have he : (Value.text f.1, f.2) ∈ fields.map fun f => (Value.text f.1, f.2) :=
      List.mem_map_of_mem hf
    obtain ⟨n, hn, hlong⟩ := ih _ he hf_none
    exact ⟨n, mem_entryIntegers.mpr ⟨_, he, .inr hn⟩, hlong⟩

/-- Data is shown as its JSON, and where it has none it is not shown. -/
theorem Value.IsJson.rendered_eq {v : Value} (h : v.IsJson) :
    v.rendered = match v.json? with
      | some t => .ok t
      | none => .error .integerTooLong := by
  unfold rendered
  cases hjson : v.json? with
  | some t => rfl
  | none =>
    obtain ⟨n, hn, hlong⟩ := h.exists_tooLong hjson
    rcases writesOut_quoted v with ⟨-, hshort⟩ | ⟨herror, -⟩
    · exact absurd hlong (hshort n hn)
    · exact herror

/-! ## Reasons -/

/-- The same data is shown by the same text, or by none, and so the reason of a failed check
is the same: neither says in which order the entries of maps were put in, nor whether a row
is a tuple or a list. -/
theorem a_reason_does_not_show_insertion_order {v w : Value} (h : v.SameData w) :
    v.rendered = w.rendered
      ∧ ∀ check kind, (Failure.mk check kind v).describe = (Failure.mk check kind w).describe := by
  have hrendered : v.rendered = w.rendered := by
    rw [h.isJson.1.rendered_eq, h.isJson.2.rendered_eq, h.json?_eq]
  refine ⟨hrendered, ?_⟩
  intro check kind
  unfold Failure.describe
  rw [hrendered]

/-- A user with the cities of an address in a list, the name first. -/
def userNameFirst : Value :=
  .record [("name", .text "ada"),
    ("address", .record [("zip", .null), ("cities", .list [.text "bath", .int 7])])]

def userNameLast : Value :=
  .record [("address", .record [("cities", .tuple [.text "bath", .int 7]), ("zip", .null)]),
    ("name", .text "ada")]

/-- Two fields may change places. -/
theorem Value.SameData.swap {a b : Text} {v v' w w' : Value} (hab : a ≠ b) (hv : v.SameData v')
    (hw : w.SameData w') : (record [(a, v), (b, w)]).SameData (record [(b, w'), (a, v')]) := by
  refine .map (by simpa using hab) (.swap b a []) ?_
  intro name x y hx hy
  simp only [List.mem_cons, List.not_mem_nil, or_false, Prod.mk.injEq] at hx hy
  rcases hx with ⟨rfl, rfl⟩ | ⟨rfl, rfl⟩
  · obtain ⟨-, rfl⟩ := hy.resolve_left fun h => hab h.1
    exact hv
  · obtain ⟨-, rfl⟩ := hy.resolve_right fun h => hab h.1.symm
    exact hw

theorem a_user_is_shown_in_one_way :
    userNameFirst.SameData userNameLast
      ∧ userNameFirst.rendered = userNameLast.rendered
      ∧ userNameLast.rendered = .ok ("\x7b\"address\": \x7b\"cities\": [\"bath\", 7], "
        ++ "\"zip\": null\x7d, \"name\": \"ada\"\x7d") := by
  have hcities : (Value.list [.text "bath", .int 7]).SameData (.tuple [.text "bath", .int 7]) := by
    refine .row (.list _) (.tuple _) rfl ?_
    simp only [List.zip_cons_cons, List.zip_nil_right, List.forall_mem_cons, List.not_mem_nil,
      false_implies, implies_true, and_true]
    exact ⟨.text "bath", .int 7⟩
  have hsame : userNameFirst.SameData userNameLast :=
    .swap (by decide) (.text "ada") (.swap (by decide) .null hcities)
  exact ⟨hsame, (a_reason_does_not_show_insertion_order hsame).1, by decide +kernel⟩

end FieldGate
