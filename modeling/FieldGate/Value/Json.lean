-- Values as JSON in denial reasons: entries sorted by key, everything outside
-- ASCII escaped. A value that JSON has no word for is the JSON string of its
-- bare form; a map that JSON cannot express makes the whole value be shown in
-- its quoted form.
import FieldGate.Sorting
import FieldGate.Value.Display

namespace FieldGate

/-! ## Strings -/

namespace Point

/-- The two-character escape of a point in a JSON string. -/
def jsonEscape? (p : Point) : Option Text :=
  if p = '"' then some "\\\""
  else if p = '\\' then some "\\\\"
  else if p = '\n' then some "\\n"
  else if p = '\r' then some "\\r"
  else if p = '\t' then some "\\t"
  else if p = '\x0c' then some "\\f"
  else if p = '\x08' then some "\\b"
  else none

/-- The 16-bit units of a point: itself, or a pair of surrogates. -/
def units (p : Point) : List Nat :=
  if p.val < 0x10000 then [p.val]
  else [0xD800 + (p.val - 0x10000) / 0x400, 0xDC00 + (p.val - 0x10000) % 0x400]

/-- A point in a JSON string: printable ASCII as it is, and the rest escaped
unit by unit. -/
def jsonSpelled (p : Point) : Text :=
  match p.jsonEscape? with
  | some escape => escape
  | none =>
    if 0x20 ≤ p.val && p.val ≤ 0x7E then [p]
    else p.units.flatMap fun u => "\\u" ++ Text.hex 4 u

end Point

def Text.json (t : Text) : Text := "\"" ++ t.flatMap Point.jsonSpelled ++ "\""

/-- Doubles in JSON. -/
def jsonStyle : DoubleStyle := ⟨"NaN", "Infinity", false⟩

/-! ## Keys -/

/-- A key that JSON can spell: a text, a number with its spelling, or the
missing value. -/
inductive JsonKey where
  | text (t : Text)
  | number (n : Number) (spelling : Text)
  | null

namespace JsonKey

/-- The key of a value, if JSON can spell it. -/
def ofValue? : Value → Option JsonKey
  | .text t => some (.text t)
  | .bool b => some (.number (.integer (if b then 1 else 0)) (if b then "true" else "false"))
  | .int n => (integerText n).toOption.map (.number (.integer n))
  | .float d => some (.number (.double d) (d.spelled jsonStyle))
  | .null => some .null
  | _ => none

/-- How a key is spelled inside the quotes. -/
def spelling : JsonKey → Text
  | .text t => t
  | .number _ s => s
  | .null => "null"

/-- The first key sorts strictly before the second. Keys of different sorts
have no order. -/
def before : JsonKey → JsonKey → Bool
  | .text a, .text b => a < b
  | .number a _, .number b _ => a.compare? b == some .lt
  | _, _ => false

/-- Both keys are texts, or both are numbers. -/
def comparable : JsonKey → JsonKey → Bool
  | .text _, .text _ | .number _ _, .number _ _ => true
  | _, _ => false

/-- The keys can be sorted: there is at most one, or each can be compared with
the first. -/
def sortable : List JsonKey → Bool
  | [] | [_] => true
  | k :: rest => rest.all k.comparable

end JsonKey

/-- The key is NaN, which has no place among numbers. -/
def JsonKey.isUnplaced : JsonKey → Bool
  | .number (.double d) _ => d == .nan
  | _ => false

/-! ## Order of entries -/

/-- A key of an object, and the JSON of its value. -/
abbrev JsonEntry := JsonKey × Text

/-- Puts an entry in front of the first one that sorts after it. -/
def insertByKey (e : JsonEntry) : List JsonEntry → List JsonEntry
  | [] => [e]
  | f :: rest => if e.1.before f.1 then e :: f :: rest else f :: insertByKey e rest

/-- The entries sorted by key; of two that do not sort apart the first stays
first. NaN sorts apart from nothing, so where it is a key the steps of the sort
decide: runs are merged. -/
def sortByKey (entries : List JsonEntry) : List JsonEntry :=
  if entries.any (·.1.isUnplaced) then Sorting.sortBy (fun a b => a.1.before b.1) entries
  else entries.foldl (fun sorted e => insertByKey e sorted) []

/-! ## Values -/

def jsonEntry (e : JsonEntry) : Text := e.1.spelling.json ++ ": " ++ e.2

namespace Value

mutual

/-- The JSON of a value, if JSON can express its maps. -/
def json? : Value → Option Text
  | null => some "null"
  | bool b => some (if b then "true" else "false")
  | int n => (integerText n).toOption
  | float d => some (d.spelled jsonStyle)
  | text t => some t.json
  | list items | tuple items => (jsonItems? items).map fun parts => bracketed "[" parts "]"
  | map entries => do
    let es ← jsonEntries? entries
    if JsonKey.sortable (es.map (·.1)) then
      return bracketed "\x7b" ((sortByKey es).map jsonEntry) "\x7d"
    else none
  | v => v.shown.toOption.map Text.json

/-- The JSON of items, in order. -/
def jsonItems? : List Value → Option (List Text)
  | [] => some []
  | v :: rest => do return (← json? v) :: (← jsonItems? rest)

/-- The keys of a map, each with the JSON of its value. -/
def jsonEntries? : List (Value × Value) → Option (List JsonEntry)
  | [] => some []
  | (k, v) :: rest => do return (← JsonKey.ofValue? k, ← json? v) :: (← jsonEntries? rest)

end

/-- A resolved value as denial reasons show it. -/
def rendered (v : Value) : Except Mishap Text :=
  match v.json? with
  | some t => .ok t
  | none => v.quoted

end Value

end FieldGate
