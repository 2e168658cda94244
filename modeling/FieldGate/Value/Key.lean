-- Values as keys of a map and members of a set: when two are the same key,
-- and how an entry is found, put in and written over.
import FieldGate.Value

namespace FieldGate

namespace Value

/-- The type that keeps a value from being a key: the first list, set or map
in it. -/
def notKey? : Value → Option Text
  | list items => some (list items).typeName
  | set members => some (set members).typeName
  | map entries => some (map entries).typeName
  | tuple items => notKeys? items
  | spec field token declared => field.notKey? <|> token.notKey? <|> declared.notKey?
  | check _ _ _ declared => declared.notKey?
  | _ => none
where
  /-- The same, of the first item that is no key. -/
  notKeys? : List Value → Option Text
    | [] => none
    | v :: rest => v.notKey? <|> notKeys? rest

mutual

/-- Two values are the same key: numbers and Booleans by their exact value,
sets by their members, checks and paths by their parts, objects never. -/
def sameKey : Value → Value → Bool
  | null, null => true
  | text a, text b => a == b
  | bytes a, bytes b => a == b
  | tuple a, tuple b => sameKeys a b
  | frozenSet a, frozenSet b => a.length == b.length && keysAmong a b
  | operator a, operator b => a == b
  | spec f o v, spec f' o' v' => sameKey f f' && sameKey o o' && sameKey v v'
  | path p, path q => p == q
  | check f p k d, check f' p' k' d' => f == f' && p == p' && k == k' && sameKey d d'
  | undefined, undefined => true
  | a, b =>
    match a.number?, b.number? with
    | some m, some n => m.equals n
    | _, _ => false

/-- The items of two rows are the same keys, one by one. -/
def sameKeys : List Value → List Value → Bool
  | [], [] => true
  | a :: as, b :: bs => sameKey a b && sameKeys as bs
  | _, _ => false

/-- Every key of the first row is among the second. -/
def keysAmong : List Value → List Value → Bool
  | [], _ => true
  | a :: as, bs => bs.any (sameKey a) && keysAmong as bs

end

/-- The value of a key in a map. -/
def entry? (entries : List (Value × Value)) (key : Value) : Option Value :=
  (entries.find? fun e => e.1.sameKey key).map (·.2)

/-- The entries with one more put in. A key that is there keeps its place and
its spelling, and takes the new value. -/
def putEntry (key v : Value) : List (Value × Value) → List (Value × Value)
  | [] => [(key, v)]
  | (k, old) :: rest =>
    if k.sameKey key then (k, v) :: rest else (k, old) :: putEntry key v rest

/-- The map of entries put in one after another. -/
def mapOf (entries : List (Value × Value)) : Value :=
  map (entries.foldl (fun es e => putEntry e.1 e.2 es) [])

/-- The members of a set put in one after another; the first spelling of a
member stays. -/
def membersOf (members : List Value) : List Value :=
  members.foldl (fun ms v => if ms.any (sameKey v) then ms else ms ++ [v]) []

/-- The value at a key that is a text. -/
def field? (entries : List (Value × Value)) (name : Text) : Option Value :=
  entry? entries (text name)

end Value

end FieldGate
