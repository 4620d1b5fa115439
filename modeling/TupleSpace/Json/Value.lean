import TupleSpace.Decimal.Binary64

/-!
# JSON values

The values that a space stores.  A whole number is exact, every other number is binary
floating-point, and the two are never equal: `1` and `1.0` are different values, while `0.0` and
`-0.0` are the same.

The fields of an object are kept in a list.  Values made by `ofFields` hold their fields in
ascending order with every name once; nothing in this file depends on that, and two objects are
equal when their lists are.
-/

namespace TupleSpace

/-- A number of a JSON text. -/
inductive Json.Number where
  /-- An integer between `-2 ^ 63` and `2 ^ 64 - 1`. -/
  | whole (value : Int)
  /-- Any other number. -/
  | float (value : Binary64)
deriving DecidableEq, Repr

/-- A JSON value. -/
inductive Json where
  | null
  | bool (value : Bool)
  | number (value : Json.Number)
  | string (value : String)
  | array (items : List Json)
  | object (fields : List (String × Json))
deriving Repr

namespace Json

instance : Inhabited Json := ⟨null⟩

/-- Equality of numbers of one kind. -/
def Number.equals : Number → Number → Bool
  | .whole a, .whole b => a == b
  | .float a, .float b => a.equals b
  | _, _ => false

mutual

/-- Deep equality. -/
def equals : Json → Json → Bool
  | null, null => true
  | bool a, bool b => a == b
  | number a, number b => a.equals b
  | string a, string b => a == b
  | array a, array b => equalItems a b
  | object a, object b => equalFields a b
  | _, _ => false

/-- Deep equality, item by item. -/
def equalItems : List Json → List Json → Bool
  | [], [] => true
  | a :: as, b :: bs => equals a b && equalItems as bs
  | _, _ => false

/-- Deep equality, field by field. -/
def equalFields : List (String × Json) → List (String × Json) → Bool
  | [], [] => true
  | (n, a) :: as, (m, b) :: bs => n == m && equals a b && equalFields as bs
  | _, _ => false

end

/-- Puts a field at its place in an ascending list; a field of the same name is replaced. -/
def insertField (name : String) (value : Json) : List (String × Json) → List (String × Json)
  | [] => [(name, value)]
  | (n, v) :: rest =>
    if name = n then (name, value) :: rest
    else if name < n then (name, value) :: (n, v) :: rest
    else (n, v) :: insertField name value rest

/-- The object with the given fields; of fields with one name the last counts. -/
def ofFields (fields : List (String × Json)) : Json :=
  object (fields.foldl (fun acc f => insertField f.1 f.2 acc) [])

/-- The value of a field, if the value is an object that has it. -/
def field? (v : Json) (name : String) : Option Json :=
  match v with
  | object fields => (fields.find? fun f => f.1 == name).map Prod.snd
  | _ => none

/-- The whole number `n` as a value. -/
def ofInt (n : Int) : Json := number (.whole n)

/-- The natural number `n` as a value. -/
def ofNat (n : Nat) : Json := number (.whole n)

end Json

end TupleSpace
