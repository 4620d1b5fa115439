import TupleSpace.Json.Writing
import TupleSpace.Text.Quoted

/-!
# Described values

The form in which stored values appear in listings: on one line, with the kind of every part named.
-/

namespace TupleSpace.Json

mutual

/-- The description of a value. -/
def describe : Json → String
  | null => "Null"
  | bool b => if b then "Bool(true)" else "Bool(false)"
  | number n => "Number(" ++ String.ofList n.chars ++ ")"
  | string s => "String(" ++ Text.quote s ++ ")"
  | array items => "Array [" ++ describeItems items ++ "]"
  | object fields => "Object \x7b" ++ describeFields fields ++ "\x7d"

/-- The descriptions of items, separated by commas. -/
def describeItems : List Json → String
  | [] => ""
  | [v] => describe v
  | v :: vs => describe v ++ ", " ++ describeItems vs

/-- The names and descriptions of fields, separated by commas. -/
def describeFields : List (String × Json) → String
  | [] => ""
  | [(n, v)] => Text.quote n ++ ": " ++ describe v
  | (n, v) :: fs => Text.quote n ++ ": " ++ describe v ++ ", " ++ describeFields fs

end

end TupleSpace.Json
