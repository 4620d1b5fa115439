/-!
# JSON texts as written

The grammar of JSON, without the meaning of its scalars: a number is kept as its digits and a
string as its characters and escapes, and the fields of an object keep their order and their
repetitions.  A text is accepted here whenever its shape is right; whether a number is in range or
an escape names a character is decided only for the parts that are used.
-/

namespace TupleSpace.Json

/-- One piece of a string: a character, or a UTF-16 unit written as an escape. -/
inductive Piece where
  | char (c : Char)
  | unit (code : Nat)
deriving DecidableEq, Repr

/-- A number as written: its sign, the digits on both sides of the point, and the exponent with its
sign.  `fraction` is `none` without a point. -/
structure Numeral where
  negative : Bool
  integer : List Nat
  fraction : Option (List Nat)
  exponent : Option (Bool × List Nat)
deriving DecidableEq, Repr

/-- A JSON text as written. -/
inductive Written where
  | null
  | bool (value : Bool)
  | number (numeral : Numeral)
  | string (pieces : List Piece)
  | array (items : List Written)
  | object (fields : List (List Piece × Written))
deriving Repr

namespace Written

instance : Inhabited Written := ⟨null⟩

/-- The blanks of JSON. -/
def isBlank (c : Char) : Bool :=
  c == ' ' || c == '\t' || c == '\n' || c == '\r'

/-- The text behind leading blanks. -/
def skipBlanks (cs : List Char) : List Char :=
  cs.dropWhile isBlank

/-- The value of a decimal digit. -/
def digit? (c : Char) : Option Nat :=
  if c.isDigit then some (c.toNat - '0'.toNat) else none

/-- The value of a hexadecimal digit. -/
def hexDigit? (c : Char) : Option Nat :=
  if c.isDigit then some (c.toNat - '0'.toNat)
  else if 'a' ≤ c ∧ c ≤ 'f' then some (c.toNat - 'a'.toNat + 10)
  else if 'A' ≤ c ∧ c ≤ 'F' then some (c.toNat - 'A'.toNat + 10)
  else none

/-- The decimal digits in front and the text behind them. -/
def digits : List Char → List Nat × List Char
  | [] => ([], [])
  | c :: rest =>
    match digit? c with
    | some d => let (ds, tail) := digits rest; (d :: ds, tail)
    | none => ([], c :: rest)

/-- The integer part of a number: a zero alone, or digits that do not start with zero. -/
def integerPart? (cs : List Char) : Option (List Nat × List Char) :=
  match digits cs with
  | ([], _) => none
  | ([d], rest) => some ([d], rest)
  | (0 :: _, _) => none
  | (ds, rest) => some (ds, rest)

/-- A fraction, if a point follows; the point wants a digit behind it. -/
def fraction? (cs : List Char) : Option (Option (List Nat) × List Char) :=
  match cs with
  | '.' :: rest =>
    match digits rest with
    | ([], _) => none
    | (ds, tail) => some (some ds, tail)
  | _ => some (none, cs)

/-- The digits of an exponent behind its sign. -/
def exponentDigits? (negative : Bool) (cs : List Char) :
    Option (Option (Bool × List Nat) × List Char) :=
  match digits cs with
  | ([], _) => none
  | (ds, tail) => some (some (negative, ds), tail)

/-- An exponent, if one follows. -/
def exponent? (cs : List Char) : Option (Option (Bool × List Nat) × List Char) :=
  match cs with
  | c :: rest =>
    if c == 'e' || c == 'E' then
      match rest with
      | '+' :: tail => exponentDigits? false tail
      | '-' :: tail => exponentDigits? true tail
      | _ => exponentDigits? false rest
    else some (none, cs)
  | [] => some (none, cs)

/-- A number behind its sign. -/
def unsigned? (negative : Bool) (cs : List Char) : Option (Written × List Char) := do
  let (integer, afterInteger) ← integerPart? cs
  let (fraction, afterFraction) ← fraction? afterInteger
  let (exponent, rest) ← exponent? afterFraction
  return (number ⟨negative, integer, fraction, exponent⟩, rest)

/-- Four hexadecimal digits. -/
def unit? : List Char → Option (Nat × List Char)
  | a :: b :: c :: d :: rest => do
    let a ← hexDigit? a
    let b ← hexDigit? b
    let c ← hexDigit? c
    let d ← hexDigit? d
    return (((a * 16 + b) * 16 + c) * 16 + d, rest)
  | _ => none

/-- The character that a one-letter escape stands for. -/
def simpleEscape? (c : Char) : Option Char :=
  if c == '"' || c == '\\' || c == '/' then some c
  else if c == 'b' then some (Char.ofNat 8)
  else if c == 'f' then some (Char.ofNat 12)
  else if c == 'n' then some '\n'
  else if c == 'r' then some '\r'
  else if c == 't' then some '\t'
  else none

/-- The pieces of a string up to its closing quote; `fuel` is at least the length of the text. -/
def pieces? : Nat → List Char → Option (List Piece × List Char)
  | 0, _ => none
  | _, [] => none
  | fuel + 1, c :: rest =>
    if c == '"' then some ([], rest)
    else if c == '\\' then
      match rest with
      | [] => none
      | e :: tail =>
        if e == 'u' then
          match unit? tail with
          | some (u, after) => (pieces? fuel after).map fun (ps, end_) => (.unit u :: ps, end_)
          | none => none
        else
          match simpleEscape? e with
          | some x => (pieces? fuel tail).map fun (ps, end_) => (.char x :: ps, end_)
          | none => none
    else if c.toNat < 32 then none
    else (pieces? fuel rest).map fun (ps, end_) => (.char c :: ps, end_)

/-- The text behind a fixed word. -/
def word? (word : List Char) (cs : List Char) : Option (List Char) :=
  if word.isPrefixOf cs then some (cs.drop word.length) else none

mutual

/-- A value and the text behind it; `fuel` bounds the number of calls still to come, and a text of
length `n` never takes more than `2 * n + 2`. -/
def value? (fuel : Nat) (cs : List Char) : Option (Written × List Char) :=
  match fuel with
  | 0 => none
  | fuel + 1 =>
    match skipBlanks cs with
    | [] => none
    | c :: rest =>
      if c == '{' then
        match skipBlanks rest with
        | '}' :: tail => some (object [], tail)
        | inner => (fields? fuel inner).map fun (fs, tail) => (object fs, tail)
      else if c == '[' then
        match skipBlanks rest with
        | ']' :: tail => some (array [], tail)
        | inner => (items? fuel inner).map fun (vs, tail) => (array vs, tail)
      else if c == '"' then
        (pieces? (rest.length + 1) rest).map fun (ps, tail) => (string ps, tail)
      else if c == '-' then unsigned? true rest
      else if c.isDigit then unsigned? false (c :: rest)
      else if c == 'n' then (word? ['u', 'l', 'l'] rest).map fun tail => (null, tail)
      else if c == 't' then (word? ['r', 'u', 'e'] rest).map fun tail => (bool true, tail)
      else if c == 'f' then
        (word? ['a', 'l', 's', 'e'] rest).map fun tail => (bool false, tail)
      else none

/-- The items of an array up to its closing bracket. -/
def items? (fuel : Nat) (cs : List Char) : Option (List Written × List Char) :=
  match fuel with
  | 0 => none
  | fuel + 1 =>
    match value? fuel cs with
    | none => none
    | some (v, rest) =>
      match skipBlanks rest with
      | ',' :: tail => (items? fuel tail).map fun (vs, end_) => (v :: vs, end_)
      | ']' :: tail => some ([v], tail)
      | _ => none

/-- The fields of an object up to its closing brace. -/
def fields? (fuel : Nat) (cs : List Char) : Option (List (List Piece × Written) × List Char) :=
  match fuel with
  | 0 => none
  | fuel + 1 =>
    match skipBlanks cs with
    | '"' :: rest =>
      match pieces? (rest.length + 1) rest with
      | none => none
      | some (name, afterName) =>
        match skipBlanks afterName with
        | ':' :: afterColon =>
          match value? fuel afterColon with
          | none => none
          | some (v, afterValue) =>
            match skipBlanks afterValue with
            | ',' :: tail => (fields? fuel tail).map fun (fs, end_) => ((name, v) :: fs, end_)
            | '}' :: tail => some ([(name, v)], tail)
            | _ => none
        | _ => none
    | _ => none

end

/-- The text as written, if it is one JSON value with nothing but blanks around it. -/
def ofText? (text : String) : Option Written :=
  let cs := text.toList
  match value? (2 * cs.length + 2) cs with
  | some (v, rest) => if (skipBlanks rest).isEmpty then some v else none
  | none => none

end Written

end TupleSpace.Json
