import TupleSpace.Decimal.Shortest
import TupleSpace.Json.Value

/-!
# Writing JSON

The compact form, which is what a digest covers, and the indented form, which is what a snapshot
holds.  Both write fields in the order in which the value keeps them.

Numbers are written with the fewest digits that read back.  A number that is not whole always shows
a point or an exponent: it is positional when its first digit stands for at least `10 ^ -5` and
less than `10 ^ 16`, and scientific otherwise.
-/

namespace TupleSpace.Json

/-- How a float is laid out: the positions of the first digit, as powers of ten, that are written
without an exponent. -/
structure FloatLayout where
  leastPositional : Int
  greatestPositional : Int
deriving Repr

/-- The layout of every number that is not whole. -/
def floatLayout : FloatLayout := ⟨-5, 15⟩

/-- So many zeros. -/
def zeros (n : Nat) : List Char :=
  List.replicate n '0'

/-- The digits of a decimal with an exponent. -/
def scientificChars (digits : List Char) (position : Int) : List Char :=
  let exponent :=
    (if position < 0 then ['-'] else ['+']) ++ (toString position.natAbs).toList
  match digits with
  | [d] => d :: 'e' :: exponent
  | d :: ds => d :: '.' :: ds ++ 'e' :: exponent
  | [] => []

/-- The digits of a decimal whose first digit stands for `10 ^ position`, without an exponent. -/
def positionalChars (digits : List Char) (position : Int) : List Char :=
  if position < 0 then '0' :: '.' :: zeros (position.natAbs - 1) ++ digits
  else
    let whole := position.toNat + 1
    if digits.length ≤ whole then digits ++ zeros (whole - digits.length) ++ ['.', '0']
    else digits.take whole ++ '.' :: digits.drop whole

/-- The text of a binary floating-point number. -/
def floatChars (x : Binary64) : List Char :=
  let sign := if x.negative then ['-'] else []
  if x.mantissa = 0 then sign ++ ['0', '.', '0']
  else
    let s := Decimal.shortest x
    let digits := (toString s.digits).toList
    let position := s.exponent + digits.length - 1
    if floatLayout.leastPositional ≤ position ∧ position ≤ floatLayout.greatestPositional then
      sign ++ positionalChars digits position
    else sign ++ scientificChars digits position

/-- The text of a number. -/
def Number.chars : Number → List Char
  | .whole n => (toString n).toList
  | .float x => floatChars x

/-- The two hexadecimal digits of a number below 256. -/
def hexPair (n : Nat) : List Char :=
  [Nat.digitChar (n / 16), Nat.digitChar (n % 16)]

/-- How one character is written inside a string. -/
def escapeChar (c : Char) : List Char :=
  if c == '"' then ['\\', '"']
  else if c == '\\' then ['\\', '\\']
  else if c.toNat == 8 then ['\\', 'b']
  else if c.toNat == 12 then ['\\', 'f']
  else if c == '\n' then ['\\', 'n']
  else if c == '\r' then ['\\', 'r']
  else if c == '\t' then ['\\', 't']
  else if c.toNat < 32 then ['\\', 'u', '0', '0'] ++ hexPair c.toNat
  else [c]

/-- A string between its quotes. -/
def stringChars (s : String) : List Char :=
  '"' :: s.toList.flatMap escapeChar ++ ['"']

mutual

/-- The compact form of a value, in front of more text. -/
def compactChars : Json → List Char
  | null => ['n', 'u', 'l', 'l']
  | bool true => ['t', 'r', 'u', 'e']
  | bool false => ['f', 'a', 'l', 's', 'e']
  | number n => n.chars
  | string s => stringChars s
  | array [] => ['[', ']']
  | array (v :: vs) => '[' :: compactChars v ++ compactItems vs
  | object [] => ['{', '}']
  | object ((n, v) :: fs) => '{' :: stringChars n ++ ':' :: compactChars v ++ compactFields fs

/-- The items behind the first one, each behind a comma, and the closing bracket. -/
def compactItems : List Json → List Char
  | [] => [']']
  | v :: vs => ',' :: compactChars v ++ compactItems vs

/-- The fields behind the first one, each behind a comma, and the closing brace. -/
def compactFields : List (String × Json) → List Char
  | [] => ['}']
  | (n, v) :: fs => ',' :: stringChars n ++ ':' :: compactChars v ++ compactFields fs

end

/-- The compact form of a value. -/
def compact (v : Json) : String :=
  String.ofList (compactChars v)

/-- A line break and so many levels of indentation. -/
def newLine (level : Nat) : List Char :=
  '\n' :: List.replicate (2 * level) ' '

mutual

/-- The indented form of a value that stands at a level. -/
def indentedChars (level : Nat) : Json → List Char
  | array [] => ['[', ']']
  | array (v :: vs) =>
    '[' :: newLine (level + 1) ++ indentedChars (level + 1) v ++ indentedItems level vs
  | object [] => ['{', '}']
  | object ((n, v) :: fs) =>
    '{' :: newLine (level + 1) ++ stringChars n ++ ':' :: ' ' :: indentedChars (level + 1) v ++
      indentedFields level fs
  | null => ['n', 'u', 'l', 'l']
  | bool true => ['t', 'r', 'u', 'e']
  | bool false => ['f', 'a', 'l', 's', 'e']
  | number n => n.chars
  | string s => stringChars s

/-- The items behind the first one and the closing bracket. -/
def indentedItems (level : Nat) : List Json → List Char
  | [] => newLine level ++ [']']
  | v :: vs =>
    ',' :: newLine (level + 1) ++ indentedChars (level + 1) v ++ indentedItems level vs

/-- The fields behind the first one and the closing brace. -/
def indentedFields (level : Nat) : List (String × Json) → List Char
  | [] => newLine level ++ ['}']
  | (n, v) :: fs =>
    ',' :: newLine (level + 1) ++ stringChars n ++ ':' :: ' ' :: indentedChars (level + 1) v ++
      indentedFields level fs

end

/-- The indented form of a value. -/
def indented (v : Json) : String :=
  String.ofList (indentedChars 0 v)

end TupleSpace.Json
