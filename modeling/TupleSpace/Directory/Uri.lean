import TupleSpace.Error
import TupleSpace.Text.Blank

/-!
# Directory strings

A space is named by a string `scheme:name` or `scheme:name:param`; a string without a colon is a
name under the default scheme.  Blanks around the string and the case of the scheme's ASCII letters
mean nothing, and an empty parameter is none at all.  The text of a parsed string is its normal
form.
-/

namespace TupleSpace

/-- A parsed directory string. -/
structure SpaceUri where
  scheme : String
  name : String
  /-- Everything behind the second colon. -/
  param : Option String
deriving DecidableEq, Repr

namespace SpaceUri

/-- The scheme of a string that names none. -/
def defaultScheme : String := "tspace"

/-- The normal form of the default space's string. -/
def defaultSpace : String := "tspace:default"

/-- Splits at the first colon, if there is one. -/
def splitColon : List Char → List Char × Option (List Char)
  | [] => ([], none)
  | c :: rest =>
    if c = ':' then ([], some rest)
    else
      let (before, after) := splitColon rest
      (c :: before, after)

/-- The lower-case form of the ASCII letters of a text. -/
def lowerScheme (cs : List Char) : List Char :=
  cs.map Char.toLower

/-- The parameter, unless it is empty. -/
def nonEmpty? : Option (List Char) → Option String
  | some (c :: cs) => some (String.ofList (c :: cs))
  | _ => none

/-- The scheme, the name and the parameter of a trimmed text. -/
def split (cs : List Char) : List Char × List Char × Option String :=
  match splitColon cs with
  | (name, none) => (defaultScheme.toList, name, none)
  | (scheme, some rest) =>
    let (name, param) := splitColon rest
    (lowerScheme scheme, name, nonEmpty? param)

/-- Parses a directory string. -/
def parse (text : String) : Except SpaceError SpaceUri :=
  let cs := Text.trim text.toList
  let (scheme, name, param) := split cs
  if scheme.isEmpty then .error (.invalidArgument (.missingScheme (String.ofList cs)))
  else if name.isEmpty then .error (.invalidArgument (.missingName (String.ofList cs)))
  else .ok ⟨String.ofList scheme, String.ofList name, param⟩

/-- The normal form of a directory string. -/
def text (u : SpaceUri) : String :=
  match u.param with
  | none => u.scheme ++ ":" ++ u.name
  | some p => u.scheme ++ ":" ++ u.name ++ ":" ++ p

end SpaceUri

end TupleSpace
