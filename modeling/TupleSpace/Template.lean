import TupleSpace.Digest.Blake3
import TupleSpace.Json.Writing
import TupleSpace.Text.Quoted
import TupleSpace.Word

/-!
# Templates

A retrieval by content: a key together with a test that the value has to pass.  Engines only ask
whether a value is accepted; `Pattern` lists the tests for JSON values.  A digest pattern compares
hashes of the compact form, so it accepts every value equal to the one it was made from whose
compact form is the same, and others only if their hashes collide.
-/

namespace TupleSpace

/-- A key and a test on the values stored under it. -/
structure Template (κ α : Type) where
  key : κ
  accepts : α → Bool

/-- A digest of a JSON value: 32 bytes. -/
abbrev Digest := List UInt8

namespace Json

/-- The digest of a value: the hash of its compact form. -/
def digest (v : Json) : Digest :=
  Blake3.hash v.compact.toUTF8

/-- The value as an integer of 64 bits with sign, if it is one. -/
def toInt64? : Json → Option Int
  | number (.whole n) =>
    if -(Word.signedLimit : Int) ≤ n ∧ n < Word.signedLimit then some n else none
  | _ => none

/-- Whether a list of characters occurs in another without gaps. -/
def occursIn (part : List Char) : List Char → Bool
  | [] => part.isEmpty
  | c :: cs => part.isPrefixOf (c :: cs) || occursIn part cs

end Json

/-- A test on JSON values. -/
inductive Pattern where
  /-- The value equals another. -/
  | equal (value : Json)
  /-- The digest of the value is known. -/
  | digest (digest : Digest)
  /-- The value is an integer above a bound. -/
  | above (bound : Int)
  /-- The value is an object with a field. -/
  | hasField (name : String)
  /-- The value is a string in which a text occurs. -/
  | containing (text : String)
  /-- Every value. -/
  | anything
  /-- No value. -/
  | nothing

namespace Pattern

/-- The pattern of all values with the digest of the given one. -/
def sameDigest (v : Json) : Pattern := digest v.digest

/-- Whether a value passes the test. -/
def accepts : Pattern → Json → Bool
  | equal v, c => v.equals c
  | digest d, c => c.digest == d
  | above n, c => c.toInt64?.any fun i => decide (n < i)
  | hasField f, c => (c.field? f).isSome
  | containing s, .string t => Json.occursIn s.toList t.toList
  | containing _, _ => false
  | anything, _ => true
  | nothing, _ => false

/-- The template that looks for the pattern under a key. -/
def under {κ : Type} (p : Pattern) (key : κ) : Template κ Json := ⟨key, p.accepts⟩

end Pattern

/-- What is shown of a template: its key. -/
def Template.describe {α : Type} (t : Template String α) : String :=
  "Template \x7b key: " ++ Text.quote t.key ++ ", .. \x7d"

end TupleSpace
