import TupleSpace.Json.Reading
import TupleSpace.Snapshot

/-!
# Reading snapshots

A snapshot is an object whose fields may come in any order; fields with other names are ignored,
whatever they hold.  A field that is missing or repeated is an error, except that a value need not
say when it expires, and may say so by `null`.  Instead of an object, an array of the fields in
their order is read as well.
-/

namespace TupleSpace.Snapshot

open TupleSpace.Json (Written Piece)

/-- The fields of a written object under the given names, each at most once; `none` if one is
repeated or a name is no text. -/
def fieldsOf? (names : List String) (fields : List (List Piece × Written)) :
    Option (List (String × Written)) :=
  fields.foldlM
    (fun acc (name, w) => do
      let name ← Json.textOf? name
      if names.contains name then
        if acc.any fun f => f.1 == name then none else some (acc ++ [(name, w)])
      else some acc) []

/-- The values of the named fields of a written object or array, in the order of the names.  A text
that is neither, a repeated field, and an array with more items than names are errors. -/
def partsOf? (names : List String) : Written → Option (List (Option Written))
  | .object fields =>
    (fieldsOf? names fields).map fun fs =>
      names.map fun n => (fs.find? fun f => f.1 == n).map Prod.snd
  | .array items =>
    if names.length < items.length then none
    else some (names.zipIdx.map fun (_, i) => items[i]?)
  | _ => none

/-- A text. -/
def textIn? : Written → Option String
  | .string ps => Json.textOf? ps
  | _ => none

/-- An instant. -/
def momentIn? (w : Written) : Option Moment :=
  (textIn? w).bind Rfc3339.read?

/-- A version: a whole number below `2 ^ 32`. -/
def versionIn? : Written → Option Nat
  | .number n =>
    match n.toNumber? with
    | some (.whole v) => if 0 ≤ v ∧ v < 4294967296 then some v.toNat else none
    | _ => none
  | _ => none

/-- An instant that may be absent. -/
def expiryIn? : Option Written → Option (Option Moment)
  | none => some none
  | some .null => some none
  | some w => (momentIn? w).map some

/-- The levels that a stored value may nest: five are taken by what is around it. -/
def valueDepth : Nat := Json.maxDepth - 5

/-- A stored value. -/
def valueIn? (w : Written) : Option SnapshotValue := do
  match ← partsOf? ["value", "expires_at"] w with
  | [some value, expiry] => return ⟨← value.toValue? valueDepth, ← expiryIn? expiry⟩
  | _ => none

/-- The values of a written array. -/
def listIn? {β : Type} (read : Written → Option β) : Written → Option (List β)
  | .array items => items.mapM read
  | _ => none

/-- The values of one key. -/
def entryIn? (w : Written) : Option SnapshotEntry := do
  match ← partsOf? ["key", "values"] w with
  | [some key, some values] => return ⟨← textIn? key, ← listIn? valueIn? values⟩
  | _ => none

/-- A snapshot of any version. -/
def snapshotIn? (w : Written) : Option Snapshot := do
  match ← partsOf? ["version", "saved_at", "entries"] w with
  | [some version, some savedAt, some entries] =>
    return ⟨← versionIn? version, ← momentIn? savedAt, ← listIn? entryIn? entries⟩
  | _ => none

/-- The snapshot that a text holds. -/
def read? (text : String) : Option Snapshot :=
  (Written.ofText? text).bind snapshotIn?

end TupleSpace.Snapshot
