import TupleSpace.Config
import TupleSpace.Files
import TupleSpace.Yaml.Node

/-!
# Configuration files

The configuration of a directory as a YAML document: a mapping with the fields `defaults`, the
settings of every space, and `spaces`, a mapping from directory strings to settings.  Nothing at
all stands for an empty mapping, but a null that is written out does not.  Fields with other names
are ignored, a field that is given twice is refused, and of two spaces with one name the last
counts.

Numbers and truth values are plain scalars.  A number has no sign but a plus, is decimal without
zeros in front, or hexadecimal, octal or binary behind `0x`, `0o` or `0b`.
-/

namespace TupleSpace

open Yaml (Node Document ScalarStyle)

namespace ConfigDocument

/-- The value of a digit in a base. -/
def digit? (base : Nat) (c : Char) : Option Nat :=
  match Yaml.hexDigit? c with
  | some n => if n < base then some n else none
  | none => none

/-- The number that some digits stand for, if there are any and it is below `2 ^ 64`. -/
def natural? (base : Nat) (digits : List Char) : Option Nat :=
  if digits.isEmpty then none
  else
    match digits.foldlM (fun n d => (digit? base d).map (base * n + ·)) 0 with
    | some n => if n < Word.limit then some n else none
    | none => none

/-- A decimal number; more than one digit must not begin with a zero. -/
def decimal? (digits : List Char) : Option Nat :=
  if digits.head? = some '0' ∧ 1 < digits.length then none else natural? 10 digits

/-- The number that a text stands for. -/
def number? (text : String) : Option Nat :=
  let cs := text.toList
  let cs := if cs.head? == some '+' then cs.drop 1 else cs
  match cs with
  | '0' :: 'x' :: digits => natural? 16 digits
  | '0' :: 'o' :: digits => natural? 8 digits
  | '0' :: 'b' :: digits => natural? 2 digits
  | digits => decimal? digits

/-- The truth value that a text stands for. -/
def truth? (text : String) : Option Bool :=
  if ["true", "True", "TRUE"].contains text then some true
  else if ["false", "False", "FALSE"].contains text then some false
  else none

/-- The tag of a standard type. -/
def standardTag (name : String) : String := "tag:yaml.org,2002:" ++ name

/-- The text of a scalar that can be a number or a truth value: it is plain, or a block with the tag
of the type. -/
def literal? (d : Document) (type : String) (n : Node) : Option String :=
  match d.resolve n with
  | .scalar text .plain _ => some text
  | .scalar text .literal tag => if tag = some (standardTag type) then some text else none
  | _ => none

/-- A number. -/
def nat? (d : Document) (n : Node) : Option Nat := (literal? d "int" n).bind number?

/-- A truth value. -/
def bool? (d : Document) (n : Node) : Option Bool := (literal? d "bool" n).bind truth?

/-- The entries of a mapping, or of nothing at all. -/
def entries? (d : Document) (n : Node) : Option (List (Node × Node)) :=
  match d.resolve n with
  | .mapping entries => some entries
  | .scalar text .plain _ => if text.isEmpty then some [] else none
  | _ => none

/-- The text of a key: any scalar. -/
def keyText? (d : Document) (n : Node) : Option String :=
  match d.resolve n with
  | .scalar text _ _ => some text
  | _ => none

/-- The fields of a mapping with the given names, each at most once. -/
def fields? (d : Document) (names : List String) (n : Node) : Option (List (String × Node)) := do
  (← entries? d n).foldlM
    (fun fields (k, v) => do
      let name ← keyText? d k
      if !names.contains name then some fields
      else if fields.any fun f => f.1 == name then none
      else some (fields ++ [(name, v)])) []

/-- A field read in some way, or a default if it is missing. -/
def field? {β : Type} (fields : List (String × Node)) (name : String) (default : β)
    (read : Node → Option β) : Option β :=
  match fields.find? fun f => f.1 == name with
  | none => some default
  | some (_, n) => read n

/-- The names of the settings of a space. -/
def settingNames : List String :=
  ["short_sweep_ms", "long_sweep_ms", "short_threshold_ms", "poll_ms", "dump_limit", "sweeper"]

/-- The settings of a space. -/
def settings? (d : Document) (n : Node) : Option SpaceConfig := do
  let fields ← fields? d settingNames n
  let base : SpaceConfig := {}
  return {
    shortSweepMs := ← field? fields "short_sweep_ms" base.shortSweepMs (nat? d)
    longSweepMs := ← field? fields "long_sweep_ms" base.longSweepMs (nat? d)
    shortThresholdMs := ← field? fields "short_threshold_ms" base.shortThresholdMs (nat? d)
    pollMs := ← field? fields "poll_ms" base.pollMs (nat? d)
    dumpLimit := ← field? fields "dump_limit" base.dumpLimit (nat? d)
    sweeper := ← field? fields "sweeper" base.sweeper (bool? d) }

/-- The settings of the spaces that have some of their own. -/
def spaces? (d : Document) (n : Node) : Option (List (String × SpaceConfig)) := do
  (← entries? d n).foldlM
    (fun spaces (k, v) => do
      let name ← keyText? d k
      let config ← settings? d v
      return (spaces.filter fun s => s.1 != name) ++ [(name, config)]) []

/-- The configuration that a document holds. -/
def read? (d : Document) : Option DirectoryConfig := do
  let fields ← fields? d ["defaults", "spaces"] d.root
  let defaults ← field? fields "defaults" {} (settings? d)
  let spaces ← field? fields "spaces" [] (spaces? d)
  return { defaults, spaces }

end ConfigDocument

namespace DirectoryConfig

/-- The configuration that a text holds. -/
def parse (text : String) : Except ConfigError DirectoryConfig :=
  match (Yaml.document? text).bind ConfigDocument.read? with
  | none => .error .malformed
  | some config =>
    match config.validate with
    | .error e => .error e
    | .ok () => .ok config

/-- The configuration in a file. -/
def load (files : Files) (path : String) : Except ConfigError DirectoryConfig :=
  match files.read path with
  | .error e => .error (.unreadable e.message)
  | .ok text => parse text

end DirectoryConfig

end TupleSpace
