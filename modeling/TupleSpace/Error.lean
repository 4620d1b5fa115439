import TupleSpace.Config

/-!
# Errors of a space

Every operation on a space fails in one of three ways: its arguments make no sense, the space is
closed, or something that the space relies on has failed.  A retrieval that finds nothing in time
is not an error.
-/

namespace TupleSpace

/-- Arguments that make no sense. -/
inductive Refusal where
  /-- An entry would expire later than any clock can show. -/
  | timeoutOutOfRange (timeout : Nat)
  /-- The settings of a space are not valid. -/
  | settings (error : ConfigError)
  /-- A directory string names no scheme. -/
  | missingScheme (text : String)
  /-- A directory string names no space. -/
  | missingName (text : String)
  /-- No spaces are made for this scheme. -/
  | unknownScheme (scheme : String)
  /-- A persistent space wants a path in its directory string. -/
  | missingPath (uri : String)
  /-- Any other reason, in words. -/
  | other (reason : String)
deriving DecidableEq, Repr

/-- The reason in words. -/
def Refusal.message : Refusal → String
  | timeoutOutOfRange t => "timeout " ++ Span.describe t ++ " is out of range"
  | settings e => e.message
  | missingScheme s => "missing scheme in '" ++ s ++ "'"
  | missingName s => "missing space name in '" ++ s ++ "'"
  | unknownScheme s => "unknown scheme '" ++ s ++ "'"
  | missingPath u => "'" ++ u ++ "' needs a snapshot path parameter"
  | other r => r

/-- Something that a space relies on has failed. -/
inductive Fault where
  /-- A wait without an end came to an end without a value. -/
  | waitEndedEmpty
  /-- The file system refused. -/
  | storage
  /-- A text is no snapshot. -/
  | snapshotText
  /-- A snapshot has a version that cannot be read. -/
  | snapshotVersion (version : Nat) (path : String)
  /-- The instant at which an entry expires cannot be written. -/
  | expiryTooLate (left : Nat)
  /-- Any other fault, in words. -/
  | other (activity : String)
deriving DecidableEq, Repr

/-- The fault in words. -/
def Fault.message : Fault → String
  | waitEndedEmpty => "unbounded wait ended without a value"
  | storage => "storage I/O failed"
  | snapshotText => "snapshot encoding failed"
  | snapshotVersion v path => "unsupported snapshot version " ++ toString v ++ " in " ++ path
  | expiryTooLate t => "expiry " ++ Span.describe t ++ " cannot be stored"
  | other a => a

/-- How an operation on a space can fail. -/
inductive SpaceError where
  /-- The arguments make no sense. -/
  | invalidArgument (refusal : Refusal)
  /-- The space was closed before or while the operation ran. -/
  | closed (space : String)
  /-- Something else failed; `cause` is the text of what lies behind it, if anything does. -/
  | coordination (fault : Fault) (cause : Option String)
deriving DecidableEq, Repr

namespace SpaceError

/-- The text of an error. -/
def message : SpaceError → String
  | invalidArgument r => "Invalid argument: " ++ r.message
  | closed s => "Space '" ++ s ++ "' is closed"
  | coordination f _ => "Coordination error: " ++ f.message

/-- Whether the error reports a closed space. -/
def isClosed : SpaceError → Bool
  | closed _ => true
  | _ => false

/-- The text of what lies behind an error. -/
def cause? : SpaceError → Option String
  | coordination _ c => c
  | _ => none

/-- A failure of the file system. -/
def ofStorage (cause : String) : SpaceError :=
  coordination .storage (some cause)

/-- A text that is no snapshot. -/
def ofSnapshotText (cause : String) : SpaceError :=
  coordination .snapshotText (some cause)

end SpaceError

end TupleSpace
