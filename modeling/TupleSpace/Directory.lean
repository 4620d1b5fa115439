import TupleSpace.Directory.Uri

/-!
# Directories

One space for every directory string.  A directory knows how the spaces of a scheme are made and
keeps, for every normal form, the space that was made last, by its number.  The spaces themselves
live elsewhere, and so does the making of them.
-/

namespace TupleSpace

/-- How the spaces of a scheme are made. -/
inductive Factory where
  /-- A space with one record per key. -/
  | perKey
  /-- A space with a single lock. -/
  | singleLock
  /-- A space with one record per key that is kept in the file named by the parameter. -/
  | persistent
  /-- A space with a single lock that starts with one entry: the parameter, under the name of the
  default-scheme space of the same name. -/
  | referring
  /-- No space at all, for a reason given in words. -/
  | refusing (reason : String)
deriving DecidableEq, Repr

/-- A directory of spaces. -/
structure Directory where
  config : DirectoryConfig := {}
  /-- The schemes with their factories. -/
  schemes : List (String × Factory) := []
  /-- The cached spaces, by number, under the normal forms of their strings. -/
  slots : List (String × Nat) := []
deriving DecidableEq, Repr

namespace Directory

/-- Registers or replaces the factory of a scheme. -/
def register (d : Directory) (scheme : String) (factory : Factory) : Directory :=
  let scheme := String.ofList (SpaceUri.lowerScheme scheme.toList)
  { d with schemes := (d.schemes.filter fun s => s.1 != scheme) ++ [(scheme, factory)] }

/-- A directory of in-memory spaces. -/
def new (config : DirectoryConfig) : Directory :=
  ((Directory.mk config [] []).register "tspace" .perKey).register "gspace" .singleLock

/-- Adds the scheme of persistent spaces. -/
def withPersistence (d : Directory) : Directory :=
  d.register "persistent" .persistent

/-- The factory of a scheme. -/
def factory? (d : Directory) (scheme : String) : Option Factory :=
  (d.schemes.find? fun s => s.1 == scheme).map Prod.snd

/-- The number of the cached space of a normal form. -/
def slot? (d : Directory) (name : String) : Option Nat :=
  (d.slots.find? fun s => s.1 == name).map Prod.snd

/-- Caches a space. -/
def cache (d : Directory) (name : String) (space : Nat) : Directory :=
  { d with slots := (d.slots.filter fun s => s.1 != name) ++ [(name, space)] }

/-- Forgets the space of a normal form. -/
def evict (d : Directory) (name : String) : Directory :=
  { d with slots := d.slots.filter fun s => s.1 != name }

/-- The normal forms of the cached spaces, in ascending order. -/
def names (d : Directory) : List String :=
  (d.slots.map Prod.fst).mergeSort fun a b => decide (a ≤ b)

/-- The schemes, in ascending order. -/
def schemeNames (d : Directory) : List String :=
  (d.schemes.map Prod.fst).mergeSort fun a b => decide (a ≤ b)

end Directory

end TupleSpace
