import TupleSpace.Time

/-!
# Configuration

The settings of one space and of a directory of spaces, with the rule for the settings that no
engine can run with: every interval has to be positive.  A space without settings of its own uses
the defaults of its directory as a whole; the two are never mixed field by field.
-/

namespace TupleSpace

/-- An interval that has to be positive. -/
inductive Interval where
  | shortSweep
  | longSweep
  | poll
deriving DecidableEq, Repr

/-- The name of an interval in a configuration file. -/
def Interval.fieldName : Interval → String
  | shortSweep => "short_sweep_ms"
  | longSweep => "long_sweep_ms"
  | poll => "poll_ms"

/-- What can be wrong with a configuration. -/
inductive ConfigError where
  /-- The file could not be read, for the reason that the file system gives. -/
  | unreadable (reason : String)
  /-- The text is no configuration. -/
  | malformed
  /-- An interval is zero. -/
  | notPositive (interval : Interval)
deriving DecidableEq, Repr

/-- The text of a configuration error. -/
def ConfigError.message : ConfigError → String
  | unreadable reason => "Failed to read config file: " ++ reason
  | malformed => "Failed to parse YAML"
  | notPositive i => "Invalid value for " ++ i.fieldName ++ ": must be greater than zero"

/-- The settings of one space.  All times are in milliseconds. -/
structure SpaceConfig where
  /-- Time between two sweeps of the short generation. -/
  shortSweepMs : Nat := 5000
  /-- Time between two sweeps of the long generation. -/
  longSweepMs : Nat := 60000
  /-- Entries that live shorter than this belong to the short generation. -/
  shortThresholdMs : Nat := 60000
  /-- The longest time for which a waiting `nrd` or `exist_any` does not look. -/
  pollMs : Nat := 500
  /-- The number of keys that a listing shows. -/
  dumpLimit : Nat := 100
  /-- Whether expired entries are swept in the background. -/
  sweeper : Bool := true
deriving DecidableEq, Repr

namespace SpaceConfig

instance : Inhabited SpaceConfig := ⟨{}⟩

/-- Time between two sweeps of the short generation. -/
def shortSweep (c : SpaceConfig) : Nat := Span.ofMillis c.shortSweepMs

/-- Time between two sweeps of the long generation. -/
def longSweep (c : SpaceConfig) : Nat := Span.ofMillis c.longSweepMs

/-- The lifetime from which on an entry belongs to the long generation. -/
def shortThreshold (c : SpaceConfig) : Nat := Span.ofMillis c.shortThresholdMs

/-- The longest time for which a waiting `nrd` or `exist_any` does not look. -/
def poll (c : SpaceConfig) : Nat := Span.ofMillis c.pollMs

/-- Refuses settings that no engine can run with; the first interval at fault is named. -/
def validate (c : SpaceConfig) : Except ConfigError Unit :=
  if c.shortSweepMs = 0 then .error (.notPositive .shortSweep)
  else if c.longSweepMs = 0 then .error (.notPositive .longSweep)
  else if c.pollMs = 0 then .error (.notPositive .poll)
  else .ok ()

theorem validate_eq_ok_iff {c : SpaceConfig} :
    c.validate = .ok () ↔ 0 < c.shortSweepMs ∧ 0 < c.longSweepMs ∧ 0 < c.pollMs := by
  unfold validate
  repeat' split
  all_goals simp_all <;> omega

end SpaceConfig

/-- The settings of a directory: defaults, and settings of their own for some spaces. -/
structure DirectoryConfig where
  defaults : SpaceConfig := {}
  spaces : List (String × SpaceConfig) := []
deriving DecidableEq, Repr

namespace DirectoryConfig

instance : Inhabited DirectoryConfig := ⟨{}⟩

/-- The settings of the space with a directory string. -/
def configFor (d : DirectoryConfig) (name : String) : SpaceConfig :=
  ((d.spaces.find? fun s => s.1 == name).map Prod.snd).getD d.defaults

/-- Refuses a configuration in which the defaults or any space cannot be run with. -/
def validate (d : DirectoryConfig) : Except ConfigError Unit := do
  d.defaults.validate
  d.spaces.forM fun s => s.2.validate

end DirectoryConfig

end TupleSpace
