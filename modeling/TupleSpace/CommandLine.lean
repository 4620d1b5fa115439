import TupleSpace.Bench
import TupleSpace.Word

/-!
# The command line

What can be asked for on the command line, and how the arguments say it.  Options stand in front of
the command that they belong to or between its arguments, each at most once; the value of an option
follows it, or an equals sign in the same argument.  An argument that begins with a dash is never
taken for a value, unless it is the dash alone or stands behind two dashes.
-/

namespace TupleSpace

/-- What is to be done. -/
inductive Command where
  /-- Run a benchmark. -/
  | bench (bench : Bench)
  /-- List the contents of a snapshot. -/
  | dump (snapshot : String)
deriving DecidableEq, Repr

/-- The arguments of the program. -/
structure Invocation where
  /-- The path of the configuration file. -/
  config : String := "tspace.yml"
  verbose : Bool := false
  command : Command
deriving DecidableEq, Repr

/-- Why arguments lead to no invocation. -/
inductive NoInvocation where
  /-- They make no sense. -/
  | usage
  /-- They ask for help. -/
  | help
  /-- They ask for the version. -/
  | version
deriving DecidableEq, Repr

namespace CommandLine

/-- An argument, told apart by its dashes. -/
inductive Argument where
  /-- The two dashes behind which everything is a value. -/
  | separator
  /-- An option with a long name, and its value if there is one. -/
  | long (name : String) (value : Option String)
  /-- Options of one letter each. -/
  | short (letters : List Char)
  /-- Anything else. -/
  | plain (text : String)
deriving DecidableEq, Repr

/-- Splits at the first equals sign, if there is one. -/
def splitEquals : List Char → List Char × Option (List Char)
  | [] => ([], none)
  | c :: rest =>
    if c = '=' then ([], some rest)
    else
      let (before, after) := splitEquals rest
      (c :: before, after)

/-- Tells what an argument is. -/
def Argument.ofText (text : String) : Argument :=
  match text.toList with
  | ['-', '-'] => .separator
  | '-' :: '-' :: rest =>
    let (name, value) := splitEquals rest
    .long (String.ofList name) (value.map String.ofList)
  | '-' :: c :: rest => .short (c :: rest)
  | _ => .plain text

/-- The value of an option: in the same argument, or the next one. -/
def valueOf (inside : Option String) (rest : List String) :
    Except NoInvocation (String × List String) :=
  match inside, rest with
  | some v, _ => .ok (v, rest)
  | none, next :: rest =>
    match Argument.ofText next with
    | .plain v => .ok (v, rest)
    | _ => .error .usage
  | none, [] => .error .usage

/-- The number that an argument stands for: decimal digits behind at most a plus, below
`2 ^ 64`. -/
def number? (text : String) : Option Nat :=
  let digits := if text.toList.head? == some '+' then text.toList.drop 1 else text.toList
  if digits.isEmpty || !digits.all Char.isDigit then none
  else
    let n := digits.foldl (fun n d => 10 * n + (d.toNat - '0'.toNat)) 0
    if n < Word.limit then some n else none

/-- The engine of a name. -/
def engine? (name : String) : Option BenchEngine :=
  [BenchEngine.perKey, .singleLock].find? fun e => e.scheme == name

/-- The options of a benchmark. -/
structure BenchOptions where
  engine : Option BenchEngine := none
  producers : Option Nat := none
  consumers : Option Nat := none
  keys : Option Nat := none
  messages : Option Nat := none

/-- The benchmark that the options ask for. -/
def BenchOptions.toBench (o : BenchOptions) : Bench :=
  let base : Bench := {}
  { engine := o.engine.getD base.engine
    producers := o.producers.getD base.producers
    consumers := o.consumers.getD base.consumers
    keys := o.keys.getD base.keys
    messages := o.messages.getD base.messages }

/-- Sets an option that has not been set. -/
def setOnce {β : Type} (old new : Option β) : Except NoInvocation (Option β) :=
  match old, new with
  | none, some v => .ok (some v)
  | _, _ => .error .usage

/-- Sets the option of a name. -/
def BenchOptions.set (o : BenchOptions) (name value : String) :
    Except NoInvocation BenchOptions := do
  match name with
  | "engine" => return { o with engine := ← setOnce o.engine (engine? value) }
  | "producers" => return { o with producers := ← setOnce o.producers (number? value) }
  | "consumers" => return { o with consumers := ← setOnce o.consumers (number? value) }
  | "keys" => return { o with keys := ← setOnce o.keys (number? value) }
  | "messages" => return { o with messages := ← setOnce o.messages (number? value) }
  | _ => throw .usage

/-- Reads the arguments of a benchmark, at most `fuel` of them. -/
def readBench : Nat → List String → BenchOptions → Except NoInvocation BenchOptions
  | 0, _, o => .ok o
  | _, [], o => .ok o
  | fuel + 1, arg :: rest, o =>
    match Argument.ofText arg with
    | .separator => if rest.isEmpty then .ok o else .error .usage
    | .long "help" none => .error .help
    | .short ('h' :: _) => .error .help
    | .long name value =>
      match valueOf value rest with
      | .error e => .error e
      | .ok (v, rest) =>
        match o.set name v with
        | .error e => .error e
        | .ok o => readBench fuel rest o
    | _ => .error .usage

/-- Reads the arguments of a dump: the path of a snapshot, in the end. -/
def readDump : List String → Option String → Except NoInvocation String
  | [], some path => .ok path
  | [], none => .error .usage
  | arg :: rest, path =>
    match Argument.ofText arg, path, rest with
    | .separator, some p, [] => .ok p
    | .separator, none, [p] => if p.isEmpty then .error .usage else .ok p
    | .long "help" none, _, _ => .error .help
    | .short ('h' :: _), _, _ => .error .help
    | .plain p, none, rest => if p.isEmpty then .error .usage else readDump rest (some p)
    | _, _, _ => .error .usage

/-- The options in front of the command. -/
structure CommonOptions where
  config : Option String := none
  verbose : Bool := false

/-- Reads options of one letter. -/
def readShort : List Char → CommonOptions → Except NoInvocation CommonOptions
  | [], o => .ok o
  | 'v' :: rest, o => if o.verbose then .error .usage else readShort rest { o with verbose := true }
  | 'h' :: _, _ => .error .help
  | 'V' :: _, _ => .error .version
  | _, _ => .error .usage

/-- An invocation with the options in front of the command. -/
def CommonOptions.invoke (o : CommonOptions) (command : Command) : Invocation :=
  { config := o.config.getD "tspace.yml", verbose := o.verbose, command }

/-- Reads a command and its arguments. -/
def readCommand (name : String) (args : List String) (o : CommonOptions) :
    Except NoInvocation Invocation :=
  match name with
  | "bench" => (readBench args.length args {}).map fun b => o.invoke (.bench b.toBench)
  | "dump" => (readDump args none).map fun p => o.invoke (.dump p)
  | "help" =>
    let known := ["bench", "dump", "help"].contains (args.headD "help")
    .error (if known then .help else .usage)
  | _ => .error .usage

/-- Reads all arguments, at most `fuel` of them in front of the command. -/
def readArguments : Nat → List String → CommonOptions → Except NoInvocation Invocation
  | 0, _, _ => .error .usage
  | _, [], _ => .error .usage
  | fuel + 1, arg :: rest, o =>
    match Argument.ofText arg with
    | .separator => .error .usage
    | .long "verbose" none =>
      if o.verbose then .error .usage else readArguments fuel rest { o with verbose := true }
    | .long "help" none => .error .help
    | .long "version" none => .error .version
    | .long "config" value =>
      match valueOf value rest with
      | .error e => .error e
      | .ok (v, rest) =>
        if v.isEmpty || o.config.isSome then .error .usage
        else readArguments fuel rest { o with config := some v }
    | .long _ _ => .error .usage
    | .short letters =>
      match readShort letters o with
      | .error e => .error e
      | .ok o => readArguments fuel rest o
    | .plain name => readCommand name rest o

/-- The invocation that some arguments ask for. -/
def parse (args : List String) : Except NoInvocation Invocation :=
  readArguments (args.length + 1) args {}

end CommandLine

end TupleSpace
