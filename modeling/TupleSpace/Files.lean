/-!
# Files

A small tree of text files below a working directory, with the few operations that snapshots and
configurations need.  Paths are texts; empty parts and single dots in them mean nothing, and two
dots lead to the parent.  The empty path leads nowhere.
-/

namespace TupleSpace

/-- What stands at a path. -/
inductive FileNode where
  | directory
  | file (text : String)
deriving DecidableEq, Repr

/-- Why an operation on files failed. -/
inductive FileError where
  | notFound
  | notADirectory
  | isADirectory
deriving DecidableEq, Repr

/-- The reason in words. -/
def FileError.message : FileError → String
  | notFound => "No such file or directory (os error 2)"
  | notADirectory => "Not a directory (os error 20)"
  | isADirectory => "Is a directory (os error 21)"

/-- The files and directories below the working directory, by the parts of their paths. -/
structure Files where
  nodes : List (List String × FileNode) := []
deriving DecidableEq, Repr

namespace Files

instance : Inhabited Files := ⟨{}⟩

/-- Adds one part to a path. -/
def addPart (path : List String) (part : String) : List String :=
  if part == "" || part == "." then path
  else if part == ".." then path.dropLast
  else path ++ [part]

/-- The stretches of a text between slashes, as many as there are slashes and one more. -/
def stretches : List Char → List (List Char)
  | [] => [[]]
  | c :: cs =>
    if c == '/' then [] :: stretches cs
    else
      match stretches cs with
      | [] => [[c]]
      | first :: rest => (c :: first) :: rest

/-- What stands between the slashes of a path. -/
def pieces (path : String) : List String :=
  (stretches path.toList).map String.ofList

/-- The parts of a path. -/
def parts (path : String) : List String :=
  (pieces path).foldl addPart []

/-- Whether a path can only lead to a directory. -/
def wantsDirectory (path : String) : Bool :=
  match (pieces path).getLast? with
  | some part => part == "" || part == "." || part == ".."
  | none => true

/-- What stands at the parts of a path. -/
def node? (f : Files) (path : List String) : Option FileNode :=
  if path.isEmpty then some .directory
  else (f.nodes.find? fun n => n.1 == path).map Prod.snd

/-- The directories above the end of a path, the outermost first, without the working directory. -/
def above (path : List String) : List (List String) :=
  (List.range (path.length - 1)).map fun n => path.take (n + 1)

/-- Whether a file stands somewhere above the end of a path. -/
def blocked (f : Files) (path : List String) : Bool :=
  (above path).any fun above =>
    match f.node? above with
    | some (.file _) => true
    | _ => false

/-- What stands at a path. -/
def lookup (f : Files) (path : String) : Except FileError FileNode :=
  if path == "" then .error .notFound
  else if f.blocked (parts path) then .error .notADirectory
  else
    match f.node? (parts path) with
    | none => .error .notFound
    | some .directory => .ok .directory
    | some (.file text) => if wantsDirectory path then .error .notADirectory else .ok (.file text)

/-- Whether anything stands at a path. -/
def exists? (f : Files) (path : String) : Bool :=
  (f.lookup path).toOption.isSome

/-- Whether a file stands at a path. -/
def isFile (f : Files) (path : String) : Bool :=
  match f.lookup path with
  | .ok (.file _) => true
  | _ => false

/-- The text of the file at a path. -/
def read (f : Files) (path : String) : Except FileError String :=
  match f.lookup path with
  | .ok (.file text) => .ok text
  | .ok .directory => .error .isADirectory
  | .error e => .error e

/-- Puts a node at the parts of a path. -/
def set (f : Files) (path : List String) (n : FileNode) : Files :=
  { nodes := (f.nodes.filter fun x => x.1 != path) ++ [(path, n)] }

/-- Makes the directories of a path that are missing. -/
def makeParts (f : Files) (path : List String) : Except FileError Files :=
  (above path ++ if path.isEmpty then [] else [path]).foldlM
    (fun f p =>
      match f.node? p with
      | some .directory => .ok f
      | some (.file _) => .error .notADirectory
      | none => .ok (f.set p .directory)) f

/-- Makes a directory and whatever is missing above it. -/
def makeDirectory (f : Files) (path : String) : Except FileError Files :=
  if path == "" then .error .notFound else f.makeParts (parts path)

/-- Writes a file into a directory that exists. -/
def write (f : Files) (path text : String) : Except FileError Files :=
  if path == "" then .error .notFound
  else if wantsDirectory path then .error .isADirectory
  else
    match f.node? (parts path).dropLast with
    | some .directory =>
      match f.node? (parts path) with
      | some .directory => .error .isADirectory
      | _ => .ok (f.set (parts path) (.file text))
    | some (.file _) => .error .notADirectory
    | none => if f.blocked (parts path) then .error .notADirectory else .error .notFound

/-- Makes the directories above the end of a path that are missing, unless a file is in the way. -/
def withParents (f : Files) (path : String) : Files :=
  (f.makeParts (parts path).dropLast).toOption.getD f

/-- Writes a file and makes the directories above it. -/
def writeDeep (f : Files) (path text : String) : Except FileError Files := do
  let f ← f.makeParts (parts path).dropLast
  f.write path text

end Files

end TupleSpace
