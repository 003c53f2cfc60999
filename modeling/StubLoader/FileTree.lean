import StubLoader.Failure
/-!
# File trees

A tree of directories and files, with the answers that a system gives to paths into it. A place in
the tree is the list of names that lead to it from the root. Every step of a path, a step in place
and a slash at the end included, has to start from a directory. Names and paths have a greatest
length.
-/

namespace StubLoader

namespace IoError

/-- A failure that the system reports by number. -/
def ofSystem (kind : IoKind) (text : String) (number : Nat) : IoError :=
  ⟨kind, text ++ " (os error " ++ toString number ++ ")"⟩

def noEntry : IoError := ofSystem .notFound "No such file or directory" 2
def notRunnable : IoError := ofSystem .uncategorized "Exec format error" 8
def denied : IoError := ofSystem .permissionDenied "Permission denied" 13
def taken : IoError := ofSystem .alreadyExists "File exists" 17
def noDirectory : IoError := ofSystem .notADirectory "Not a directory" 20
def directory : IoError := ofSystem .isADirectory "Is a directory" 21
def noSpace : IoError := ofSystem .storageFull "No space left on device" 28
def invalid : IoError := ofSystem .invalidInput "Invalid argument" 22
def tooLong : IoError := ofSystem .invalidFilename "File name too long" 36

/-- The failure of a path that holds a byte which ends names. -/
def zeroByte : IoError := ⟨.invalidInput, "file name contained an unexpected NUL byte"⟩

end IoError

namespace FileTree

/-- Names from the root on. -/
abbrev Place := List Bytes

/-- What can be written to but keeps nothing. -/
inductive Device where
  /-- Takes everything. -/
  | null
  /-- Has no room for anything. -/
  | full
  /-- Prints. -/
  | output
  /-- Prints on the error stream. -/
  | errorOutput
  deriving DecidableEq

/-- What is at a place. -/
inductive Node where
  | directory
  | file (bytes : Bytes) (executable : Bool)
  | device (device : Device)
  deriving DecidableEq

end FileTree

/-- What is at every place but the root, which is a directory. -/
structure FileTree where
  nodes : List (FileTree.Place × FileTree.Node)

namespace FileTree

/-- The tree with nothing in it. -/
def empty : FileTree := ⟨[]⟩

/-- What is at a place. -/
def node? (t : FileTree) (place : Place) : Option Node :=
  if place = [] then some .directory else t.nodes.lookup place

/-- Puts something at a place. -/
def put (t : FileTree) (place : Place) (node : Node) : FileTree :=
  ⟨(place, node) :: t.nodes.filter (·.1 ≠ place)⟩

/-- Takes away a place and all below it. -/
def prune (t : FileTree) (place : Place) : FileTree :=
  ⟨t.nodes.filter fun entry => !place.isPrefixOf entry.1⟩

/-- Takes away all that is below a place. -/
def clear (t : FileTree) (place : Place) : FileTree :=
  ⟨t.nodes.filter fun entry => entry.1 = place || !place.isPrefixOf entry.1⟩

/-! ### Following paths -/

/-- Fails unless a place is a directory. -/
def checkDirectory (t : FileTree) (place : Place) : Except IoError Unit :=
  match t.node? place with
  | some .directory => .ok ()
  | some (.file ..) | some (.device _) => .error .noDirectory
  | none => .error .noEntry

/-- The greatest length of a name. -/
def maxName : Nat := 255

/-- The greatest length of a path. -/
def maxPath : Nat := 4095

/-- One step from a place. -/
def step (t : FileTree) (place : Place) (segment : Bytes) : Except IoError Place := do
  t.checkDirectory place
  if Path.isIdle segment then return place
  if segment = [Path.dot, Path.dot] then return place.dropLast
  if maxName < segment.length then throw .tooLong
  if (t.node? (place ++ [segment])).isSome then return place ++ [segment]
  throw .noEntry

/-- The names of a path that stays below the root. -/
def placeOf (p : Path) : Place :=
  p.components.filterMap fun
    | .name s => some s
    | _ => none

/-- Where a path starts. -/
def origin (cwd p : Path) : Place := if p.isAbsolute then [] else placeOf cwd

/-- Fails for paths that no system takes. -/
def checkPath (p : Path) : Except IoError Unit :=
  if p.bytes.contains 0 then .error .zeroByte
  else if p.isEmpty then .error .noEntry
  else if maxPath < p.bytes.length then .error .tooLong
  else .ok ()

/-- The place that a path leads to. -/
def resolve (t : FileTree) (cwd p : Path) : Except IoError Place := do
  checkPath p
  (Path.segments p.bytes).foldlM t.step (origin cwd p)

/-- What a path leads to. -/
def look (t : FileTree) (cwd p : Path) : Except IoError Node := do
  match t.node? (← t.resolve cwd p) with
  | some node => return node
  | none => throw .noEntry

/-- Whether a path leads to a directory. -/
def isDirectory (t : FileTree) (cwd p : Path) : Bool :=
  match t.look cwd p with
  | .ok .directory => true
  | _ => false

/-- Whether a path leads to a file. -/
def isFile (t : FileTree) (cwd p : Path) : Bool :=
  match t.look cwd p with
  | .ok (.file ..) => true
  | _ => false

/-- Whether a path leads to a file that can be run. -/
def isExecutable (t : FileTree) (cwd p : Path) : Bool :=
  match t.look cwd p with
  | .ok (.file _ executable) => executable
  | _ => false

/-- The content of the file that a path leads to. -/
def load (t : FileTree) (cwd p : Path) : Except IoError Bytes := do
  match ← t.look cwd p with
  | .directory => throw .directory
  | .file bytes _ => return bytes
  | .device _ => return []

/-! ### Making entries -/

/-- The place of a new entry: the directory that a path but for its last name leads to, and that
name. A path that ends in a step without a name leads to something that is there. -/
def newPlace (t : FileTree) (cwd p : Path) (last : Bytes) (front : List Bytes) (found : IoError) :
    Except IoError Place := do
  if Path.isIdle last ∨ last = [Path.dot, Path.dot] then
    let _ ← t.resolve cwd p
    throw found
  let directory ← front.foldlM t.step (origin cwd p)
  t.checkDirectory directory
  if maxName < last.length then throw .tooLong
  return directory ++ [last]

/-- Makes a directory; slashes may stand at the end of the path. -/
def makeDirectory (t : FileTree) (cwd p : Path) : Except IoError FileTree := do
  checkPath p
  match (Path.segments p.bytes).reverse.dropWhile (· = []) with
  | [] => throw .taken
  | last :: front =>
    let place ← t.newPlace cwd p last front.reverse .taken
    if (t.node? place).isSome then throw .taken
    return t.put place .directory

/-- Makes a directory and those above it, as far as they are missing. What was made before a
failure stays. -/
def makeAll (cwd : Path) : (steps : Nat) → Path → FileTree → Except IoError Unit × FileTree
  | 0, _, t => (.ok (), t)
  | steps + 1, p, t =>
    if p.isEmpty then (.ok (), t)
    else match t.makeDirectory cwd p with
      | .ok t => (.ok (), t)
      | .error e =>
        if e.kind ≠ .notFound then (if t.isDirectory cwd p then .ok () else .error e, t)
        else match p.parent? with
          | none => (.error ⟨.uncategorized, "failed to create whole tree"⟩, t)
          | some parent =>
            match makeAll cwd steps parent t with
            | (.error e, t) => (.error e, t)
            | (.ok _, t) => match t.makeDirectory cwd p with
              | .ok t => (.ok (), t)
              | .error e => (if t.isDirectory cwd p then .ok () else .error e, t)

/-- Makes a directory and those above it, as far as they are missing. -/
def makeDirectories (t : FileTree) (cwd p : Path) : Except IoError Unit × FileTree :=
  makeAll cwd (p.bytes.length + 1) p t

/-- Writes a file, in the place of what it held before. -/
def store (t : FileTree) (cwd p : Path) (bytes : Bytes) (executable : Bool) :
    Except IoError FileTree := do
  checkPath p
  let segments := (Path.segments p.bytes).reverse
  match segments.dropWhile (· = []) with
  | [] => throw .directory
  | last :: front =>
    if segments.head? = some [] then
      t.checkDirectory (← front.reverse.foldlM t.step (origin cwd p))
      throw .directory
    let place ← t.newPlace cwd p last front.reverse .directory
    match t.node? place with
    | some .directory => throw .directory
    | some (.device .full) => if bytes.isEmpty then return t else throw .noSpace
    | some (.device _) => return t
    | some (.file _ executable) => return t.put place (.file bytes executable)
    | none => return t.put place (.file bytes executable)

/-- Removes a directory with all that is in it. What is in it goes first, and then the path is
followed anew for the directory to go too: where it leads nowhere by then the directory stays, and
a path that ends in a step in place is a failure. -/
def remove (t : FileTree) (cwd p : Path) : Except IoError Unit × FileTree :=
  match t.resolve cwd p >>= fun place => (t.checkDirectory place).map fun _ => place with
  | .error e => (.error e, t)
  | .ok place =>
    let cleared := t.clear place
    match (Path.segments p.bytes).reverse.dropWhile (· = []) with
    | [] => (.ok (), cleared)
    | last :: front =>
      if (front.reverse.foldlM cleared.step (origin cwd p)).toOption.isNone then (.ok (), cleared)
      else if last = [Path.dot] then (.error .invalid, cleared)
      else if last = [Path.dot, Path.dot] then (.ok (), cleared)
      else (.ok (), cleared.prune place)

/-- The files of a tree. -/
def files (t : FileTree) : List (Place × Bytes) :=
  t.nodes.filterMap fun
    | (place, .file bytes _) => some (place, bytes)
    | _ => none

end FileTree

end StubLoader
