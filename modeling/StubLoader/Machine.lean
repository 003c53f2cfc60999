import StubLoader.Batch
import StubLoader.FileTree
/-!
# Machines

A machine has a file tree, a search path, and programs, each of which ends as soon as it is
started. It is a host for runs, and all that a command can ask of it is here.
-/

namespace StubLoader

/-- What a program does when it is run. -/
structure Machine.Behaviour where
  /-- The files that it writes, with the directories above them. -/
  writes : List (Path × Bytes)
  output : ProcessOutput

/-- A machine. -/
structure Machine where
  tree : FileTree
  /-- The current directory. -/
  cwd : Path
  /-- The directory for temporary files. -/
  temp : Path
  /-- The home directory, if there is one. -/
  home : Option Path
  /-- The directories in which programs are looked up by name. -/
  search : List Path
  /-- What a program does, given its file and its arguments, or why it cannot be started. -/
  behave : Bytes → List Bytes → Except IoError Machine.Behaviour
  /-- The arguments of all programs run so far, the latest first. -/
  calls : List (List Bytes)
  /-- The number of scratch directories made so far. -/
  made : Nat
  /-- What was printed. -/
  stdout : Bytes
  stderr : Bytes

namespace Machine

/-- Writes a file, in the place of what it held before; what goes to a device that prints is
printed. -/
def store (m : Machine) (path : Path) (bytes : Bytes) : Except IoError Unit × Machine :=
  match m.tree.store m.cwd path bytes false with
  | .error e => (.error e, m)
  | .ok tree => match m.tree.look m.cwd path with
    | .ok (.device .output) => (.ok (), { m with stdout := m.stdout ++ bytes })
    | .ok (.device .errorOutput) => (.ok (), { m with stderr := m.stderr ++ bytes })
    | _ => (.ok (), { m with tree })

/-! ### Scratch directories -/

/-- Six characters that no other scratch directory has in its name. -/
def tag (n : Nat) : String :=
  let ds := Nat.toDigits 10 n
  String.ofList (List.replicate (6 - ds.length) '0' ++ ds)

/-- The failure to make a directory of the given name. -/
def notMade (p : Path) (e : IoError) : IoError :=
  { e with text := e.text ++ " at path " ++ Text.quoteBytes p.bytes }

/-- Makes a directory with a name of its own below `root`, which is made if it is missing. -/
def createWorkspace (root : Path) (label : String) (m : Machine) : Except IoError Path × Machine :=
  match m.tree.makeDirectories m.cwd root with
  | (.error e, tree) => (.error e, { m with tree })
  | (.ok _, tree) =>
    let path := (m.cwd.join root).join (.ofString (label ++ tag m.made))
    match tree.makeDirectory m.cwd path with
    | .error e => (.error (notMade path e), { m with tree })
    | .ok tree => (.ok path, { m with tree, made := m.made + 1 })

/-- Removes a directory with all that is in it; one that is gone counts as removed. -/
def removeWorkspace (path : Path) (m : Machine) : Except IoError Unit × Machine :=
  match m.tree.remove m.cwd path with
  | (.error e, tree) => (if e.kind = .notFound then .ok () else .error e, { m with tree })
  | (.ok _, tree) => (.ok (), { m with tree })

/-! ### Programs -/

/-- A relative path with steps seen from the current directory, a leading step in place left out. -/
def anchored (m : Machine) (name : Path) : Path :=
  if name.isAbsolute then name
  else (name.components.dropWhile (· == .current)).foldl Path.push m.cwd

/-- Looks up an executable: a path of several steps as it is, a name in the search path. -/
def findExecutable (name : Path) (m : Machine) : Option Path :=
  let candidates :=
    if 1 < name.components.length then [m.anchored name]
    else m.search.map fun directory => (directory.fromHome m.home).join name
  candidates.find? (m.tree.isExecutable m.cwd)

/-- Writes the files of a program below the tree. -/
def write (m : Machine) (files : List (Path × Bytes)) : Machine :=
  files.foldl (fun m (path, bytes) =>
    let tree := match path.parent? with
      | some parent => (m.tree.makeDirectories m.cwd parent).2
      | none => m.tree
    { m with tree := (tree.store m.cwd path bytes false).toOption.getD tree }) m

/-- The failure of arguments that hold a byte which ends texts. -/
def zeroByte : IoError := ⟨.invalidInput, "nul byte found in provided data"⟩

/-- Runs a program to its end. -/
def runProcess (program : Path) (args : List Bytes) (m : Machine) :
    Except IoError ProcessOutput × Machine :=
  if program.bytes.contains 0 || args.any (·.contains 0) then (.error zeroByte, m)
  else match m.tree.look m.cwd program with
    | .error e => (.error e, m)
    | .ok .directory | .ok (.device _) => (.error .denied, m)
    | .ok (.file bytes executable) =>
      if !executable then (.error .denied, m)
      else match m.behave bytes args with
        | .error e => (.error e, m)
        | .ok behaviour =>
          (.ok behaviour.output, { m.write behaviour.writes with calls := args :: m.calls })

/-! ### As a host -/

/-- Answers a call. -/
def answer (call : Call) (m : Machine) : call.Answer × Machine :=
  match call with
  | .createWorkspace root label => m.createWorkspace root label
  | .findExecutable name => (m.findExecutable name, m)
  | .runProcess program args => m.runProcess program args
  | .loadFile path => (m.tree.load m.cwd path, m)
  | .removeWorkspace path => m.removeWorkspace path

/-- The machine as a host, which answers at once. -/
def host : Host Machine := Host.ofAnswers answer removeWorkspace

end Machine

end StubLoader
