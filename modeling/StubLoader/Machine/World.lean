import StubLoader.Machine
import StubLoader.World
/-!
# Commands on a machine

A machine does all that a command asks for. Its programs end at once, so a batch is over when every
task has been polled once.
-/

namespace StubLoader

/-- What a run answers that came as far as it did. -/
def Run.Progress.outcome : Run.Progress → Outcome Bytes
  | .finished result => result
  | .suspended _ | .crashed _ => .error (.task .unfinished)

namespace Machine

/-- Runs a request. -/
def runOne (p : Pipeline) (request : Request) (m : Machine) :
    (Outcome Bytes × List Notice) × Machine :=
  let (progress, notices, m) := p.run host request m
  ((progress.outcome, notices), m)

/-- Runs a batch. -/
def runAll (p : Pipeline) (requests : List Request) (m : Machine) :
    Option (List (Outcome Bytes) × List Entry) × Machine :=
  match Batch.start? p requests .live with
  | none => (none, m)
  | some b =>
    let (b, entries, m) := b.play host p (Batch.inOrder requests.length) m
    (b.results?.map fun results => (results, entries ++ b.losses), m)

/-- The machine as a world. -/
def world : World (StateM Machine) where
  isFile path m := (m.tree.isFile m.cwd path, m)
  load path m := (m.tree.load m.cwd path, m)
  makeDirectories path m :=
    let (r, tree) := m.tree.makeDirectories m.cwd path
    (r, { m with tree })
  store path bytes m := m.store path bytes
  find name m := (m.findExecutable name, m)
  run := runOne
  runAll := runAll
  print bytes m := ((), { m with stdout := m.stdout ++ bytes })
  printError bytes m := ((), { m with stderr := m.stderr ++ bytes })

end Machine

end StubLoader
