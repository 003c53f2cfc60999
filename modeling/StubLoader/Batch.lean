import StubLoader.Run
/-!
# Batches

A batch runs many requests side by side, each as a task of its own, and answers in the order of the
requests. A run needs a permit to begin and gives it back when it is over, fails, crashes or is
stopped. Tasks are polled in any order; a task that is polled goes on as far as its host answers
at once, and hands over its result when it ends. A batch may have a token, and once that is
cancelled every task stops when it is next polled.
-/

namespace StubLoader

/-- Where a request of a batch has come to. -/
inductive Task where
  /-- It has no permit yet. -/
  | waiting (request : Request)
  /-- It holds a permit, and a call of its run is outstanding. -/
  | running (run : Run)
  /-- It has its result. -/
  | settled (result : Outcome Bytes)
  /-- Its run crashed. -/
  | lost

namespace Task

/-- Whether the task holds a permit between two polls. -/
def isRunning : Task → Bool
  | .running _ => true
  | _ => false

/-- Whether the task is over. -/
def isEnded : Task → Bool
  | .waiting _ | .running _ => false
  | .settled _ | .lost => true

end Task

/-- What a task hands over when it ends. -/
inductive Joined where
  /-- The place of its request, and its result. -/
  | done (index : Nat) (result : Outcome Bytes)
  /-- Nothing: its run crashed. -/
  | lost

/-- What the task of the request at `i` hands over, if it has ended. -/
def Task.joined? (i : Nat) : Task → Option Joined
  | .waiting _ | .running _ => none
  | .settled result => some (.done i result)
  | .lost => some .lost

namespace Joined

/-- Whether the run crashed. -/
def isLost : Joined → Bool
  | .done .. => false
  | .lost => true

/-- Puts a result in its place. -/
def store (slots : List (Option (Outcome Bytes))) : Joined → List (Option (Outcome Bytes))
  | .done i result => slots.set i (some result)
  | .lost => slots

/-- The results by their places; a place for which there is none had a run that crashed. -/
def gather (count : Nat) (joined : List Joined) : List (Outcome Bytes) :=
  (joined.foldl store (List.replicate count none)).map fun slot =>
    slot.getD (.error (.task .unfinished))

end Joined

/-- What tells the tasks of a batch to stop. -/
inductive Token where
  /-- Nothing can. -/
  | absent
  /-- Not said yet. -/
  | live
  /-- Said. -/
  | cancelled
  deriving DecidableEq

/-- Says to stop, if there is a way to. -/
def Token.cancel : Token → Token
  | .absent => .absent
  | .live | .cancelled => .cancelled

/-- A batch under way. -/
structure Batch where
  tasks : List Task
  /-- The permits that no task holds. -/
  free : Nat
  token : Token
  /-- What the tasks that have ended handed over, in the order in which they did. -/
  joined : List Joined

/-- A notice, with the request whose run it is from. -/
structure Entry where
  request : Option Request
  notice : Notice
  deriving DecidableEq

namespace Batch

/-- The most permits that there can be. -/
def maxPermits : Nat := (1 <<< 61) - 1

/-- The permits of a batch. -/
def permits (p : Pipeline) : Nat := max 1 p.settings.maxConcurrentRuns

/-- The batch before the first poll, unless it would need more permits than there can be. -/
def start? (p : Pipeline) (requests : List Request) (token : Token) : Option Batch :=
  if permits p ≤ maxPermits then some ⟨requests.map .waiting, permits p, token, []⟩ else none

/-- Replaces a task, which hands over its result if it has ended. -/
def put (b : Batch) (i : Nat) (task : Task) : Batch :=
  { b with tasks := b.tasks.set i task, joined := b.joined ++ (task.joined? i).toList }

/-- Replaces a task that held a permit by one that does not. -/
def settle (b : Batch) (i : Nat) (task : Task) : Batch :=
  { b.put i task with free := b.free + 1 }

/-- Notices of one run as entries. -/
def entries (request : Request) (notices : List Notice) : List Entry :=
  notices.map fun notice => ⟨some request, notice⟩

/-- What a batch looks like after a poll, what was reported, and the host. -/
abbrev Moved (σ : Type) := Batch × List Entry × σ

/-- Stops a run: its directory is discarded and its permit given back. -/
def stop {σ : Type} (host : Host σ) (b : Batch) (i : Nat) (run : Run) (task : Task)
    (s : σ) : Moved σ :=
  let (notices, s) := run.abandon host s
  (b.settle i task, entries run.request notices, s)

/-- Goes on with a run that holds a permit. -/
def goOn {σ : Type} (host : Host σ) (p : Pipeline) (b : Batch) (i : Nat) (run : Run)
    (issued : Bool) (s : σ) : Moved σ :=
  match run.poll host p issued s with
  | (.finished result, notices, s) => (b.settle i (.settled result), entries run.request notices, s)
  | (.suspended now, notices, s) => (b.put i (.running now), entries run.request notices, s)
  | (.crashed now, notices, s) =>
    let (b, later, s) := b.stop host i now .lost s
    (b, entries run.request notices ++ later, s)

/-- Polls a task. -/
def poll {σ : Type} (host : Host σ) (p : Pipeline) (b : Batch) (i : Nat) (s : σ) : Moved σ :=
  match b.tasks[i]? with
  | some (.waiting request) =>
    if b.token = .cancelled then (b.put i (.settled (.error .cancelled)), [], s)
    else match b.free with
      | 0 => (b, [], s)
      | free + 1 =>
        let (b, later, s) := { b with free }.goOn host p i (.initial request) false s
        (b, entries request [.event .started] ++ later, s)
  | some (.running run) =>
    if b.token = .cancelled then b.stop host i run (.settled (.error .cancelled)) s
    else b.goOn host p i run true s
  | some (.settled _) | some .lost | none => (b, [], s)

/-- Cancels the token. -/
def cancel (b : Batch) : Batch := { b with token := b.token.cancel }

/-- A step of a schedule. -/
inductive Move where
  | poll (task : Nat)
  | cancel
  deriving DecidableEq

/-- Does one move. -/
def move {σ : Type} (host : Host σ) (p : Pipeline) (b : Batch) (s : σ) : Move → Moved σ
  | .poll i => b.poll host p i s
  | .cancel => (b.cancel, [], s)

/-- Does the moves of a schedule in turn. -/
def play {σ : Type} (host : Host σ) (p : Pipeline) : List Move → Batch → σ → Moved σ
  | [], b, s => (b, [], s)
  | m :: ms, b, s =>
    let (b, now, s) := b.move host p s m
    let (b, later, s) := play host p ms b s
    (b, now ++ later, s)

/-- The results in the order of the requests, once every task has ended. -/
def results? (b : Batch) : Option (List (Outcome Bytes)) :=
  if b.tasks.all Task.isEnded then some (Joined.gather b.tasks.length b.joined) else none

/-- What is reported of the tasks whose runs crashed. -/
def losses (b : Batch) : List Entry :=
  (b.joined.filter Joined.isLost).map fun _ => ⟨none, .event .taskUnfinished⟩

/-- The schedule that polls `n` tasks once each, the first one first. -/
def inOrder (n : Nat) : List Move := (List.range n).map .poll

end Batch

end StubLoader
