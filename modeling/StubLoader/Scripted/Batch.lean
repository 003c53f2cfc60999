import StubLoader.Scripted.Host
/-!
# Batches on a scripted host

A scripted host never keeps a run waiting but by a process that does not end. So one round of
polls in the order of the requests brings every run to its end, to such a process, or leaves it
without a permit; after a cancellation a second round stops the rest.
-/

namespace StubLoader.Scripted

/-- When a batch is cancelled. -/
inductive Cancellation where
  /-- Never. -/
  | never
  /-- Before it begins. -/
  | before
  /-- By a process, if one does. -/
  | process
  /-- When nothing can go on any more, unless a process does it before. -/
  | stalled
  deriving DecidableEq

/-- Polls the tasks from `i` on, cancelling the token as soon as a process has done so. -/
def pollFrom (p : Pipeline) (i : Nat) : (count : Nat) → Batch → Scripted → Batch.Moved Scripted
  | 0, b, s => (b, [], s)
  | count + 1, b, s =>
    let (b, now, s) := b.poll host p i s
    let b := if s.cancelled then b.cancel else b
    let (b, later, s) := pollFrom p (i + 1) count b s
    (b, now ++ later, s)

/-- Polls every task once. -/
def round (p : Pipeline) (b : Batch) (s : Scripted) : Batch.Moved Scripted :=
  pollFrom p 0 b.tasks.length b s

/-- Runs a batch; nothing comes of one that needs too many permits. -/
def runBatch (p : Pipeline) (requests : List Request) (cancellation : Option Cancellation)
    (s : Scripted) : Option (Batch × List Entry) × Scripted :=
  let token : Token := match cancellation with
    | none => .absent
    | some .before => .cancelled
    | some _ => .live
  match Batch.start? p requests token with
  | none => (none, s)
  | some b =>
    let (b, first, s) := round p b { s with cancelled := false }
    let b := if cancellation = some .stalled then b.cancel else b
    let (b, second, s) := if b.token = .cancelled then round p b s else (b, [], s)
    (some (b, first ++ second ++ b.losses), s)

end StubLoader.Scripted
