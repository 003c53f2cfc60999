import StubLoader.Batch
/-!
# Sinks

The warnings of the compiler go to a sink of the caller's choice while a batch is under way. Tasks
share the sink, which takes their warnings in the order in which they come up.
-/

namespace StubLoader

/-- What takes the warnings of runs; `τ` is all that it remembers. It says nothing back, so it
cannot fail a run. -/
structure Sink (τ : Type) where
  /-- Takes a warning. -/
  take : Warning → τ → τ

/-- The warnings among entries, in order. -/
def Batch.warnings (entries : List Entry) : List Warning :=
  entries.filterMap fun entry => entry.notice.warning?

namespace Sink

/-- Keeps the warnings. -/
def collecting : Sink (List Warning) := ⟨fun warning kept => kept ++ [warning]⟩

/-- Passes the warnings on to a log. -/
def logging : Sink (List Event) := ⟨fun warning log => log ++ [.warned warning]⟩

variable {τ : Type}

/-- Takes warnings one after the other. -/
def takeAll (sink : Sink τ) (warnings : List Warning) (t : τ) : τ :=
  warnings.foldl (fun t warning => sink.take warning t) t

end Sink

/-- Does the moves of a schedule in turn, each warning going to the sink as it comes up. -/
def Batch.playInto {σ τ : Type} (sink : Sink τ) (host : Host σ) (p : Pipeline) :
    List Move → Batch → σ → τ → Moved σ × τ
  | [], b, s, t => ((b, [], s), t)
  | m :: ms, b, s, t =>
    let (b, now, s) := b.move host p s m
    let ((b, later, s), t) := playInto sink host p ms b s (sink.takeAll (warnings now) t)
    ((b, now ++ later, s), t)

end StubLoader
