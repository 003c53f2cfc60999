import StubLoader.Run
/-!
# Workspaces

A workspace is a scratch directory with one owner, who gives it back. One that is dropped instead
is discarded.
-/

namespace StubLoader

/-- A scratch directory with an owner. -/
structure Workspace where
  path : Path
  deriving DecidableEq

namespace Workspace

/-- The workspace as a debugging message shows it while it has its owner. -/
def describe (w : Workspace) : String :=
  "Workspace \x7b path: " ++ Text.quoteBytes w.path.bytes ++ ", released: false \x7d"

/-- What the making of a directory answers, and what is logged of it. -/
def made : Except IoError Path → Outcome Workspace × List Event
  | .error e => (.error (.io e), [])
  | .ok path => (.ok ⟨path⟩, [.workspaceAcquired path])

/-- Makes a workspace below `root`. -/
def acquire {σ : Type} (host : Host σ) (root : Path) (label : String) (s : σ) :
    Reply (Outcome Workspace × List Event) × σ :=
  (host.start (.createWorkspace root label) s).map (Reply.map made) id

/-- What the removal of a directory answers, and what is logged of it. -/
def removed (w : Workspace) : Except IoError Unit → Outcome Unit × List Event
  | .error e => (.error (.io e), [])
  | .ok () => (.ok (), [.workspaceReleased w.path])

/-- Gives a workspace back. -/
def release {σ : Type} (host : Host σ) (w : Workspace) (s : σ) :
    Reply (Outcome Unit × List Event) × σ :=
  (host.start (.removeWorkspace w.path) s).map (Reply.map w.removed) id

/-- Drops a workspace. -/
def drop {σ : Type} (host : Host σ) (w : Workspace) (s : σ) : List Event × σ :=
  let (answer, s) := host.discard w.path s
  ([Run.discarded w.path answer], s)

end Workspace

end StubLoader
