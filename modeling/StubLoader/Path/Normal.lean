import StubLoader.Path.Basic
/-!
# Normal paths

Folding drops every step in place and every step up that follows a name, together with that name;
a step up from the root stays there. Nothing is looked up, so links are not followed.
-/

namespace StubLoader.Path

/-- Takes one more step on a folded path, whose last step comes first. -/
def foldStep : List Component → Component → List Component
  | steps, .current => steps
  | .name _ :: steps, .parent => steps
  | .root :: steps, .parent => .root :: steps
  | steps, c => c :: steps

/-- The folded steps. -/
def fold (cs : List Component) : List Component := (cs.foldl foldStep []).reverse

/-- The folded path in its plainest spelling. -/
def normalize (p : Path) : Path := ofComponents (fold p.components)

/-- Whether exactly two slashes begin the path, which may mean something of its own. -/
def hasDoubleRoot (p : Path) : Bool :=
  [slash, slash].isPrefixOf p.bytes && !([slash, slash, slash].isPrefixOf p.bytes)

/-- The path seen from the root, a relative one being joined to the current directory `cwd`.
Steps up are kept, and so are two leading slashes and a trailing one. -/
def anchor (cwd p : Path) : Path :=
  let steps := p.components.dropWhile (· == .current)
  let anchored :=
    if p.hasDoubleRoot then steps.tail.foldl push ⟨[slash, slash]⟩
    else if p.isAbsolute then steps.foldl push ⟨[]⟩
    else steps.foldl push cwd
  if p.bytes.getLast? = some slash then anchored.join ⟨[]⟩ else anchored

/-- The folded path seen from the root; the empty path has no place there. -/
def absolutize? (cwd p : Path) : Option Path :=
  if p.isEmpty then none else some (normalize (anchor cwd p))

/-- The path with its first step from the home directory, if that is written as a tilde. -/
def fromHome (home : Option Path) (p : Path) : Path :=
  match home.filter (!·.isEmpty), p.components with
  | some home, .name [0x7e] :: steps => steps.foldl push home
  | _, _ => p

end StubLoader.Path
