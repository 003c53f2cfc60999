import StubLoader.Text.Utf8
/-!
# Paths

A path is any list of bytes. What it names is its list of components: the root, names, steps up,
and a leading step in place; repeated slashes, a trailing one and inner steps in place do not
count. Two spellings of one component list name the same file.
-/

namespace StubLoader

/-- A path as it is written. -/
structure Path where
  bytes : Bytes
  deriving DecidableEq

namespace Path

/-- The separator. -/
def slash : UInt8 := 47

/-- The full stop, which names the place itself and sets off extensions. -/
def dot : UInt8 := 46

/-- The path written as the given text. -/
def ofString (s : String) : Path := ⟨Utf8.ofString s⟩

/-- The path as a text, if it is one. -/
def toString? (p : Path) : Option String := (Utf8.toString? p.bytes).toOption

/-- The path as shown in messages. -/
def display (p : Path) : String := Utf8.toStringLossy p.bytes

/-- Whether nothing is written. -/
def isEmpty (p : Path) : Bool := p.bytes.isEmpty

/-- Whether the path starts at the root. -/
def isAbsolute (p : Path) : Bool := p.bytes.head? == some slash

/-! ### Components -/

/-- A step of a path. -/
inductive Component where
  /-- To the root. -/
  | root
  /-- Nowhere. -/
  | current
  /-- To the directory above. -/
  | parent
  /-- To the named entry. -/
  | name (bytes : Bytes)
  deriving DecidableEq

/-- The stretches between slashes. -/
def segments : Bytes → List Bytes
  | [] => [[]]
  | b :: r =>
    if b = slash then [] :: segments r
    else match segments r with
      | [] => [[b]]
      | s :: ss => (b :: s) :: ss

/-- The step that a segment stands for, if it is one. -/
def Component.ofSegment? (s : Bytes) : Option Component :=
  if s = [] then none
  else if s = [dot] then none
  else if s = [dot, dot] then some .parent
  else some (.name s)

/-- The steps of a path. -/
def components (p : Path) : List Component :=
  let ss := segments p.bytes
  let steps := ss.filterMap Component.ofSegment?
  if p.isAbsolute then .root :: steps
  else if ss.head? = some [dot] then .current :: steps
  else steps

/-- The step as it is written. -/
def Component.bytes : Component → Bytes
  | .root => [slash]
  | .current => [dot]
  | .parent => [dot, dot]
  | .name s => s

/-- Whether the step leads to a named entry. -/
def Component.isName : Component → Bool
  | .name _ => true
  | _ => false

/-- Stretches with slashes between them. -/
def joinSegments : List Bytes → Bytes
  | [] => []
  | [s] => s
  | s :: ss => s ++ slash :: joinSegments ss

/-- The plainest spelling of the steps. -/
def ofComponents : List Component → Path
  | .root :: cs => ⟨slash :: joinSegments (cs.map Component.bytes)⟩
  | cs => ⟨joinSegments (cs.map Component.bytes)⟩

/-! ### Joining -/

/-- `b` as seen from `a`: an absolute `b` stands for itself, any other is appended with a slash
between them unless `a` is empty or ends in one. -/
def join (a b : Path) : Path :=
  if b.isAbsolute then b
  else match a.bytes.getLast? with
    | none => b
    | some c => if c = slash then ⟨a.bytes ++ b.bytes⟩ else ⟨a.bytes ++ slash :: b.bytes⟩

/-- Joins one step. -/
def push (a : Path) (c : Component) : Path := a.join ⟨c.bytes⟩

/-! ### The directory above -/

/-- Whether a segment leads nowhere. -/
def isIdle (segment : Bytes) : Bool := segment = [] || segment = [dot]

/-- Reversed segments without the idle ones in front; a step in place that is all there is stays. -/
def dropIdle : List Bytes → List Bytes
  | [] => []
  | [s] => if s = [] then [] else [s]
  | s :: ss => if isIdle s then dropIdle ss else s :: ss

/-- The path up to its last step. -/
def parent? (p : Path) : Option Path :=
  match dropIdle (segments p.bytes).reverse with
  | [] => none
  | _ :: front =>
    match dropIdle front with
    | [] => some ⟨if p.isAbsolute then [slash] else []⟩
    | front => some ⟨joinSegments front.reverse⟩

/-! ### Comparing -/

/-- Whether the steps of `a` begin those of `b`. -/
def isUnder (b a : Path) : Bool := a.components.isPrefixOf b.components

/-- Whether two paths take the same steps. -/
def sameSteps (a b : Path) : Bool := a.components == b.components

/-- The place of a kind of step in the order of steps. -/
def Component.rank : Component → Nat
  | .root => 0
  | .current => 1
  | .parent => 2
  | .name _ => 3

/-- Byte lists in dictionary order. -/
def bytesLt : Bytes → Bytes → Bool
  | _, [] => false
  | [], _ :: _ => true
  | a :: as, b :: bs => a < b || (a == b && bytesLt as bs)

/-- The order of steps: by kind, names by their bytes. -/
def Component.lt (a b : Component) : Bool :=
  match a, b with
  | .name s, .name t => bytesLt s t
  | _, _ => a.rank < b.rank

/-- Step lists in dictionary order. -/
def stepsLt : List Component → List Component → Bool
  | _, [] => false
  | [], _ :: _ => true
  | a :: as, b :: bs => a.lt b || (a == b && stepsLt as bs)

/-! ### Parts of a path -/

/-- The normal steps joined by slashes, as shown in generated code. -/
def toSlash (cs : List Component) : String :=
  "/".intercalate <| cs.filterMap fun
    | .name s => some (Utf8.toStringLossy s)
    | _ => none

/-- The part of a file name before its last dot, unless that dot is absent or comes first. -/
def stem (name : Bytes) : Bytes :=
  let before := (name.reverse.dropWhile (· != dot)).drop 1
  if before.isEmpty then name else before.reverse

end Path

end StubLoader
