import StubLoader.Json.Reader
import StubLoader.Pattern.Basic
import StubLoader.Text.Blank
/-!
# Atoms of patterns

The characters that stand for one character, for a class or for a condition, with the options that
decide what they mean. There are no tables of letters in other scripts behind patterns: what would
need one is refused, unless an option limits the pattern to ASCII. A pattern limited that way may
not ask for bytes beyond ASCII either.
-/

namespace StubLoader.Pattern

/-- The options in force at a place of a pattern. -/
structure Options where
  anyCase : Bool := false
  /-- Whether `^` and `$` are about lines. -/
  lines : Bool := false
  /-- Whether a dot stands for line feeds as well. -/
  everyDot : Bool := false
  /-- Whether short repetitions are preferred. -/
  short : Bool := false
  /-- Whether characters beyond ASCII count. -/
  unicode : Bool := true
  /-- Whether a carriage return ends a line. -/
  carriage : Bool := false
  /-- Whether blanks and comments may stand between the parts of a pattern. -/
  spaced : Bool := false
  deriving DecidableEq

/-- The options with the one of a letter set. -/
def Options.set? (o : Options) (value : Bool) (letter : Char) : Option Options :=
  match letter with
  | 'i' => some { o with anyCase := value }
  | 'm' => some { o with lines := value }
  | 's' => some { o with everyDot := value }
  | 'U' => some { o with short := value }
  | 'u' => some { o with unicode := value }
  | 'R' => some { o with carriage := value }
  | 'x' => some { o with spaced := value }
  | _ => none

/-- The text after the blanks and comments at its start; `inComment` says whether a comment is
open. -/
def afterSpace : (inComment : Bool) → List Char → List Char
  | _, [] => []
  | true, c :: cs => afterSpace (c ≠ '\n') cs
  | false, c :: cs =>
    if Text.isBlank c then afterSpace false cs
    else if c = '#' then afterSpace true cs
    else c :: cs

/-- The text after what does not count. -/
def Options.skip (o : Options) (cs : List Char) : List Char :=
  if o.spaced then afterSpace false cs else cs

/-! ### Classes with names -/

/-- ASCII. -/
def ascii : CharClass := .range 0 0x7f

/-- Decimal digits. -/
def digit : CharClass := .range 0x30 0x39

/-- Latin letters. -/
def letter : CharClass := .ofRanges [(0x41, 0x5a), (0x61, 0x7a)]

/-- The characters of words. -/
def wordChar : CharClass := .union (.union letter digit) (.single '_')

/-- Blanks and line ends. -/
def space : CharClass := .ofRanges [(0x09, 0x0d), (0x20, 0x20)]

/-- The ASCII classes with names. -/
def namedClasses : List (String × CharClass) :=
  [("alnum", .union letter digit), ("alpha", letter), ("ascii", ascii),
    ("blank", .ofRanges [(0x09, 0x09), (0x20, 0x20)]),
    ("cntrl", .ofRanges [(0, 0x1f), (0x7f, 0x7f)]), ("digit", digit),
    ("graph", .range 0x21 0x7e), ("lower", .range 0x61 0x7a), ("print", .range 0x20 0x7e),
    ("punct", .ofRanges [(0x21, 0x2f), (0x3a, 0x40), (0x5b, 0x60), (0x7b, 0x7e)]),
    ("space", space), ("upper", .range 0x41 0x5a), ("word", wordChar),
    ("xdigit", .ofRanges [(0x30, 0x39), (0x41, 0x46), (0x61, 0x66)])]

/-- The class, if it may be used: without characters beyond ASCII it must hold no byte that is none
of ASCII. -/
def Options.admit? (o : Options) (c : CharClass) : Option CharClass :=
  if o.unicode || (List.range 128).all (fun n => !c.holds (128 + n)) then some c else none

/-- The class with its letters in both cases where the case does not count. -/
def Options.fold (o : Options) (c : CharClass) : CharClass := if o.anyCase then .anyCase c else c

/-- The class that the case of letters is put into; all scripts have cases. -/
def Options.fold? (o : Options) (c : CharClass) : Option CharClass :=
  if o.anyCase && o.unicode then none else some (o.fold c)

/-! ### Atoms -/

/-- What an atom stands for. -/
inductive Atom where
  | char (c : Char)
  | set (c : CharClass)
  | look (l : Look)

/-- The character of a code with `count` hexadecimal digits. -/
def code? (count : Nat) (cs : List Char) : Option (Char × List Char) := do
  let digits ← (cs.take count).mapM Json.hexValue?
  guard (digits.length = count)
  let n := digits.foldl (fun n d => n * 16 + d) 0
  guard n.isValidChar
  return (Char.ofNat n, cs.drop count)

/-- A class of ASCII, for which there has to be the option. -/
def Options.asciiSet? (o : Options) (c : CharClass) : Option Atom :=
  if o.unicode then none else some (.set c)

/-- A condition on words of ASCII, for which there has to be the option. -/
def Options.wordLook? (o : Options) (l : Look) : Option Atom :=
  if o.unicode then none else some (.look l)

/-- The atom after a backslash. -/
def Options.escape? (o : Options) : List Char → Option (Atom × List Char)
  | [] => none
  | c :: cs =>
    match c with
    | 'd' => (o.asciiSet? digit).map (·, cs)
    | 's' => (o.asciiSet? space).map (·, cs)
    | 'w' => (o.asciiSet? wordChar).map (·, cs)
    | 'x' => do
      let (c, cs) ← code? 2 cs
      guard (o.unicode || c.toNat < 0x80)
      return (.char c, cs)
    | 'u' => (code? 4 cs).map fun (c, cs) => (.char c, cs)
    | 'U' => (code? 8 cs).map fun (c, cs) => (.char c, cs)
    | 'a' => some (.char '\x07', cs)
    | 'f' => some (.char '\x0c', cs)
    | 't' => some (.char '\t', cs)
    | 'n' => some (.char '\n', cs)
    | 'r' => some (.char '\r', cs)
    | 'v' => some (.char '\x0b', cs)
    | 'A' => some (.look .textStart, cs)
    | 'z' => some (.look .textEnd, cs)
    | 'b' => (o.wordLook? .wordEdge).map (·, cs)
    | 'B' => (o.wordLook? .noWordEdge).map (·, cs)
    | '<' => (o.wordLook? .wordStart).map (·, cs)
    | '>' => (o.wordLook? .wordEnd).map (·, cs)
    | c => if c.toNat < 0x80 && !c.isAlphanum then some (.char c, cs) else none

end StubLoader.Pattern
