import StubLoader.Pattern.Atom
/-!
# Classes in brackets

A class in brackets lists characters, ranges, classes with names and other classes in brackets. A
circumflex at the front takes all other characters. Between lists may stand `&&` for what both
hold, `--` for what only the first holds, and `~~` for what just one holds.
-/

namespace StubLoader.Pattern

/-- A class with a name, after its opening bracket. -/
def named? (cs : List Char) : Option (CharClass × List Char) :=
  match cs with
  | ':' :: cs =>
    let negated := cs.head? = some '^'
    let cs := if negated then cs.tail else cs
    match cs.dropWhile (· ≠ ':') with
    | ':' :: ']' :: rest =>
      (namedClasses.lookup (String.ofList (cs.takeWhile (· ≠ ':')))).map fun c =>
        (if negated then .not c else c, rest)
    | _ => none
  | _ => none

/-- An atom in brackets, which is no condition. -/
def bracketAtom? (o : Options) (cs : List Char) : Option (Atom × List Char) := do
  let (atom, cs) ← match cs with
    | [] => none
    | '\\' :: cs => o.escape? cs
    | c :: cs => some (Atom.char c, cs)
  match atom with
  | .char c =>
    guard (o.unicode || c.toNat < 0x80)
    return (atom, cs)
  | .set _ => return (atom, cs)
  | .look _ => none

/-- A character, a range or a class of one letter. -/
def bracketItem? (o : Options) (cs : List Char) : Option (CharClass × List Char) := do
  let (first, cs) ← bracketAtom? o cs
  let later := o.skip cs
  let next := (o.skip later.tail).head?
  if later.isEmpty then none
  else if later.head? = some '-' && next ≠ some ']' && next ≠ some '-' then
    let (last, cs) ← bracketAtom? o (o.skip later.tail)
    match first, last with
    | .char a, .char b =>
      guard (a ≤ b)
      return (.range a.toNat b.toNat, cs)
    | _, _ => none
  else match first with
    | .char c => return (.single c, cs)
    | .set c => return (c, cs)
    | .look _ => none

/-- What joins two lists. -/
def joining? (a b : Char) : Option (CharClass → CharClass → CharClass) :=
  if a = '&' ∧ b = '&' then some .inter
  else if a = '-' ∧ b = '-' then some .diff
  else if a = '~' ∧ b = '~' then some .apart
  else none

section Nested

variable (nested? : List Char → Option (CharClass × List Char))

/-- The lists up to the closing bracket; `left` joins what stands further to the left to the
present list, of which `list` was read. -/
def lists? (o : Options) (left : CharClass → CharClass) :
    Nat → CharClass → List Char → Option (CharClass × List Char)
  | 0, _, _ => none
  | bound + 1, list, cs =>
    match o.skip cs with
    | [] => none
    | ']' :: cs => some (left (o.fold list), cs)
    | '[' :: cs =>
      match named? cs with
      | some (c, cs) => do lists? o left bound (.union list (← o.admit? c)) cs
      | none => do
        let (c, cs) ← nested? cs
        lists? o left bound (.union list c) cs
    | a :: cs =>
      match cs.head?.bind (joining? a) with
      | some join =>
        let done := left (o.fold list)
        lists? o (fun right => join done right) bound .none cs.tail
      | none => do
        let (c, cs) ← bracketItem? o (a :: cs)
        lists? o left bound (.union list c) cs

end Nested

/-- What may stand at the front of a class in another sense than later: dashes, or a closing
bracket. -/
def opener (o : Options) (cs : List Char) : CharClass × List Char :=
  match cs with
  | '-' :: cs =>
    (.single '-', o.skip (cs.dropWhile fun c => c = '-' || (o.spaced && Text.isBlank c)))
  | ']' :: cs => (.single ']', cs)
  | cs => (.none, cs)

/-- The class whose opening bracket was read, with at most `depth` classes inside each other. -/
def bracket? (o : Options) : (depth : Nat) → List Char → Option (CharClass × List Char)
  | 0, _ => none
  | depth + 1, cs => do
    let cs := o.skip cs
    let negated := cs.head? = some '^'
    let (list, cs) := opener o (o.skip (if negated then cs.tail else cs))
    let (c, cs) ← lists? (bracket? o depth) o id (cs.length + 1) list cs
    let c ← o.fold? c
    return (← o.admit? (if negated then .not c else c), cs)

end StubLoader.Pattern
