import StubLoader.Pattern.Bracket
import StubLoader.Text.Letter
/-!
# Reading patterns

    greeter.*        characters, a dot for any character, repetitions
    Message|Service  alternatives
    (?m:^[a-z]+$)    groups with options, conditions on the place, classes

A repetition comes after what it repeats: `?`, `*` or `+`, with another `?` to prefer fewer times.
Options in a group of their own hold up to the end of the group around them. Numbers of times and
names of Unicode classes would stand in braces, which do not occur in a directive, so an opening
brace is refused.
-/

namespace StubLoader.Pattern

/-- The number of groups that may be open at once. -/
def maxDepth : Nat := 250

/-! ### Groups -/

/-- What an opening parenthesis begins. -/
inductive Opening where
  /-- Options up to the end of the group around it. -/
  | options (o : Options)
  /-- A group, with a name or without. -/
  | group (o : Options) (name : Option (List Char))

/-- The options spelled by letters, each at most once, up to a colon or a closing parenthesis.
`value` says whether they are set or, after a dash, taken back. -/
def letters? (value : Bool) (seen : List Char) (o : Options) :
    List Char → Option (List Char × Options × List Char)
  | [] => none
  | c :: cs =>
    if c = ':' ∨ c = ')' then if seen.head? = some '-' then none else some (seen, o, c :: cs)
    else if seen.contains c then none
    else if c = '-' then letters? false (c :: seen) o cs
    else do letters? value (c :: seen) (← o.set? value c) cs

/-- Whether the character may stand in the name of a group. -/
def isNameChar (c : Char) : Bool :=
  c = '_' || c = '.' || c = '[' || c = ']' || Text.isLetterOrNumber c

/-- Whether the name of a group may start with the character. -/
def startsName (c : Char) : Bool := c = '_' || (Text.isLetterOrNumber c && !c.isDigit)

/-- The name of a group up to its closing bracket. -/
def name? (cs : List Char) : Option (List Char × List Char) := do
  let name := cs.takeWhile (· ≠ '>')
  guard (name.head?.any startsName && name.all isNameChar)
  match cs.dropWhile (· ≠ '>') with
  | [] => none
  | _ :: rest => return (name, rest)

/-- What an opening parenthesis begins. -/
def opening? (o : Options) (cs : List Char) : Option (Opening × List Char) :=
  match cs with
  | '?' :: '<' :: cs => (name? cs).map fun (name, cs) => (.group o (some name), cs)
  | '?' :: 'P' :: '<' :: cs => (name? cs).map fun (name, cs) => (.group o (some name), cs)
  | '?' :: cs => do
    match ← letters? true [] o cs with
    | (_, o, ':' :: cs) => return (.group o none, cs)
    | (seen, o, _ :: cs) => if seen = [] then none else return (.options o, cs)
    | _ => none
  | cs => some (.group o none, cs)

/-! ### Sequences and alternatives -/

/-- A pattern that was read, the names of its groups, and the text after it. -/
structure Found where
  pattern : Pattern
  names : List (List Char)
  rest : List Char

/-- A group as far as it was read. -/
structure Draft where
  options : Options
  names : List (List Char)
  /-- The alternatives that are complete, the last one first. -/
  earlier : List Pattern
  /-- The parts of the present alternative, the last one first; options are none. -/
  parts : List (Option Pattern)

/-- The present alternative. -/
def Draft.sequence (d : Draft) : Pattern := all (d.parts.reverse.filterMap id)

/-- All alternatives. -/
def Draft.close (d : Draft) : Pattern := d.earlier.foldl (fun p q => .either q p) d.sequence

/-- Goes on with the next alternative. -/
def Draft.next (d : Draft) : Draft := { d with earlier := d.sequence :: d.earlier, parts := [] }

/-- Adds a part. -/
def Draft.add (d : Draft) (p : Pattern) : Draft := { d with parts := some p :: d.parts }

/-- Repeats the part that was read last. -/
def Draft.repeatLast? (d : Draft) (mark : Char) (lazy : Bool) : Option Draft :=
  match d.parts with
  | some p :: parts =>
    let greedy := lazy == d.options.short
    let p := if mark = '?' then maybe greedy p
      else if mark = '+' then .atLeastOnce greedy p
      else anyTimes greedy p
    some { d with parts := some p :: parts }
  | _ => none

/-- The condition that a circumflex stands for. -/
def Options.lineStart (o : Options) : Look :=
  if !o.lines then .textStart else if o.carriage then .carriageStart else .lineStart

/-- The condition that a dollar sign stands for. -/
def Options.lineEnd (o : Options) : Look :=
  if !o.lines then .textEnd else if o.carriage then .carriageEnd else .lineEnd

/-- The class that a dot stands for. -/
def Options.dot? (o : Options) : Option CharClass :=
  if !o.unicode then none
  else if o.everyDot then some (.not .none)
  else if o.carriage then some (.not (.union (.single '\n') (.single '\r')))
  else some (.not (.single '\n'))

/-- The pattern that an atom stands for. -/
def Options.pattern? (o : Options) : Atom → Option Pattern
  | .char c => (o.fold? (.single c)).map .one
  | .set c => some (.one (o.fold c))
  | .look l => some (.look l)

/-- A part that is neither a group nor a repetition. -/
def Options.part? (o : Options) (c : Char) (cs : List Char) : Option (Pattern × List Char) :=
  match c with
  | '.' => o.dot?.map fun set => (.one set, cs)
  | '^' => some (.look o.lineStart, cs)
  | '$' => some (.look o.lineEnd, cs)
  | '[' => (bracket? o maxDepth cs).map fun (set, cs) => (.one set, cs)
  | '\\' => do
    let (atom, cs) ← o.escape? cs
    return (← o.pattern? atom, cs)
  | c => (o.pattern? (.char c)).map (·, cs)

section Groups

variable (group? : Options → List (List Char) → List Char → Option Found)

/-- Reads up to the end of a group. -/
def parts? : Nat → Draft → List Char → Option Found
  | 0, _, _ => none
  | bound + 1, d, cs =>
    match d.options.skip cs with
    | [] => some ⟨d.close, d.names, []⟩
    | c :: cs =>
      if c = ')' then some ⟨d.close, d.names, c :: cs⟩
      else if c = '|' then parts? bound d.next cs
      else if c = '*' ∨ c = '+' ∨ c = '?' then do
        let lazy := cs.head? = some '?'
        parts? bound (← d.repeatLast? c lazy) (if lazy then cs.tail else cs)
      else if c = '\x7b' then none
      else if c = '(' then do
        match ← opening? d.options (d.options.skip cs) with
        | (.options o, cs) =>
          parts? bound { d with options := o, parts := none :: d.parts } cs
        | (.group o name, cs) =>
          guard (name.all (!d.names.contains ·))
          let inner ← group? o (name.toList ++ d.names) cs
          match inner.rest with
          | ')' :: cs => parts? bound { d.add inner.pattern with names := inner.names } cs
          | _ => none
      else do
        let (p, cs) ← d.options.part? c cs
        parts? bound (d.add p) cs

end Groups

/-- The alternatives up to a closing parenthesis that has no opening one, with at most `depth`
groups inside each other. -/
def alternatives? : (depth : Nat) → Options → List (List Char) → List Char → Option Found
  | 0, _, _, _ => none
  | depth + 1, o, names, cs => parts? (alternatives? depth) (cs.length + 1) ⟨o, names, [], []⟩ cs

/-- The pattern that a text spells. -/
def parse? (text : String) : Option Pattern :=
  match alternatives? (maxDepth + 1) {} [] text.toList with
  | some ⟨p, _, []⟩ => some p
  | _ => none

end StubLoader.Pattern
