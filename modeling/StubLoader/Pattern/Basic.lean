/-!
# Patterns

A pattern stands for texts: characters of some class one after another, alternatives, repetitions
and conditions on the place. `endsWith` looks for the first match in a text, the one that starts
earliest and of those the one preferred at each choice, and says whether it ends where the text
ends. All candidates are followed at once, the preferred first, and a match drops those that come
after it. A candidate is a list of patterns that have to come one after another.
-/

namespace StubLoader

/-- A set of characters, by their codes. -/
inductive CharClass where
  | none
  /-- The codes from `first` to `last`. -/
  | range (first last : Nat)
  | union (a b : CharClass)
  | inter (a b : CharClass)
  | diff (a b : CharClass)
  /-- What is in one of the sets but not in both. -/
  | apart (a b : CharClass)
  | not (a : CharClass)
  /-- A set with its Latin letters in both cases. -/
  | anyCase (a : CharClass)
  deriving DecidableEq

namespace CharClass

/-- The code of the same Latin letter in the other case. -/
def otherCase (n : Nat) : Nat :=
  if 0x41 ≤ n ∧ n ≤ 0x5a then n + 0x20
  else if 0x61 ≤ n ∧ n ≤ 0x7a then n - 0x20
  else n

/-- Whether a code is in the set. -/
def holds : CharClass → Nat → Bool
  | none, _ => false
  | range first last, n => first ≤ n && n ≤ last
  | union a b, n => a.holds n || b.holds n
  | inter a b, n => a.holds n && b.holds n
  | diff a b, n => a.holds n && !b.holds n
  | apart a b, n => a.holds n != b.holds n
  | not a, n => !a.holds n
  | anyCase a, n => a.holds n || a.holds (otherCase n)

/-- The set of one character. -/
def single (c : Char) : CharClass := range c.toNat c.toNat

/-- The union of ranges. -/
def ofRanges (rs : List (Nat × Nat)) : CharClass :=
  rs.foldr (fun r c => union (range r.1 r.2) c) none

end CharClass

/-- A condition on a place in a text. -/
inductive Look where
  | textStart
  | textEnd
  | lineStart
  | lineEnd
  /-- As before, where a carriage return ends a line as well. -/
  | carriageStart
  | carriageEnd
  /-- Between a word and something else. -/
  | wordEdge
  | noWordEdge
  | wordStart
  | wordEnd
  deriving DecidableEq

/-- A place in a text, between two characters. -/
structure Place where
  before : Option Char
  after : Option Char

namespace Look

/-- Whether a character may stand in a word. -/
def isWord (c : Char) : Bool := c.isAlphanum || c = '_'

/-- Whether the condition is met. -/
def isMet (l : Look) (here : Place) : Bool :=
  let inWord := here.before.any isWord
  let atWord := here.after.any isWord
  match l with
  | textStart => here.before.isNone
  | textEnd => here.after.isNone
  | lineStart => here.before.all (· = '\n')
  | lineEnd => here.after.all (· = '\n')
  | carriageStart =>
    here.before.all (· = '\n') || (here.before = some '\r' && here.after != some '\n')
  | carriageEnd =>
    here.after.all (· = '\r') || (here.after = some '\n' && here.before != some '\r')
  | wordEdge => inWord != atWord
  | noWordEdge => inWord == atWord
  | wordStart => !inWord && atWord
  | wordEnd => inWord && !atWord

end Look

/-- A pattern. -/
inductive Pattern where
  /-- The empty text. -/
  | empty
  | one (c : CharClass)
  | look (l : Look)
  | both (p q : Pattern)
  /-- One or the other, the first preferred. -/
  | either (p q : Pattern)
  /-- Any number of times, many preferred if `greedy`. Where `p` may be empty this is what comes
  after `p` came once. -/
  | repeated (greedy : Bool) (p : Pattern)
  /-- As before, but at least once. -/
  | atLeastOnce (greedy : Bool) (p : Pattern)
  deriving DecidableEq

namespace Pattern

/-- Whether the pattern may stand for the empty text. -/
def mayBeEmpty : Pattern → Bool
  | empty | look _ | repeated .. => true
  | one _ => false
  | both p q => p.mayBeEmpty && q.mayBeEmpty
  | either p q => p.mayBeEmpty || q.mayBeEmpty
  | atLeastOnce _ p => p.mayBeEmpty

/-- A pattern or the empty text. -/
def maybe (greedy : Bool) (p : Pattern) : Pattern :=
  if greedy then .either p .empty else .either .empty p

/-- A pattern any number of times. -/
def anyTimes (greedy : Bool) (p : Pattern) : Pattern :=
  if p.mayBeEmpty then maybe greedy (.atLeastOnce greedy p) else .repeated greedy p

/-- The patterns one after another. -/
def all (ps : List Pattern) : Pattern := ps.foldr .both .empty

/-- The number of parts. -/
def size : Pattern → Nat
  | empty | look _ | one _ => 1
  | both p q | either p q => p.size + q.size + 1
  | repeated _ p | atLeastOnce _ p => p.size + 1

/-! ### Matching -/

/-- What has to come, one after another. -/
abbrev Candidate := List Pattern

/-- What candidates may read at a place: a class and what has to come after it, the preferred first.
Candidates that stand after a match are dropped, and the answer says whether there is one. A
candidate that was met before is passed over, so that a repetition of nothing comes to an end. The
bound is never reached when there is room for each part of the pattern and each candidate. -/
def explore (here : Place) :
    Nat → List Candidate → List Candidate → List (CharClass × Candidate) × Bool
  | 0, _, _ => ([], false)
  | _, _, [] => ([], false)
  | bound + 1, met, candidate :: others =>
    if met.contains candidate then explore here bound met others
    else
      let goOn := explore here bound (candidate :: met)
      match candidate with
      | [] => ([], true)
      | .empty :: rest => goOn (rest :: others)
      | .one c :: rest => let (reads, found) := goOn others; ((c, rest) :: reads, found)
      | .look l :: rest => goOn (if l.isMet here then rest :: others else others)
      | .both p q :: rest => goOn ((p :: q :: rest) :: others)
      | .either p q :: rest => goOn ((p :: rest) :: (q :: rest) :: others)
      | .atLeastOnce greedy p :: rest => goOn ((p :: .repeated greedy p :: rest) :: others)
      | .repeated greedy p :: rest =>
        let again := p :: .repeated greedy p :: rest
        goOn (if greedy then again :: rest :: others else rest :: again :: others)

/-- Follows candidates to the end of a text. Until a match is found a new candidate starts at each
place. -/
def endsFrom (p : Pattern) (before : Option Char) (candidates : List Candidate)
    (searching : Bool) (text : List Char) : Bool :=
  let all := if searching then candidates ++ [[p]] else candidates
  let (reads, found) := explore ⟨before, text.head?⟩ (all.length + 4 * p.size + 4) [] all
  match text with
  | [] => found
  | c :: text =>
    let left := reads.filterMap fun (set, rest) => if set.holds c.toNat then some rest else none
    endsFrom p (some c) left (searching && !found) text

/-- Whether the first match in a text ends where the text ends. -/
def endsWith (p : Pattern) (text : String) : Bool := endsFrom p none [] true text.toList

end Pattern

end StubLoader
