import StubLoader.Text.Utf8
/-!
# Tokens of shell scripts

A script is read from left to right, one character at a time, into words and signs.

    plain ──'──▶ single      plain ──"──▶ double      plain, double ──\──▶ an escaped character
    plain ──#──▶ comment     plain ──>──▶ sign        plain, double ──$──▶ a name
-/

namespace StubLoader.Shell

/-- A part of a word. -/
inductive Piece where
  | char (c : Char)
  /-- A pair of quotes, which makes a word even of nothing. -/
  | quotes
  /-- What a name stands for. -/
  | value (name : List Char)
  deriving DecidableEq

/-- A word. -/
abbrev Word := List Piece

/-- A part of a script. -/
inductive Token where
  | word (word : Word)
  | sign (chars : List Char)
  /-- The number of the stream that the next sign is about. -/
  | stream (digit : Char)
  /-- The end of a script between quotes, some lines further on. -/
  | unclosed (lines : Nat)
  deriving DecidableEq

/-- The number of line ends in a word. -/
def Word.breaks (w : Word) : Nat := w.count (.char '\n')

/-- The number of line ends in the word that a token is. -/
def Token.breaks : Token → Nat
  | .word w => Word.breaks w
  | _ => 0

/-- The signs. -/
def signs : List (List Char) :=
  ["\n", ";", ";;", "&", "&&", "|", "||", "(", ")", "<", ">", ">>", ">&"].map String.toList

/-- What a reader is in the middle of. -/
inductive Lexer.Mode where
  | plain
  | comment
  | sign (chars : List Char)
  | single
  | double
  /-- A backslash came, in double quotes or outside of quotes. -/
  | escape (quoted : Bool)
  /-- A dollar sign and the beginning of a name came. -/
  | name (quoted : Bool) (chars : List Char)
  deriving DecidableEq

/-- A reader. -/
structure Lexer where
  /-- The tokens so far, the latest first. -/
  tokens : List Token
  /-- The word that is open, its latest piece first. -/
  word : Option Word
  mode : Lexer.Mode

namespace Lexer

/-- The single quote. -/
def apostrophe : Char := Char.ofNat 0x27

/-- Before a script. -/
def initial : Lexer := ⟨[], none, .plain⟩

/-- Adds a piece to the word. -/
def add (l : Lexer) (p : Piece) : Lexer := { l with word := some (p :: l.word.getD []) }

/-- Ends the word. -/
def close (l : Lexer) : Lexer :=
  match l.word with
  | some word => { l with tokens := .word word.reverse :: l.tokens, word := none }
  | none => l

/-- Ends the word before a sign that may be about a stream. -/
def closeBefore (l : Lexer) (c : Char) : Lexer :=
  match l.word with
  | some [.char digit] =>
    if (c = '>' ∨ c = '<') ∧ digit.isDigit then
      { l with tokens := .stream digit :: l.tokens, word := none }
    else l.close
  | _ => l.close

/-- Goes into or out of quotes, or on between them. -/
def inMode (l : Lexer) (mode : Mode) : Lexer := { l with mode }

/-- Reads a character outside of quotes. -/
def readPlain (l : Lexer) (c : Char) : Lexer :=
  if c = ' ' ∨ c = '\t' then l.close
  else if c = '#' ∧ l.word.isNone then l.inMode .comment
  else if signs.contains [c] then (l.closeBefore c).inMode (.sign [c])
  else if c = '\\' then l.inMode (.escape false)
  else if c = '$' then l.inMode (.name false [])
  else if c = apostrophe then (l.add .quotes).inMode .single
  else if c = '"' then (l.add .quotes).inMode .double
  else l.add (.char c)

/-- Reads a character between double quotes. -/
def readDouble (l : Lexer) (c : Char) : Lexer :=
  if c = '"' then l.inMode .plain
  else if c = '\\' then l.inMode (.escape true)
  else if c = '$' then l.inMode (.name true [])
  else l.add (.char c)

/-- Goes back to where a name or an escape was met. -/
def back (l : Lexer) (quoted : Bool) : Lexer := l.inMode (if quoted then .double else .plain)

/-- Reads a character where a name or an escape was met. -/
def readBack (l : Lexer) (quoted : Bool) (c : Char) : Lexer :=
  if quoted then (l.back quoted).readDouble c else (l.back quoted).readPlain c

/-- Ends a name; a dollar sign without a name stands for itself. -/
def endName (l : Lexer) (chars : List Char) : Lexer :=
  if chars.isEmpty then l.add (.char '$') else l.add (.value chars)

/-- Ends a sign. -/
def endSign (l : Lexer) (chars : List Char) : Lexer :=
  { l with tokens := .sign chars :: l.tokens, mode := .plain }

/-- Whether a character is a name of its own. -/
def isShortName (c : Char) : Bool := c.isDigit || ['?', '$', '#', '!', '@', '*', '-'].contains c

/-- What a backslash between double quotes escapes. -/
def escapable : List Char := ['"', '\\', '$', Char.ofNat 0x60]

/-- Whether a character can follow in a name. -/
def continues (chars : List Char) (c : Char) : Bool :=
  c.isAlpha || c = '_' || (c.isDigit && !chars.isEmpty)

/-- Reads a character. -/
def read (l : Lexer) (c : Char) : Lexer :=
  match l.mode with
  | .plain => l.readPlain c
  | .comment => if c = '\n' then (l.inMode .plain).readPlain c else l
  | .sign chars =>
    if signs.contains (chars ++ [c]) then l.inMode (.sign (chars ++ [c]))
    else (l.endSign chars).readPlain c
  | .single => if c = apostrophe then l.inMode .plain else l.add (.char c)
  | .double => l.readDouble c
  | .escape quoted =>
    if c = '\n' then l.back quoted
    else if quoted ∧ !escapable.contains c then
      ((l.add (.char '\\')).add (.char c)).back quoted
    else (l.add (.char c)).back quoted
  | .name quoted chars =>
    if continues chars c then l.inMode (.name quoted (chars ++ [c]))
    else if chars.isEmpty ∧ isShortName c then (l.add (.value [c])).back quoted
    else (l.endName chars).readBack quoted c

/-- Ends a script. One that ends between quotes is a script up to the line before. -/
def finish (l : Lexer) : List Token :=
  match l.mode with
  | .plain | .comment => l.close.tokens
  | .sign chars => (l.endSign chars).tokens
  | .escape false => (l.add (.char '\\')).close.tokens
  | .name false chars => (l.endName chars).close.tokens
  | .single | .double | .escape true | .name true _ =>
    let inLine (token : Token) : Bool := token ≠ .sign ['\n']
    let left := l.close.tokens.takeWhile inLine
    .unclosed (left.foldl (fun n token => n + token.breaks) 0) :: l.tokens.dropWhile inLine

end Lexer

/-- The tokens of a text. -/
def tokens (text : List Char) : List Token := (text.foldl Lexer.read Lexer.initial).finish.reverse

end StubLoader.Shell
