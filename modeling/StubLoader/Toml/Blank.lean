/-!
# Blanks and comments

A line ends in a line feed, with or without a carriage return before it; a carriage return stands
nowhere else. A comment runs to the end of its line and holds no control character but tabs.
-/

namespace StubLoader.Toml

/-- Whether the character separates words on a line. -/
def isBlank (c : Char) : Bool := c = ' ' || c = '\t'

/-- The text after the blanks at its start. -/
def skipBlanks (cs : List Char) : List Char := cs.dropWhile isBlank

/-- Whether the character may stand in comments and plain text. -/
def isPlain (c : Char) : Bool := c = '\t' || (' ' ≤ c && c ≠ '\x7f')

/-- The text after a line end. -/
def newline? : List Char → Option (List Char)
  | '\n' :: cs => some cs
  | '\r' :: '\n' :: cs => some cs
  | _ => none

/-- The text after the comment at its start, if there is one, up to the end of the line. -/
def skipComment (cs : List Char) : List Char :=
  if cs.head? = some '#' then cs.dropWhile isPlain else cs

/-- The text after the rest of a line that holds nothing more. -/
def lineEnd? (cs : List Char) : Option (List Char) :=
  match skipComment (skipBlanks cs) with
  | [] => some []
  | c :: cs => newline? (c :: cs)

/-- The text after blanks, comments and line ends; `inComment` says whether a comment is open. -/
def skipLines? : (inComment : Bool) → List Char → Option (List Char)
  | _, [] => some []
  | _, '\n' :: cs => skipLines? false cs
  | _, '\r' :: '\n' :: cs => skipLines? false cs
  | true, c :: cs => if isPlain c then skipLines? true cs else none
  | false, c :: cs =>
    if isBlank c then skipLines? false cs
    else if c = '#' then skipLines? true cs
    else some (c :: cs)

/-- The text after blanks, comments and line ends, if they are well formed. -/
def skip? (cs : List Char) : Option (List Char) := skipLines? false cs

end StubLoader.Toml
