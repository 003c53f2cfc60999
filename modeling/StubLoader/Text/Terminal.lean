import StubLoader.Text.Utf8
/-!
# Text without terminal commands

A terminal takes some characters for commands, to set a colour or a title say. An escape character
begins a command and the one after it tells where the command ends; other control characters are
commands by themselves. `strip` keeps the text and leaves the commands out. A space control, such
as a line end, is text even inside of a command that may hold it: what follows it is read as text,
and the command goes on after the next character that is none.
-/

namespace StubLoader.Terminal

/-- The command that a terminal is in the middle of. -/
inductive State where
  /-- None. -/
  | text
  /-- An escape character came. -/
  | escape
  /-- Marks came after an escape character. -/
  | escapeMarks
  /-- A control sequence, up to a letter. -/
  | control
  /-- A device command at its start. -/
  | device
  /-- A device command with numbers. -/
  | deviceNumbers
  /-- A device command with marks. -/
  | deviceMarks
  /-- The data of a command, up to a terminator. -/
  | data
  /-- A title, up to a bell. -/
  | title
  deriving DecidableEq

/-- Whether a character has a code from `first` to `last`. -/
def isFrom (first last : Nat) (c : Char) : Bool := first ≤ c.toNat && c.toNat ≤ last

/-- The byte that ends the data of a command. -/
def terminator : UInt8 := 0x9c

/-- What a command becomes by the character after the escape. -/
def begun (c : Char) : State :=
  if isFrom 0x20 0x2f c then .escapeMarks
  else if c = '[' then .control
  else if c = ']' then .title
  else if c = 'P' then .device
  else if c = 'X' ∨ c = '^' ∨ c = '_' then .data
  else if isFrom 0x30 0x7e c then .text
  else .escape

/-- What a device command becomes by a character; `numbers` is where numbers lead and `signs` where
the signs below the letters lead that are none. -/
def deviceNext (numbers signs here : State) (c : Char) : State :=
  if isFrom 0x40 0x7e c then .data
  else if isFrom 0x20 0x2f c then .deviceMarks
  else if isFrom 0x30 0x3b c then numbers
  else if isFrom 0x3c 0x3f c then signs
  else here

/-- What a command becomes by a character that is not shown. -/
def State.next (s : State) (c : Char) : State :=
  if c = '\x18' ∨ c = '\x1a' then .text
  else if c = '\x1b' then .escape
  else match s with
    | .text => .text
    | .escape => begun c
    | .escapeMarks => if isFrom 0x30 0x7e c then .text else .escapeMarks
    | .control => if isFrom 0x40 0x7e c then .text else .control
    | .device => deviceNext .deviceNumbers .deviceNumbers .device c
    | .deviceNumbers => deviceNext .deviceNumbers .data .deviceNumbers c
    | .deviceMarks => deviceNext .data .data .deviceMarks c
    | .data => if (Utf8.encodeChar c).contains terminator then .text else .data
    | .title => if c = '\x07' then .text else .title

/-- Whether the character is a control that stands for space. -/
def isSpaceControl (c : Char) : Bool := c = '\t' || c = '\n' || c = '\x0c' || c = '\r'

/-- Whether a terminal in the middle of a command shows the character. -/
def State.shows (s : State) (c : Char) : Bool :=
  match s with
  | .text => isSpaceControl c || (0x20 ≤ c.toNat && c ≠ '\x7f')
  | .escape | .escapeMarks | .control => isSpaceControl c
  | .device | .deviceNumbers | .deviceMarks | .data | .title => false

/-- The characters that are shown; `showing` says whether the one before was. A character beyond
ASCII ends the command that was interrupted for it. -/
def stripFrom (s : State) (showing : Bool) : List Char → List Char
  | [] => []
  | c :: cs =>
    if (if showing then State.text else s).shows c then
      c :: stripFrom (if c.toNat < 0x80 then s else .text) true cs
    else stripFrom (s.next c) false cs

/-- The text without terminal commands. -/
def strip (text : String) : String := String.ofList (stripFrom .text false text.toList)

/-! ### Styles -/

/-- How a terminal is to show a text that stands out. -/
inductive Style where
  /-- In yellow. -/
  | yellow
  /-- In bold letters. -/
  | bold
  /-- In bold red letters. -/
  | boldRed
  deriving DecidableEq

/-- The commands that begin a style. -/
def Style.opening : Style → String
  | .yellow => "\x1b[33m"
  | .bold => "\x1b[1m"
  | .boldRed => "\x1b[1m\x1b[31m"

/-- A text in a style. -/
def styled (style : Style) (text : String) : String := style.opening ++ text ++ "\x1b[0m"

end StubLoader.Terminal
