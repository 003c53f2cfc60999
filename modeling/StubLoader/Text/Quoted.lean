import StubLoader.Text.Utf8
import StubLoader.Text.Visible
/-!
# Quoted text

A message shows a text or raw bytes between double quotes, so that their ends and every character
without a visible form can be seen. Quotes and backslashes get a backslash, tabs and line ends
their letters, and other unseen characters their code in braces. Bytes that are no character are
shown as `\xFF`.
-/

namespace StubLoader.Text

/-- The digit of a value below sixteen, with the given letter for ten. -/
def hexDigit (ten : Char) (n : Nat) : Char :=
  if n < 10 then Char.ofNat (0x30 + n) else Char.ofNat (ten.toNat + (n - 10))

/-- The number in base sixteen, in small letters and without leading zeros. -/
def hexNumber (n : Nat) : List Char := Nat.toDigits 16 n

/-- A character by its code: `\u{301}`. -/
def escapeCode (c : Char) : List Char := '\\' :: 'u' :: '{' :: hexNumber c.toNat ++ ['}']

/-- How a quotation writes a character. -/
def escapeChar (c : Char) : List Char :=
  if c = '\x00' then ['\\', '0']
  else if c = '\t' then ['\\', 't']
  else if c = '\r' then ['\\', 'r']
  else if c = '\n' then ['\\', 'n']
  else if c = '\\' then ['\\', '\\']
  else if c = '"' then ['\\', '"']
  else if isCombining c then escapeCode c
  else if isVisible c then [c]
  else escapeCode c

/-- A text between double quotes. -/
def quote (s : String) : String :=
  String.ofList ('"' :: s.toList.flatMap escapeChar ++ ['"'])

/-- A byte that is no character: `\xFF`. -/
def escapeByte (b : UInt8) : List Char :=
  ['\\', 'x', hexDigit 'A' (b.toNat / 16), hexDigit 'A' (b.toNat % 16)]

/-- How a quotation of bytes writes a piece of them. -/
def escapePiece : Utf8.Piece → List Char
  | .char c => escapeChar c
  | .faulty bytes => bytes.flatMap escapeByte
  | .cut bytes => bytes.flatMap escapeByte

/-- Bytes between double quotes. -/
def quoteBytes (bytes : Bytes) : String :=
  String.ofList ('"' :: (Utf8.pieces bytes).flatMap escapePiece ++ ['"'])

end StubLoader.Text
