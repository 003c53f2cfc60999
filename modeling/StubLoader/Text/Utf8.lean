/-!
# UTF-8

A text is a list of characters, a file or a path a list of bytes, and UTF-8 joins the two. Every
byte list falls apart into *pieces*: whole characters, and maximal faulty runs between them. The
strict reading asks that all pieces are characters and otherwise reports the first faulty one; the
lossy reading puts the replacement character in the place of each faulty piece.
-/

namespace StubLoader

/-- Raw bytes, as files and paths hold them. -/
abbrev Bytes := List UInt8

namespace Utf8

/-! ### Writing -/

/-- The bytes of one character: one to four of them, by the size of its code. -/
def encodeChar (c : Char) : Bytes :=
  let n := c.toNat
  if n < 0x80 then [UInt8.ofNat n]
  else if n < 0x800 then [UInt8.ofNat (0xC0 + n / 0x40), UInt8.ofNat (0x80 + n % 0x40)]
  else if n < 0x10000 then
    [UInt8.ofNat (0xE0 + n / 0x1000), UInt8.ofNat (0x80 + n / 0x40 % 0x40),
      UInt8.ofNat (0x80 + n % 0x40)]
  else
    [UInt8.ofNat (0xF0 + n / 0x40000), UInt8.ofNat (0x80 + n / 0x1000 % 0x40),
      UInt8.ofNat (0x80 + n / 0x40 % 0x40), UInt8.ofNat (0x80 + n % 0x40)]

/-- The bytes of a text. -/
def encode (cs : List Char) : Bytes := cs.flatMap encodeChar

/-- The number of bytes of a text. -/
def size (cs : List Char) : Nat := cs.foldl (fun n c => n + c.utf8Size) 0

/-! ### Reading -/

/-- A stretch of a byte list. -/
inductive Piece where
  /-- A well-formed character. -/
  | char (c : Char)
  /-- Bytes that no character starts with or that break one off. -/
  | faulty (bytes : Bytes)
  /-- The beginning of a character that the end of the list cuts off. -/
  | cut (bytes : Bytes)
  deriving DecidableEq

/-- How many bytes a character has that starts with `b`, and the range of the byte after it. -/
inductive Lead where
  | single
  | double
  | triple (low high : UInt8)
  | quadruple (low high : UInt8)
  | none
  deriving DecidableEq

/-- Reads a first byte. The ranges leave out long forms, surrogates and codes past the last. -/
def lead (b : UInt8) : Lead :=
  if b < 0x80 then .single
  else if 0xC2 ≤ b ∧ b ≤ 0xDF then .double
  else if b = 0xE0 then .triple 0xA0 0xBF
  else if b = 0xED then .triple 0x80 0x9F
  else if 0xE1 ≤ b ∧ b ≤ 0xEF then .triple 0x80 0xBF
  else if b = 0xF0 then .quadruple 0x90 0xBF
  else if 0xF1 ≤ b ∧ b ≤ 0xF3 then .quadruple 0x80 0xBF
  else if b = 0xF4 then .quadruple 0x80 0x8F
  else .none

/-- Whether a byte continues a character. -/
def isTail (b : UInt8) : Bool := 0x80 ≤ b ∧ b ≤ 0xBF

/-- The character whose code has the given high part and the low six bits of `b`. -/
def join (high : Nat) (b : UInt8) : Nat := high * 0x40 + b.toNat % 0x40

/-- The pieces of a byte list, in order. -/
def pieces : Bytes → List Piece
  | [] => []
  | b :: r =>
    match lead b with
    | .none => .faulty [b] :: pieces r
    | .single => .char (Char.ofNat b.toNat) :: pieces r
    | .double =>
      match r with
      | [] => [.cut [b]]
      | b₁ :: r₁ =>
        if isTail b₁ then .char (Char.ofNat (join (b.toNat % 0x20) b₁)) :: pieces r₁
        else .faulty [b] :: pieces (b₁ :: r₁)
    | .triple low high =>
      match r with
      | [] => [.cut [b]]
      | b₁ :: r₁ =>
        if low ≤ b₁ ∧ b₁ ≤ high then
          match r₁ with
          | [] => [.cut [b, b₁]]
          | b₂ :: r₂ =>
            if isTail b₂ then
              .char (Char.ofNat (join (join (b.toNat % 0x10) b₁) b₂)) :: pieces r₂
            else .faulty [b, b₁] :: pieces (b₂ :: r₂)
        else .faulty [b] :: pieces (b₁ :: r₁)
    | .quadruple low high =>
      match r with
      | [] => [.cut [b]]
      | b₁ :: r₁ =>
        if low ≤ b₁ ∧ b₁ ≤ high then
          match r₁ with
          | [] => [.cut [b, b₁]]
          | b₂ :: r₂ =>
            if isTail b₂ then
              match r₂ with
              | [] => [.cut [b, b₁, b₂]]
              | b₃ :: r₃ =>
                if isTail b₃ then
                  .char (Char.ofNat (join (join (join (b.toNat % 0x08) b₁) b₂) b₃)) :: pieces r₃
                else .faulty [b, b₁, b₂] :: pieces (b₃ :: r₃)
            else .faulty [b, b₁] :: pieces (b₂ :: r₂)
        else .faulty [b] :: pieces (b₁ :: r₁)

/-- Where and how a byte list stops being UTF-8. -/
inductive Fault where
  /-- `length` bytes from `index` on belong to no character. -/
  | invalid (length index : Nat)
  /-- The list ends inside the character that starts at `index`. -/
  | incomplete (index : Nat)
  deriving DecidableEq

/-- The wording of a fault. -/
def Fault.message : Fault → String
  | .invalid length index => s!"invalid utf-8 sequence of {length} bytes from index {index}"
  | .incomplete index => s!"incomplete utf-8 byte sequence from index {index}"

/-- The characters of pieces that start at byte `index`, up to the first faulty one. -/
def chars (index : Nat) : List Piece → Except Fault (List Char)
  | [] => .ok []
  | .char c :: ps => (chars (index + c.utf8Size) ps).map (c :: ·)
  | .faulty bytes :: _ => .error (.invalid bytes.length index)
  | .cut _ :: _ => .error (.incomplete index)

/-- The text that the bytes hold, if they are UTF-8 throughout. -/
def decode (bytes : Bytes) : Except Fault (List Char) := chars 0 (pieces bytes)

/-- The character shown in the place of bytes that are no character. -/
def replacement : Char := Char.ofNat 0xFFFD

/-- What the lossy reading shows for a piece. -/
def Piece.shown : Piece → Char
  | .char c => c
  | .faulty _ => replacement
  | .cut _ => replacement

/-- The text that the bytes hold, each faulty piece replaced. -/
def decodeLossy (bytes : Bytes) : List Char := (pieces bytes).map Piece.shown

/-! ### Strings -/

/-- The bytes of a string. -/
def ofString (s : String) : Bytes := encode s.toList

/-- The string that the bytes hold, if they are UTF-8 throughout. -/
def toString? (bytes : Bytes) : Except Fault String := (decode bytes).map String.ofList

/-- The string that the bytes hold, each faulty piece replaced. -/
def toStringLossy (bytes : Bytes) : String := String.ofList (decodeLossy bytes)

end Utf8

end StubLoader
