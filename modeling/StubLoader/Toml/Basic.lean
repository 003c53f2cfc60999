import StubLoader.Decimal.Binary64
/-!
# TOML values

A table and an array remember how they were written, since that decides what may still be added to
them further down in the document.
-/

namespace StubLoader

namespace Toml

/-- What a number with a point or an exponent stands for. -/
inductive Real where
  | finite (x : Binary64)
  /-- An infinity or no number at all, by name. -/
  | special
  deriving DecidableEq

/-- How a table came to be. -/
inductive TableKind where
  /-- Between braces: complete. -/
  | inline
  /-- Under a header of its own. -/
  | headed
  /-- Because the header of a table inside it passed through it. -/
  | passed
  /-- Because a dotted key passed through it. -/
  | dotted
  deriving DecidableEq

/-- How an array came to be. -/
inductive ArrayKind where
  /-- Between brackets: complete. -/
  | inline
  /-- Of tables, each under a header of its own. -/
  | headed
  deriving DecidableEq

end Toml

/-- A TOML value. -/
inductive Toml where
  | text (s : String)
  | int (n : Int)
  | real (x : Toml.Real)
  /-- A word built like a number that cannot be read as one, or more than a double can hold. -/
  | illegible
  | bool (b : Bool)
  /-- A date, a time or both, in its plainest spelling. -/
  | moment (spelling : String)
  | array (kind : Toml.ArrayKind) (items : List Toml)
  | table (kind : Toml.TableKind) (entries : List (String × Toml))

namespace Toml

/-- The entries of a table, in the order of the document. -/
abbrev Entries := List (String × Toml)

/-- The entry under a key. -/
def find? (key : String) (entries : Entries) : Option Toml := entries.lookup key

/-- Puts a value under a key, in the place of the one that is there. -/
def put (key : String) (value : Toml) : Entries → Entries
  | [] => [(key, value)]
  | (k, v) :: entries => if k = key then (k, value) :: entries else (k, v) :: put key value entries

end Toml

end StubLoader
