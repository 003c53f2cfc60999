import StubLoader.Toml.Reader
/-!
# Documents

The lines of a document build up one table. A header makes its table the current one, and entries
go there. A table may be added to in several places as long as it is defined in one: a header
names a new table or one that other headers only passed through, and a dotted key passes through
tables that nothing defined before.
-/

namespace StubLoader.Toml

/-- Whether no header and no braces defined the table. -/
def TableKind.isOpen : TableKind → Bool
  | .passed | .dotted => true
  | .inline | .headed => false

/-- Edits the table that a path leads to, making what is missing on the way. In an array of tables
the path leads on from the last one. If `dotted`, the path is the front of a dotted key, which
passes only through tables that nothing defined. -/
def editAt (dotted : Bool) (edit : TableKind → Entries → Option Entries) :
    List String → TableKind → Entries → Option Entries
  | [], kind, entries => edit kind entries
  | key :: path, _, entries =>
    match find? key entries with
    | none =>
      let kind : TableKind := if dotted then .dotted else .passed
      (editAt dotted edit path kind []).map fun inner => put key (.table kind inner) entries
    | some (.table kind inner) =>
      if kind = .inline ∨ (dotted ∧ !kind.isOpen) then none
      else (editAt dotted edit path kind inner).map fun inner => put key (.table kind inner) entries
    | some (.array .headed items) =>
      match items.getLast? with
      | some (.table kind inner) => (editAt dotted edit path kind inner).map fun inner =>
          put key (.array .headed (items.dropLast ++ [.table kind inner])) entries
      | _ => none
    | some _ => none

/-- Adds an entry to a table. Behind a dotted key the table has to be one that dotted keys made,
and otherwise one that they did not. -/
def addEntry (dotted : Bool) (key : String) (value : Toml) (kind : TableKind) (entries : Entries) :
    Option Entries :=
  if dotted != decide (kind = .dotted) then none
  else match find? key entries with
    | none => some (put key value entries)
    | some _ => none

/-- Makes a table under a header. -/
def openTable (key : String) (_ : TableKind) (entries : Entries) : Option Entries :=
  match find? key entries with
  | none => some (put key (.table .headed []) entries)
  | some (.table .passed inner) => some (put key (.table .headed inner) entries)
  | some _ => none

/-- Makes the next table of an array under a header. -/
def openItem (key : String) (_ : TableKind) (entries : Entries) : Option Entries :=
  match find? key entries with
  | none => some (put key (.array .headed [.table .headed []]) entries)
  | some (.array .headed items) =>
    some (put key (.array .headed (items ++ [.table .headed []])) entries)
  | some _ => none

/-- A document as far as it was read: its table, and the path of the current one. -/
structure Draft where
  root : Entries
  current : List String

/-- Takes one more line. -/
def Draft.add (d : Draft) : Line → Option Draft
  | .entry key value => do
    let last ← key.getLast?
    let path := key.dropLast
    let inside := fun kind entries =>
      editAt true (addEntry (!path.isEmpty) last value) path kind entries
    return { d with root := ← editAt false inside d.current .headed d.root }
  | .header key => do
    return ⟨← editAt false (openTable (← key.getLast?)) key.dropLast .headed d.root, key⟩
  | .item key => do
    return ⟨← editAt false (openItem (← key.getLast?)) key.dropLast .headed d.root, key⟩

/-- The table that a document holds. -/
def parse? (text : String) : Option Entries := do
  let lines ← document? text
  return (← lines.foldlM Draft.add ⟨[], []⟩).root

end StubLoader.Toml
