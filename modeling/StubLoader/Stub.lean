import StubLoader.Failure
/-!
# Service stubs

A generated stub imports the codec of the same file by a quoted relative path, which climbs to the
output directory and down again. That file is not generated along with the stub, so the import is
redirected to a reference, and the exports of what the reference yields are merged into the stub's
own.
-/

namespace StubLoader.Stub

/-! ### Occurrences in a text -/

/-- The number of occurrences of `pattern` from left to right, none overlapping the one before;
`skip` characters belong to an occurrence already counted. -/
def countFrom (pattern : List Char) : Nat → List Char → Nat
  | _, [] => 0
  | skip + 1, _ :: cs => countFrom pattern skip cs
  | 0, c :: cs =>
    if pattern.isPrefixOf (c :: cs) then countFrom pattern (pattern.length - 1) cs + 1
    else countFrom pattern 0 cs

/-- The number of occurrences of a pattern that do not overlap. -/
def count (pattern text : List Char) : Nat := countFrom pattern 0 text

/-- The text with the first occurrence of `pattern` replaced. -/
def replaceFirst (pattern replacement : List Char) : List Char → List Char
  | [] => []
  | c :: cs =>
    if pattern.isPrefixOf (c :: cs) then replacement ++ (c :: cs).drop pattern.length
    else c :: replaceFirst pattern replacement cs

/-! ### The redirected import -/

/-- The way from the directory of a module to the output directory. -/
def climb (modulePath : List Char) : List Char :=
  match modulePath.count '/' with
  | 0 => ['.', '/']
  | depth => (List.replicate depth ['.', '.', '/']).flatten

/-- The import of the codec as the compiler writes it into the stub of a module. -/
def siblingLiteral (modulePath : List Char) : List Char :=
  '"' :: climb modulePath ++ modulePath ++ ['_', 'p', 'b', '"']

/-- What stands before the reference in the statement that merges the exports. -/
def mergeHead : List Char :=
  "Object.assign(module.exports, Object.assign(\x7b\x7d, require(".toList

/-- What stands after the reference in the statement that merges the exports. -/
def mergeTail : List Char := "), module.exports));\n".toList

/-- The statement that puts the exports of the codec under those of the stub. -/
def mergeStatement (reference : List Char) : List Char := mergeHead ++ reference ++ mergeTail

/-- The text with a line end after it, unless it has one. -/
def endLine (text : List Char) : List Char :=
  if text.getLast? = some '\n' then text else text ++ ['\n']

/-- The stub with its import redirected and the exports merged. -/
def redirect (text modulePath reference : List Char) : Outcome (List Char) :=
  let literal := siblingLiteral modulePath
  match count literal text with
  | 1 => .ok (endLine (replaceFirst literal reference text) ++ mergeStatement reference)
  | found => .error (.stubImport (String.ofList literal) found)

end StubLoader.Stub
