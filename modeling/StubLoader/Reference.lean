import StubLoader.Request
/-!
# References

A service stub names the codec it builds on by a reference: an array literal of the entry point
that is to run, the options to run it under, and the source.

    ["grpc-web-loader",{"basePath":"/proj","mode":"Message"},"/proj/greeter.proto"]

The options always ask for the codec, so following a reference never leads to a second stub.
-/

namespace StubLoader

/-- A pointer to a companion artifact. -/
structure Reference where
  entryPoint : String
  options : Options
  source : Path
  deriving DecidableEq

namespace Reference

/-- The reference to the message codec of a request's file. -/
def companion (entryPoint : String) (request : Request) : Reference :=
  ⟨entryPoint, request.companion.options, request.companion.source⟩

/-- The literal. -/
def print (r : Reference) : Except DocumentFault (List Char) := do
  let parts := [Json.printString r.entryPoint, ← r.options.print, ← Options.printPath r.source]
  return '[' :: Json.commaSeparated parts ++ [']']

/-- The literal as a string. -/
def render (r : Reference) : Outcome String :=
  match r.print with
  | .ok cs => .ok (String.ofList cs)
  | .error fault => .error (.document fault)

/-- What a reference consists of. -/
def shape : String := "a tuple of size 3"

/-- Reads the three parts of a reference whose bracket was read. -/
def readParts (depth : Nat) (cs : List Char) : Except Json.Fault (Reference × List Char) := do
  let (entryPoint, rest) ← Json.item shape 0 (Json.text "a string") cs
  let (options, rest) ← Json.item shape 1 (Options.read depth) rest
  let (source, rest) ← Json.item shape 2 Options.readPath rest
  return (⟨entryPoint, options, source⟩, ← Json.closeList rest)

/-- Reads a reference. -/
def read (depth : Nat) (cs : List Char) : Except Json.Fault (Reference × List Char) :=
  match Json.skipSpace cs with
  | [] => .error ⟨.eofValue, 0⟩
  | c :: r =>
    if c = '[' then
      match depth with
      | 0 => .error (.next .tooDeep (c :: r))
      | depth + 1 => readParts depth r
    else .error (Json.wrongType shape (c :: r))

/-- Checks that a reference names an entry point and asks for the codec under usable options. -/
def validate (r : Reference) : Except ReferenceFault Unit :=
  if r.entryPoint.isEmpty then .error .noEntryPoint
  else if r.options.mode ≠ .message then .error (.wrongMode r.options.mode)
  else match r.options.validate with
    | .error fault => .error (.badOptions fault)
    | .ok () => .ok ()

/-- The reference that a literal, blanks around it aside, holds. -/
def parse (literal : String) : Outcome Reference :=
  match Json.readAll (read Json.maxDepth) (Text.strip literal) with
  | .error e => .error (.reference (.malformed e))
  | .ok r =>
    match r.validate with
    | .error fault => .error (.reference fault)
    | .ok () => .ok r

/-- The request that the reference stands for. -/
def toRequest (r : Reference) : Outcome Request := Request.make r.source r.options

end Reference

end StubLoader
