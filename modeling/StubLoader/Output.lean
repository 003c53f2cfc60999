import StubLoader.Failure
import StubLoader.Path.Normal
/-!
# Generated files

The compiler names a generated file after its source: the path of the source below the base path,
without its last extension (the *module path*), and a suffix for the mode.
-/

namespace StubLoader.Output

/-- The steps of a module path: those of the source below the base, the last name cut to its
stem. A stem of dots is no name any more and is dropped with the other steps that are none. -/
def moduleSteps (below : List Path.Component) : List Path.Component :=
  match below.getLast? with
  | some (.name s) => below.dropLast ++ (Path.Component.ofSegment? (Path.stem s)).toList
  | _ => below

/-- The path of a source below the base, without its last extension. -/
def modulePath (base source : Path) : Except OptionsFault String :=
  let base := base.normalize
  let source := source.normalize
  if base.components.isPrefixOf source.components then
    let below := source.components.drop base.components.length
    if below.isEmpty then .error (.namesBase source)
    else .ok (Path.toSlash (moduleSteps below))
  else .error (.outsideBase source base)

/-- What the compiler appends to a module path. -/
def suffix : Mode → String
  | .message => "_pb.js"
  | .service => "_pb_service.js"

/-- The name of the generated file below the output directory. -/
def resolve (base source : Path) (mode : Mode) : Except OptionsFault String :=
  (modulePath base source).map (· ++ suffix mode)

/-- The place of a slash-separated name below a directory. -/
def locate (directory : Path) (relative : String) : Path :=
  (Path.segments (Utf8.ofString relative)).foldl (fun p s => p.join ⟨s⟩) directory

end StubLoader.Output
