import StubLoader.Reference
import StubLoader.Stub
/-!
# Artifacts

A generated codec is delivered as it is. A generated stub gets its import of the codec redirected
to a reference.
-/

namespace StubLoader.Artifact

/-- What is delivered for a request of which the compiler generated `bytes`. -/
def finish (entryPoint : String) (request : Request) (modulePath : String) (bytes : Bytes) :
    Outcome Bytes :=
  match request.mode with
  | .message => .ok bytes
  | .service =>
    match Utf8.decode bytes with
    | .error fault => .error (.io (.notText fault))
    | .ok text => do
      let reference ← (Reference.companion entryPoint request).render
      return Utf8.encode (← Stub.redirect text modulePath.toList reference.toList)

end StubLoader.Artifact
