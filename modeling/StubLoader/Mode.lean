/-!
# Modes

What the compiler is asked to generate for a schema file: the message codec, which stands alone,
or the service stub, which builds on the codec of the same file.
-/

namespace StubLoader

/-- What to generate. -/
inductive Mode where
  | message
  | service
  deriving DecidableEq, Inhabited

namespace Mode

/-- The name of a mode. -/
def name : Mode → String
  | .message => "Message"
  | .service => "Service"

/-- The spellings of modes in documents, in the order in which messages list them. -/
def spellings : List (String × Mode) :=
  [("Message", .message), ("message", .message), ("proto", .message),
    ("Service", .service), ("grpcService", .service), ("service", .service)]

end Mode

end StubLoader
