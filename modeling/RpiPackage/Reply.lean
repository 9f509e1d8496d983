import RpiPackage.Lib.Json

/-!
# Service replies

The outcomes of the extension core that an adapter turns into status codes.
-/

namespace Service

open Json

inductive ReplyKind where
  | success
  | created
  | invalidInput
  | notFound
  | accessDenied
  | limitExceeded
  | unsupportedContent
  | internal
  | hostUnavailable
  | timeout
  | unsupported
  | conflict
  | empty
  | unavailable
  deriving DecidableEq, Repr

abbrev ServiceError := ReplyKind × Value

def failure (kind : ReplyKind) (message : String) : ServiceError :=
  (kind, .object [("error", .string message)])

end Service
