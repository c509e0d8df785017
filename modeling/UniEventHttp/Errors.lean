import Mathlib.Algebra.Ring.Nat
import Mathlib.Data.List.Basic

namespace UniEventHttp

/-!
# Error codes, exceptions and byte strings

`ErrorCode` is the non-empty part of the source's `ErrorCode`; a place where
the source passes a possibly empty code is an `Option ErrorCode`.
-/

/-- The bytes of a `panda::string`, one character each. -/
abbrev Data := List Char

/-- `enum class errc` of `error.h`. -/
inductive Errc where
  | connectError
  | noRedirectUri
  | redirectionLimit
  | unexpectedRedirect
  | transferAborted
  | serverStopping
  | pipelineCanceled
  | upgradeInPipeline
  | upgradeWrongRequest
  deriving Repr, DecidableEq

/-- A non-empty error code. -/
inductive ErrorCode where
  | http (code : Errc)
  /-- `nest_error`: a code of this library around the code that caused it. -/
  | nested (code : Errc) (cause : ErrorCode)
  | operationCanceled
  | connectionReset
  | connectionAborted
  | timedOut
  /-- Codes of the event loop, of TLS and of the protocol parser. -/
  | foreign (code : Nat)
  deriving Repr, DecidableEq

/-- The exceptions that leave this library. -/
inductive Exception where
  | httpError (message : String)
  | logicError (message : String)
  /-- The stream library reports an error that nobody checks. -/
  | unchecked (error : ErrorCode)
  deriving Repr, DecidableEq

/-- `protocol::http::iequals`: equality of header values without regard to case. -/
def iequals (first second : String) : Bool :=
  first.toList.map Char.toLower == second.toList.map Char.toLower

end UniEventHttp
