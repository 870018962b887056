/-!
# Error codes

The values of `boost::system::error_code` that the gateway tells apart. A
completed operation reports `none` for success; every code no branch of the
gateway names is `other`, with its number.
-/

namespace ApiGate

inductive ErrorCode where
  | operationAborted
  | timedOut
  | invalidArgument
  | brokenPipe
  | connectionAborted
  | connectionReset
  | eof
  | beastTimeout
  | streamTruncated
  | endOfStream
  | bodyLimit
  | headerLimit
  | needBuffer
  | other (value : Nat)
  deriving DecidableEq, Repr

/-- The completion status of an operation; `none` is success. -/
abbrev Error := Option ErrorCode

end ApiGate
