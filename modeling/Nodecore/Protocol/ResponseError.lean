/-
# Errors answered to a client

The errors the request flow itself produces, with their codes and texts.  A text
is a byte string: the cause of a failed selection is cut at a byte count, which
may fall inside a character.
-/

import Mathlib.Data.Int.Basic

namespace Nodecore.Protocol

inductive ResponseError
  | noAvailableUpstreamsError
  | noAvailableUpstreamsErrorWithCause (cause : List UInt8)
  | notSupportedMethodError (method : String)
  | rateLimitError
  | serverError
  | quorumNotSupportedError (reason : String)
  | unsupportedBlockTagError (chain tag : String)
  deriving DecidableEq

namespace ResponseError

def code : ResponseError → ℤ
  | noAvailableUpstreamsError | noAvailableUpstreamsErrorWithCause _ => 1
  | notSupportedMethodError _ => -32601
  | rateLimitError => 429
  | serverError => 500
  | quorumNotSupportedError _ => -32010
  | unsupportedBlockTagError _ _ => -32602

def bytes (text : String) : List UInt8 := text.toUTF8.data.toList

def message : ResponseError → List UInt8
  | noAvailableUpstreamsError => bytes "no available upstreams to process a request"
  | noAvailableUpstreamsErrorWithCause cause =>
    if cause.isEmpty then bytes "no available upstreams to process a request"
    else bytes "no available upstreams to process a request. Cause - " ++ cause
  | notSupportedMethodError method =>
    bytes ("the method " ++ method ++ " does not exist/is not available")
  | rateLimitError => bytes "rate limit exceeded"
  | serverError => bytes "internal server error"
  | quorumNotSupportedError reason =>
    if reason.isEmpty then bytes "quorum is not supported for this request"
    else bytes ("quorum is not supported for this request: " ++ reason)
  | unsupportedBlockTagError chain tag =>
    bytes ("block tag \"" ++ tag ++ "\" is not supported on chain " ++ chain)

end ResponseError

end Nodecore.Protocol
