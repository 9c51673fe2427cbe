import Resumable.Message.Incoming
import Resumable.Message.PerformRequest

namespace Resumable

inductive ReplyErrorCode where
  | unknownMessage
  | malformedMessage
  | messageTooLarge
  | noPerformState
  | outcomeAlreadySet
  | fileError
  | invalidHandle
  | handlesExhausted
  | networkError
  | networkTimeout
  | networkInvalidUrl
  | networkHostNotFound
  | networkConnectionRefused
  deriving DecidableEq, Repr

namespace ReplyErrorCode

def name : ReplyErrorCode → String
  | .unknownMessage => "UnknownMessage"
  | .malformedMessage => "MalformedMessage"
  | .messageTooLarge => "MessageTooLarge"
  | .noPerformState => "NoPerformState"
  | .outcomeAlreadySet => "OutcomeAlreadySet"
  | .fileError => "FileError"
  | .invalidHandle => "InvalidHandle"
  | .handlesExhausted => "HandlesExhausted"
  | .networkError => "NetworkError"
  | .networkTimeout => "NetworkTimeout"
  | .networkInvalidUrl => "NetworkInvalidUrl"
  | .networkHostNotFound => "NetworkHostNotFound"
  | .networkConnectionRefused => "NetworkConnectionRefused"

def all : List ReplyErrorCode :=
  [.unknownMessage, .malformedMessage, .messageTooLarge, .noPerformState,
   .outcomeAlreadySet, .fileError, .invalidHandle, .handlesExhausted, .networkError,
   .networkTimeout, .networkInvalidUrl, .networkHostNotFound, .networkConnectionRefused]

end ReplyErrorCode

inductive Outgoing where
  | performInput (request : PerformRequest)
  | stored
  | fileOpened (stream : UInt32)
  | httpCalled (handle : UInt32)
  | httpHead (status : Nat) (headers : Headers) (bodyStream : UInt32)
  | error (code : ReplyErrorCode) (message : String) (errno : Option UInt32)

namespace Headers

def toJson (h : Headers) : Json :=
  .object (h.map fun entry => (entry.1, .arr (entry.2.map .str)))

end Headers

namespace Outgoing

def word (n : UInt32) : Json := .int n.toNat

def toJson : Outgoing → Json
  | .performInput request =>
      .object
        [("kind", .str "ok"), ("profile_url", .str request.profileUrl),
         ("provider_url", .str request.providerUrl),
         ("map_url", .str request.mapUrl), ("usecase", .str request.usecase),
         ("map_input", request.input), ("map_parameters", request.parameters),
         ("map_security", request.security)]
  | .stored => .object [("kind", .str "ok")]
  | .fileOpened stream => .object [("kind", .str "ok"), ("stream", word stream)]
  | .httpCalled handle => .object [("kind", .str "ok"), ("handle", word handle)]
  | .httpHead status headers bodyStream =>
      .object
        [("kind", .str "ok"), ("status", .int status),
         ("headers", Headers.toJson headers), ("body_stream", word bodyStream)]
  | .error code message errno =>
      let members :=
        [("kind", .str "err"), ("error_code", .str code.name),
         ("message", .str message)]
      match errno with
      | none => .object members
      | some errno => .object (members ++ [("errno", word errno)])

def encode (reply : Outgoing) : ByteArray := reply.toJson.bytes

end Outgoing

inductive NetworkError where
  | timeout
  | invalidUrl (detail : String)
  | hostNotFound (host : String)
  | connectionRefused (host : String)
  | other (detail : String)
  deriving DecidableEq, Repr

namespace NetworkError

def message : NetworkError → String
  | .timeout => "request timed out"
  | .invalidUrl detail => "invalid url: " ++ detail
  | .hostNotFound host => "host not found: " ++ host
  | .connectionRefused host => "connection refused: " ++ host
  | .other detail => detail

def replyCode : NetworkError → ReplyErrorCode
  | .timeout => .networkTimeout
  | .invalidUrl _ => .networkInvalidUrl
  | .hostNotFound _ => .networkHostNotFound
  | .connectionRefused _ => .networkConnectionRefused
  | .other _ => .networkError

end NetworkError

end Resumable
