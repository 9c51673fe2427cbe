import Resumable.Http.Token
import Resumable.Message.Outgoing
import Resumable.Text.Base64
import Resumable.Url.Reader

namespace Resumable

inductive Refusal where
  | address (text : String) (cause : UrlError)
  | method (text : String)
  | headerName (text : String)
  | headerValue (name : String)
  | unreachable (url : Url)

namespace Refusal

def builderText (url : String) : String := s!"builder error for url ({url})"

def toNetworkError : Refusal → NetworkError
  | .address text cause => .invalidUrl s!"{text}: {cause.message}"
  | .method text => .other s!"invalid method {text}"
  | .headerName text => .other s!"invalid header name {text}: invalid HTTP header name"
  | .headerValue name =>
      .other s!"invalid value for header {name}: failed to parse header value"
  | .unreachable url => .invalidUrl (builderText url.text)

end Refusal

/-- A request ready to be sent. An empty body is none. -/
structure Outbound where
  method : String
  url : Url
  fields : Http.Fields String
  body : ByteArray

namespace Outbound

def fieldsOf : Headers → Except Refusal (Http.Fields String)
  | [] => .ok []
  | (name, values) :: rest =>
      if !Http.isFieldName name then .error (.headerName name)
      else if !values.all Http.isValue then .error (.headerValue (Http.lowerName name))
      else do
        let others ← fieldsOf rest
        return values.map (fun v => (Http.lowerName name, v)) ++ others

def isWebScheme (scheme : String) : Bool := scheme == "http" || scheme == "https"

def isUnsendable (c : Char) : Bool := ['"', '\x60', '\x7b', '\x7d'].contains c

def longestAddress : Nat := 65534

def isSendable (url : Url) : Bool :=
  isWebScheme url.scheme && url.text.utf8ByteSize ≤ longestAddress &&
    match url.host with
    | some (.name host) => !host.toList.any isUnsendable
    | some _ => true
    | none => false

def decoded? (s : String) : Option String :=
  String.fromUTF8? ⟨(Percent.decode s.toUTF8.toList).toArray⟩

def authorization? (url : Url) : Option String := do
  let username ← decoded? url.username
  let password := url.password.bind decoded?
  if username.isEmpty && password.isNone then none
  let pair := username ++ ":" ++ password.getD ""
  return "Basic " ++ String.ofList (Text.base64 pair.toUTF8.toList)

def ofRequest (request : HttpRequest) : Except Refusal Outbound := do
  let url ←
    match Url.parse request.url with
    | .ok url => pure url
    | .error cause => throw (.address request.url cause)
  if !Http.isToken request.method then throw (.method request.method)
  let fields ← fieldsOf request.headers
  let (url, fields) :=
    match authorization? url with
    | some value => (url.withoutCredentials, fields.orElse "authorization" value)
    | none => (url, fields)
  if !isSendable url then throw (.unreachable url)
  return { method := request.method, url, fields, body := request.body.getD .empty }

end Outbound

end Resumable
