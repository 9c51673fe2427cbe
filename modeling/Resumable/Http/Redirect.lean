import Resumable.Http.Outbound
import Resumable.Url.Reference

namespace Resumable.Http

/-- A request as it is sent: where to, and what of the first request is kept. -/
structure Sent where
  method : String
  url : Url
  target : String
  fields : Fields String
  body : ByteArray

namespace Sent

/-- What a request line asks for: a tunnel names where it leads, any other request
what it wants there. -/
def targetOf (method authority target : String) : String :=
  if method = "CONNECT" then authority else target

def ofOutbound (o : Outbound) (fields : Fields String) : Sent :=
  let target := if o.url.path.text.isEmpty then "/" ++ o.url.target else o.url.target
  ⟨o.method, o.url, targetOf o.method (o.url.hostText?.getD "" ++ o.url.portText)
    target, fields, o.body⟩

def bodyFields : List String :=
  ["content-type", "content-length", "content-encoding", "transfer-encoding"]

def credentialFields : List String :=
  ["authorization", "cookie", "cookie2", "proxy-authorization", "www-authenticate"]

def withoutBody (s : Sent) (method : String) : Sent :=
  { s with method := method, body := .empty, fields := s.fields.without bodyFields }

/-- What is asked after a redirection of a status; nothing if the status is none. -/
def afterStatus? (s : Sent) (status : Nat) : Option Sent :=
  match status with
  | 301 => some (if s.method = "POST" then s.withoutBody "GET" else s)
  | 302 => some (if s.method = "POST" then s.withoutBody "GET" else s)
  | 303 => some (s.withoutBody (if s.method = "HEAD" then "HEAD" else "GET"))
  | 307 => some s
  | 308 => some s
  | _ => none

/-- Where a location leads from here: a locator that names an authority. -/
def locate? (s : Sent) (location : String) : Option Reference := do
  let r ← Reference.ofText? location
  let base ← Reference.ofText? ({ s.url with fragment := none }).text
  let next := base.resolve r
  if next.authority.any (!·.isEmpty) then some next else none

def fieldsFor (s next : Sent) : Fields String :=
  if next.url.hostText? = s.url.hostText? ∧ next.url.portOrDefault? =
    s.url.portOrDefault? then
    next.fields
  else next.fields.without credentialFields

end Sent

inductive Redirection where
  | none
  | next (r : Sent)
  | refused (e : NetworkError)

def redirectLimit : Nat := 10

/-- Judge an answer. `hops` have been followed already, `origin` is the locator of the
first request. -/
def redirection (origin : Url) (hops : Nat) (s : Sent) (status : Nat)
    (location : Option String) :
    Redirection :=
  match s.afterStatus? status, location.bind s.locate? with
  | some after, some place =>
      match Url.parse place.text with
      | .error _ => .refused (.invalidUrl (Refusal.builderText origin.text))
      | .ok url =>
          if redirectLimit ≤ hops then
            .refused (.other
              s!"error following redirect for url ({({ s.url with fragment := none }).text})")
          else if !Outbound.isWebScheme url.scheme then
            .refused (.invalidUrl (Refusal.builderText url.text))
          else
            let target :=
              Sent.targetOf after.method (place.authority.getD "") place.target
            .next { after with url := url, target := target }
  | _, _ => .none

end Resumable.Http
