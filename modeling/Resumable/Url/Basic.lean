import Resumable.Url.Address

namespace Resumable

inductive UrlHost where
  | name (text : String)
  | four (address : Nat)
  | eight (words : List Nat)
  deriving DecidableEq, Repr

namespace UrlHost

def text : UrlHost → String
  | .name s => s
  | .four a => Address.fourText a
  | .eight ws => "[" ++ Address.eightText ws ++ "]"

end UrlHost

/-- A path is a list of segments, or a text of its own in a locator that
names no place. -/
inductive UrlPath where
  | segments (names : List String)
  | opaqueText (text : String)
  deriving DecidableEq, Repr

structure Url where
  scheme : String
  username : String := ""
  password : Option String := none
  host : Option UrlHost := none
  port : Option Nat := none
  path : UrlPath := .segments []
  query : Option String := none
  fragment : Option String := none
  deriving DecidableEq, Repr

namespace UrlPath

def text : UrlPath → String
  | .segments names => String.join (names.map ("/" ++ ·))
  | .opaqueText s => s

end UrlPath

namespace Url

def defaultPort? (scheme : String) : Option Nat :=
  match scheme with
  | "http" => some 80
  | "ws" => some 80
  | "https" => some 443
  | "wss" => some 443
  | "ftp" => some 21
  | _ => none

def isSpecial (scheme : String) : Bool := (defaultPort? scheme).isSome

def portOrDefault? (u : Url) : Option Nat :=
  match u.port with
  | some p => some p
  | none => defaultPort? u.scheme

def credentials (u : Url) : String :=
  match u.password with
  | some p => u.username ++ ":" ++ p ++ "@"
  | none => if u.username.isEmpty then "" else u.username ++ "@"

def portText (u : Url) : String :=
  match u.port with
  | some p => ":" ++ toString p
  | none => ""

/-- What stands between the scheme and the path. A path that begins with two slashes
is kept apart from a host that is not there. -/
def authority (u : Url) : String :=
  match u.host with
  | some h => "//" ++ u.credentials ++ h.text ++ u.portText
  | none => if u.path.text.startsWith "//" then "/." else ""

def target (u : Url) : String :=
  match u.query with
  | some q => u.path.text ++ "?" ++ q
  | none => u.path.text

def text (u : Url) : String :=
  let front := u.scheme ++ ":" ++ u.authority ++ u.target
  match u.fragment with
  | some f => front ++ "#" ++ f
  | none => front

def hostText? (u : Url) : Option String :=
  match u.host with
  | some h => if h.text.isEmpty then none else some h.text
  | none => none

def withoutCredentials (u : Url) : Url := { u with username := "", password := none }

end Url

end Resumable
