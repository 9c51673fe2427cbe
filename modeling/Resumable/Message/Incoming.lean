import Resumable.Json.Reader
import Resumable.Json.Text
import Resumable.Text.Hidden

/-!
# Messages from the core

A message is a JSON object told apart by its `kind`. Seven kinds are known; a text of
any other kind is `unknown`, whatever else the object holds. The members of a known
kind are read by key, and what is missing is told after what is wrong.
-/

namespace Resumable

/-- An exception raised by the core's own machinery. -/
structure CoreException where
  code : String
  message : String
  deriving DecidableEq, Repr

structure OpenFlags where
  read : Bool := false
  write : Bool := false
  append : Bool := false
  truncate : Bool := false
  create : Bool := false
  createNew : Bool := false
  deriving DecidableEq, Repr

/-- Header name to all its values, sorted by name. -/
abbrev Headers := List (String × List String)

structure HttpRequest where
  method : String
  url : String
  headers : Headers := []
  body : Option ByteArray := none

inductive Incoming where
  | performInput
  | outputResult (result : Json)
  | outputError (error : Json)
  | outputException (exception : CoreException)
  | fileOpen (path : String) (flags : OpenFlags)
  | httpCall (request : HttpRequest)
  | httpCallHead (handle : UInt32)
  | unknown (kind : String)

inductive Expected where
  | text
  | boolean
  | u32
  | u8
  | sequence
  | map
  | exception
  deriving DecidableEq, Repr

namespace Expected

def describe : Expected → String
  | .text => "a string"
  | .boolean => "a boolean"
  | .u32 => "u32"
  | .u8 => "u8"
  | .sequence => "a sequence"
  | .map => "a map"
  | .exception => "struct CoreException"

end Expected

inductive Mismatch where
  | missingField (name : String)
  | invalidType (found : Json) (expected : Expected)
  | invalidValue (found : Int) (expected : Expected)
  | tooShort (length : Nat)
  | tooLong (length : Nat)

namespace Mismatch

def describeFound : Json → String
  | .null => "null"
  | .bool b => s!"boolean `{b}`"
  | .int n => s!"integer `{n}`"
  | .double x => s!"floating point `{x.text}`"
  | .str s => "string " ++ Text.visible s
  | .arr _ => "sequence"
  | .obj _ => "map"

def message : Mismatch → String
  | .missingField name => s!"missing field `{name}`"
  | .invalidType found expected =>
      s!"invalid type: {describeFound found}, expected {expected.describe}"
  | .invalidValue found expected =>
      s!"invalid value: integer `{found}`, expected {expected.describe}"
  | .tooShort length =>
      s!"invalid length {length}, expected struct CoreException with 2 elements"
  | .tooLong length => s!"invalid length {length}, expected 2 elements in sequence"

end Mismatch

inductive DecodeError where
  | json (error : Json.ReadError)
  | missingKind
  | malformed (kind : String) (mismatch : Mismatch)

namespace DecodeError

def message : DecodeError → String
  | .json error => "message is not valid JSON: " ++ error.message
  | .missingKind => "message has no \"kind\" field"
  | .malformed kind mismatch => s!"malformed {kind} message: {mismatch.message}"

end DecodeError

namespace Json

def expectText : Json → Except Mismatch String
  | .str s => .ok s
  | v => .error (.invalidType v .text)

def expectBool : Json → Except Mismatch Bool
  | .bool b => .ok b
  | v => .error (.invalidType v .boolean)

def expectNat (limit : Nat) (expected : Expected) : Json → Except Mismatch Nat
  | .int n =>
      if 0 ≤ n ∧ n.toNat ≤ limit then .ok n.toNat else .error (.invalidValue n expected)
  | v => .error (.invalidType v expected)

def expectTexts : Json → Except Mismatch (List String)
  | .arr items => items.mapM expectText
  | v => .error (.invalidType v .sequence)

def expectBytes : Json → Except Mismatch ByteArray
  | .arr items =>
      (items.mapM (expectNat 255 .u8)).map fun ns => ⟨(ns.map UInt8.ofNat).toArray⟩
  | v => .error (.invalidType v .sequence)

def expectHeaders : Json → Except Mismatch Headers
  | .obj members => members.mapM fun m => (expectTexts m.2).map (m.1, ·)
  | v => .error (.invalidType v .map)

def require (members : List (String × Json)) (name : String) : Except Mismatch Json :=
  match members.find? (·.1 == name) with
  | some m => .ok m.2
  | none => .error (.missingField name)

def optional {α : Type} (members : List (String × Json)) (name : String) (absent : α)
    (read : Json → Except Mismatch α) : Except Mismatch α :=
  match members.find? (·.1 == name) with
  | some m => read m.2
  | none => .ok absent

def check {α : Type} (members : List (String × Json)) (name : String)
    (read : Json → Except Mismatch α) : Except Mismatch Unit :=
  match members.find? (·.1 == name) with
  | some m => (read m.2).map fun _ => ()
  | none => .ok ()

end Json

namespace CoreException

/-- An exception is an object with its two texts, or the array of both. -/
def ofJson : Json → Except Mismatch CoreException
  | .obj members => do
      Json.check members "error_code" Json.expectText
      Json.check members "message" Json.expectText
      let code ← (← Json.require members "error_code").expectText
      let message ← (← Json.require members "message").expectText
      return ⟨code, message⟩
  | .arr [] => .error (.tooShort 0)
  | .arr [code] => do
      let _ ← code.expectText
      throw (.tooShort 1)
  | .arr (code :: message :: more) => do
      let code ← code.expectText
      let message ← message.expectText
      if more.isEmpty then return ⟨code, message⟩
        else throw (.tooLong (2 + more.length))
  | v => .error (.invalidType v .exception)

end CoreException

namespace OpenFlags

def ofMembers (members : List (String × Json)) : Except Mismatch OpenFlags := do
  let append ← Json.optional members "append" false Json.expectBool
  let create ← Json.optional members "create" false Json.expectBool
  let createNew ← Json.optional members "create_new" false Json.expectBool
  let read ← Json.optional members "read" false Json.expectBool
  let truncate ← Json.optional members "truncate" false Json.expectBool
  let write ← Json.optional members "write" false Json.expectBool
  return { read, write, append, truncate, create, createNew }

/-- Six characters, one for each flag that is set and a dash for each that is not. -/
def letters (f : OpenFlags) : String :=
  String.ofList
    [if f.read then 'r' else '-', if f.write then 'w' else '-',
     if f.append then 'a' else '-', if f.truncate then 't' else '-',
     if f.create then 'c' else '-', if f.createNew then 'n' else '-']

def ofLetters (s : String) : OpenFlags :=
  let has (c : Char) : Bool := s.toList.contains c
  { read := has 'r', write := has 'w', append := has 'a', truncate := has 't',
    create := has 'c'
    createNew := has 'n' }

end OpenFlags

namespace HttpRequest

def ofMembers (members : List (String × Json)) : Except Mismatch HttpRequest := do
  let body ← Json.optional members "body" none fun v =>
    match v with
    | .null => .ok none
    | v => v.expectBytes.map some
  let headers ← Json.optional members "headers" [] Json.expectHeaders
  Json.check members "method" Json.expectText
  Json.check members "url" Json.expectText
  let method ← (← Json.require members "method").expectText
  let url ← (← Json.require members "url").expectText
  return { method, url, headers, body }

end HttpRequest

namespace Incoming

def kind : Incoming → String
  | .performInput => "perform-input"
  | .outputResult _ => "perform-output-result"
  | .outputError _ => "perform-output-error"
  | .outputException _ => "perform-output-exception"
  | .fileOpen _ _ => "file-open"
  | .httpCall _ => "http-call"
  | .httpCallHead _ => "http-call-head"
  | .unknown kind => kind

def ofMembers (kind : String) (members : List (String × Json)) :
    Except Mismatch Incoming :=
  if kind = "perform-input" then .ok .performInput
  else if kind = "perform-output-result" then
    (Json.require members "result").map .outputResult
  else if kind = "perform-output-error" then
    (Json.require members "error").map .outputError
  else if kind = "perform-output-exception" then do
    let exception ← CoreException.ofJson (← Json.require members "exception")
    return .outputException exception
  else if kind = "file-open" then do
    let path ← (← Json.require members "path").expectText
    let flags ← OpenFlags.ofMembers members
    return .fileOpen path flags
  else if kind = "http-call" then
    (HttpRequest.ofMembers members).map .httpCall
  else if kind = "http-call-head" then do
    let handle ← (← Json.require members "handle").expectNat 4294967295 .u32
    return .httpCallHead (UInt32.ofNat handle)
  else .ok (.unknown kind)

def ofJson (v : Json) : Except DecodeError Incoming :=
  match v with
  | .obj members =>
      match (v.get? "kind").bind Json.asString? with
      | none => .error .missingKind
      | some kind =>
          match ofMembers kind members with
          | .ok message => .ok message
          | .error mismatch => .error (.malformed kind mismatch)
  | _ => .error .missingKind

def decode (bytes : ByteArray) : Except DecodeError Incoming :=
  match Json.ofBytes bytes.toList with
  | .error error => .error (.json error)
  | .ok v => ofJson v

end Incoming

end Resumable
