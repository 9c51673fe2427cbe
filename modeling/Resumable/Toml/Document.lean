import Resumable.Toml.Quoted
import Resumable.Toml.Scalar

/-!
# TOML documents

A document is a row of lines: a header, a key with its value, or nothing, each perhaps
with a comment. `Toml.document?` reads one; brackets may be nested 80 deep.
-/

namespace Resumable.Toml

def skipBlanks (text : List Char) : List Char := text.dropWhile isBlank

def skipComment? : List Char → Option (List Char)
  | '#' :: rest =>
      let (body, rest) := rest.span (fun c => c != '\n' && c != '\r')
      if body.any isForbidden then none else some rest
  | text => some text

def skipGaps? : Nat → List Char → Option (List Char)
  | 0, text => some text
  | fuel + 1, text => do
      let text ← skipComment? (skipBlanks text)
      match lineEnd? text with
      | some n => skipGaps? fuel (text.drop n)
      | none => if text.head? = some '\r' then none else some text

def isBareKey (c : Char) : Bool := c.isAlphanum || c == '_' || c == '-'

def simpleKey? (text : List Char) : Option (String × List Char) :=
  match text with
  | '"' :: rest => (basic? 0 rest).map fun q => (String.ofList q.1, q.2)
  | '\'' :: rest => (literal? rest).map fun q => (String.ofList q.1, q.2)
  | _ =>
      let (name, rest) := text.span isBareKey
      if name.isEmpty then none else some (String.ofList name, rest)

/-- A key: parts with dots between them. Blanks around it are passed over. -/
def key? : Nat → List Char → Option (List String × List Char)
  | 0, _ => none
  | fuel + 1, text => do
      let (part, rest) ← simpleKey? (skipBlanks text)
      match skipBlanks rest with
      | '.' :: rest =>
          let (parts, rest) ← key? fuel rest
          return (part :: parts, rest)
      | rest => return ([part], rest)

/-- Split a key into the way to a table and the name in it. -/
def splitKey (parts : List String) : List String × String :=
  (parts.dropLast, parts.getLast?.getD "")

def endsScalar (c : Char) : Bool :=
  isBlank c || c == ',' || c == ']' || c == '\x7d' || c == '#' || c == '\n' || c == '\r'

/-- A scalar without quotes. A blank may stand between a date and a time. -/
def bare? (text : List Char) : Option (Toml × List Char) := do
  let (word, rest) := text.span (!endsScalar ·)
  match date? word, rest with
  | some [], ' ' :: c :: more =>
      if c.isDigit then
        let (time, rest) := (c :: more).span (!endsScalar ·)
        let v ← scalar? (word ++ ' ' :: time)
        return (v, rest)
      else return (← scalar? word, rest)
  | _, _ => return (← scalar? word, rest)

def depthLimit : Nat := 80

mutual

/-- A value at the start of a text, with `depth` brackets open. -/
def value? : Nat → Nat → List Char → Option (Toml × List Char)
  | 0, _, _ => none
  | fuel + 1, depth, text =>
      match text with
      | '[' :: rest =>
          if depthLimit ≤ depth then none
          else (items? fuel (depth + 1) rest).map fun (items, rest) =>
            (.array items, rest)
      | '\x7b' :: rest =>
          if depthLimit ≤ depth then none
          else (members? fuel (depth + 1) [] rest).map fun (e, rest) =>
            (.table .inline e, rest)
      | '"' :: _ => (quoted? text).map fun q => (.string (String.ofList q.1), q.2)
      | '\'' :: _ => (quoted? text).map fun q => (.string (String.ofList q.1), q.2)
      | _ => bare? text

def items? : Nat → Nat → List Char → Option (List Toml × List Char)
  | 0, _, _ => none
  | fuel + 1, depth, text => do
      match ← skipGaps? text.length text with
      | ']' :: rest => return ([], rest)
      | text =>
          let (v, rest) ← value? fuel depth text
          match ← skipGaps? rest.length rest with
          | ',' :: rest =>
              let (items, rest) ← items? fuel depth rest
              return (v :: items, rest)
          | ']' :: rest => return ([v], rest)
          | _ => none

/-- The rest of an inline table that holds `e` so far. -/
def members? : Nat → Nat → TomlEntries → List Char → Option (TomlEntries × List Char)
  | 0, _, _, _ => none
  | fuel + 1, depth, e, text => do
      match ← skipGaps? text.length text with
      | '\x7d' :: rest => return (e, rest)
      | text =>
          let (key, rest) ← key? text.length text
          match rest with
          | '=' :: rest =>
              let (v, rest) ← value? fuel depth (skipBlanks rest)
              let (path, name) := splitKey key
              let e ← e.addDotted name v path true
              match ← skipGaps? rest.length rest with
              | ',' :: rest => members? fuel depth e rest
              | '\x7d' :: rest => return (e, rest)
              | _ => none
          | _ => none

end

/-- What has been read, and the names of the header that is in force. -/
structure Draft where
  entries : TomlEntries
  here : List String

namespace Draft

def header? (d : Draft) (text : List Char) : Option (Draft × List Char) := do
  let (parts, rest) ← key? text.length text
  let (path, name) := splitKey parts
  match rest with
  | ']' :: rest =>
      let entries ← d.entries.modifyAt (TomlEntries.define name) path
      return (⟨entries, parts⟩, rest)
  | _ => none

def rowHeader? (d : Draft) (text : List Char) : Option (Draft × List Char) := do
  let (parts, rest) ← key? text.length text
  let (path, name) := splitKey parts
  match rest with
  | ']' :: ']' :: rest =>
      let entries ← d.entries.modifyAt (TomlEntries.addRow name) path
      return (⟨entries, parts⟩, rest)
  | _ => none

def pair? (d : Draft) (text : List Char) : Option (Draft × List Char) := do
  let (key, rest) ← key? text.length text
  match rest with
  | '=' :: rest =>
      let rest := skipBlanks rest
      let (v, rest) ← value? (rest.length + 1) 0 rest
      let (path, name) := splitKey key
      let entries ← d.entries.modifyAt (TomlEntries.addDotted name v path true) d.here
      return ({ d with entries := entries }, rest)
  | _ => none

def statement? (d : Draft) : List Char → Option (Draft × List Char)
  | [] => some (d, [])
  | '[' :: '[' :: rest => d.rowHeader? rest
  | '[' :: rest => d.header? rest
  | c :: rest =>
      if c == '#' || c == '\n' || c == '\r' then some (d, c :: rest)
        else d.pair? (c :: rest)

def lines? : Nat → Draft → List Char → Option Draft
  | 0, d, _ => some d
  | fuel + 1, d, text => do
      let (d, rest) ← d.statement? (skipBlanks text)
      let rest ← skipComment? (skipBlanks rest)
      match rest, lineEnd? rest with
      | [], _ => return d
      | _, some n => lines? fuel d (rest.drop n)
      | _, none => none

end Draft

/-- Read a document. A byte order mark in front of it is passed over. -/
def document? (text : String) : Option TomlEntries :=
  let chars :=
    match text.toList with
    | '\uFEFF' :: rest => rest
    | all => all
  (Draft.lines? (chars.length + 1) ⟨[], []⟩ chars).map Draft.entries

end Resumable.Toml
