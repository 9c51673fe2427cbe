namespace Resumable.Toml

def isBlank (c : Char) : Bool := c == ' ' || c == '\t'

def isForbidden (c : Char) : Bool := (c.toNat < 32 && c != '\t') || c.toNat == 127

def hexValue? (c : Char) : Option Nat :=
  if c.isDigit then some (c.toNat - 48)
  else if 'a' ≤ c ∧ c ≤ 'f' then some (c.toNat - 87)
  else if 'A' ≤ c ∧ c ≤ 'F' then some (c.toNat - 55)
  else none

def codePoint? (count : Nat) (text : List Char) : Option Char := do
  let front := text.take count
  if front.length ≠ count then none
  let n ← front.foldlM (fun n c => (hexValue? c).map fun d => n * 16 + d) 0
  if n < 0xD800 ∨ (0xE000 ≤ n ∧ n < 0x110000) then some (Char.ofNat n) else none

/-- What an escape stands for: its character, and how many characters follow
the backslash. -/
def escape? : List Char → Option (Char × Nat)
  | 'b' :: _ => some ('\x08', 1)
  | 't' :: _ => some ('\t', 1)
  | 'n' :: _ => some ('\n', 1)
  | 'f' :: _ => some ('\x0c', 1)
  | 'r' :: _ => some ('\r', 1)
  | 'e' :: _ => some ('\x1b', 1)
  | '"' :: _ => some ('"', 1)
  | '\\' :: _ => some ('\\', 1)
  | 'x' :: rest => (codePoint? 2 rest).map fun c => (c, 3)
  | 'u' :: rest => (codePoint? 4 rest).map fun c => (c, 5)
  | 'U' :: rest => (codePoint? 8 rest).map fun c => (c, 9)
  | _ => none

abbrev Quoted := List Char × List Char

def Quoted.push (c : Char) (q : Quoted) : Quoted := (c :: q.1, q.2)

/-- The rest of a basic string on one line; `skip` characters belong to an escape
already read. -/
def basic? : Nat → List Char → Option Quoted
  | _, [] => none
  | skip + 1, _ :: rest => basic? skip rest
  | 0, '"' :: rest => some ([], rest)
  | 0, '\\' :: rest =>
      match escape? rest with
      | some (c, used) => (basic? used rest).map (Quoted.push c)
      | none => none
  | 0, c :: rest => if isForbidden c then none else (basic? 0 rest).map (Quoted.push c)

def literal? : List Char → Option Quoted
  | [] => none
  | '\'' :: rest => some ([], rest)
  | c :: rest => if isForbidden c then none else (literal? rest).map (Quoted.push c)

def lineEnd? : List Char → Option Nat
  | '\n' :: _ => some 1
  | '\r' :: '\n' :: _ => some 2
  | _ => none

def gapLength : List Char → Nat
  | '\r' :: '\n' :: rest => gapLength rest + 2
  | c :: rest => if c == '\n' || isBlank c then gapLength rest + 1 else 0
  | [] => 0

def lineGap? (text : List Char) : Option Nat :=
  if (lineEnd? (text.dropWhile isBlank)).isSome then some (gapLength text) else none

/-- Quotes at the start of a text. Three end a string of several lines; up to two more
before them belong to it. -/
def closing? (mark : Char) (text : List Char) : Option Quoted :=
  let marks := text.takeWhile (· == mark)
  if marks.length < 3 then none
  else
    let extra := min (marks.length - 3) 2
    some (List.replicate extra mark, text.drop (extra + 3))

def multiline? (mark : Char) : Nat → List Char → Option Quoted
  | _, [] => none
  | skip + 1, _ :: rest => multiline? mark skip rest
  | 0, c :: rest =>
      if c = mark then
        match closing? mark (c :: rest) with
        | some q => some q
        | none => (multiline? mark 0 rest).map (Quoted.push c)
      else if c = '\\' ∧ mark = '"' then
        match lineGap? rest with
        | some gap => multiline? mark gap rest
        | none =>
            match escape? rest with
            | some (e, used) => (multiline? mark used rest).map (Quoted.push e)
            | none => none
      else if c = '\n' then (multiline? mark 0 rest).map (Quoted.push '\n')
      else if c = '\r' ∧ rest.head? = some '\n' then (multiline? mark 1 rest).map
        (Quoted.push '\n')
      else if isForbidden c then none
      else (multiline? mark 0 rest).map (Quoted.push c)

/-- A string of several lines; a line end right behind the opening marks is not
part of it. -/
def multilineBody? (mark : Char) (text : List Char) : Option Quoted :=
  multiline? mark 0 (text.drop ((lineEnd? text).getD 0))

def quoted? : List Char → Option Quoted
  | '"' :: '"' :: '"' :: rest => multilineBody? '"' rest
  | '\'' :: '\'' :: '\'' :: rest => multilineBody? '\'' rest
  | '"' :: rest => basic? 0 rest
  | '\'' :: rest => literal? rest
  | _ => none

end Resumable.Toml
