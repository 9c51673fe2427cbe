namespace Resumable

structure Reference where
  scheme : Option String
  authority : Option String
  path : List Char
  query : Option String
  deriving DecidableEq, Repr

namespace Reference

def isUnreserved (c : Char) : Bool := c.isAlphanum || ['-', '.', '_', '~'].contains c

def isPathChar (c : Char) : Bool :=
  isUnreserved c || "!$&'()*+,;=:@/".toList.contains c

def isAuthorityChar (c : Char) : Bool :=
  (isPathChar c && c != '/') || c == '[' || c == ']'

def isQueryChar (c : Char) : Bool := isPathChar c || c == '?'

def isHex (c : Char) : Bool := c.isDigit || ('a' ≤ c && c ≤ 'f') || ('A' ≤ c && c ≤ 'F')

/-- Whether all characters are allowed and every percent sign is followed by two
hexadecimal digits. -/
def isWritten (allowed : Char → Bool) : List Char → Bool
  | [] => true
  | '%' :: a :: b :: rest => isHex a && isHex b && isWritten allowed rest
  | c :: rest => allowed c && isWritten allowed rest

def isScheme : List Char → Bool
  | [] => false
  | c :: rest =>
      c.isAlpha && rest.all fun d => d.isAlphanum || d == '+' || d == '-' || d == '.'

def cutAt (c : Char) (cs : List Char) : List Char × Option (List Char) :=
  match cs.dropWhile (· ≠ c) with
  | [] => (cs, none)
  | _ :: rest => (cs.takeWhile (· ≠ c), some rest)

def cutAuthority : List Char → Option (List Char) × List Char
  | '/' :: '/' :: rest => (some (rest.takeWhile (· ≠ '/')), rest.dropWhile (· ≠ '/'))
  | cs => (none, cs)

/-- Take the scheme off: what stands before a colon in the first segment. -/
def cutScheme? (cs : List Char) : Option (Option (List Char) × List Char) :=
  match cutAt ':' (cs.takeWhile (· ≠ '/')) with
  | (_, none) => some (none, cs)
  | (scheme, some _) =>
      if isScheme scheme then some (some scheme, cs.drop (scheme.length + 1)) else none

/-- Read a reference. Its fragment is not kept. -/
def ofText? (text : String) : Option Reference := do
  let (front, fragment) := cutAt '#' text.toList
  let (hierarchy, query) := cutAt '?' front
  let (scheme, rest) ← cutScheme? hierarchy
  let (authority, path) := cutAuthority rest
  if isWritten isPathChar path && authority.all (isWritten isAuthorityChar) &&
      query.all (isWritten isQueryChar) && fragment.all (isWritten isQueryChar) then
    return {
      scheme := scheme.map fun s => String.ofList (s.map Char.toLower)
      authority := authority.map String.ofList, path, query := query.map String.ofList }
  else none

def followDots (path : List Char) : List Char :=
  let segments := (path.splitOn '/').drop 1
  let step (done : List (List Char)) (i : List Char × Bool) : List (List Char) :=
    let (s, isLast) := i
    if s == ['.'] then if isLast then done ++ [[]] else done
    else if s == ['.', '.'] then if isLast then done.dropLast ++ [[]] else done.dropLast
    else done ++ [s]
  let marked := segments.zipIdx.map fun (s, i) => (s, decide (i + 1 = segments.length))
  (marked.foldl step []).flatMap fun s => '/' :: s

def withoutDots (path : List Char) : List Char :=
  if path.head? == some '/' then followDots path else path

/-- The path of a relative reference, seen from the last slash of the base. -/
def merge (base r : Reference) : List Char :=
  if base.path.isEmpty then '/' :: r.path
  else (base.path.reverse.dropWhile (· ≠ '/')).reverse ++ r.path

def resolve (base r : Reference) : Reference :=
  match r.scheme, r.authority with
  | some _, _ => { r with path := withoutDots r.path }
  | none, some _ => { r with scheme := base.scheme, path := withoutDots r.path }
  | none, none =>
      if r.path.isEmpty then
        { base with query :=
          match r.query with | some q => some q | none => base.query }
      else
        let path := if r.path.head? == some '/' then r.path else merge base r
        { base with path := withoutDots path, query := r.query }

/-- The path and query asked for; an empty path is the root. -/
def target (r : Reference) : String :=
  let path := if r.path.isEmpty then "/" else String.ofList r.path
  match r.query with
  | some q => path ++ "?" ++ q
  | none => path

def text (r : Reference) : String :=
  (match r.scheme with | some s => s ++ ":" | none => "") ++
    (match r.authority with | some a => "//" ++ a | none => "") ++ r.target

end Reference

end Resumable
