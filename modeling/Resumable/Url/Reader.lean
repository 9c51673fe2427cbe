import Resumable.Url.Basic
import Resumable.Url.Domain
import Resumable.Url.Percent

/-!
# Reading locators

A locator is read from the front: its scheme, the authority with user and host and
port, the path with its dot segments understood, the query and the fragment. Blanks
and controls around it and line breaks and tabs within it are passed over. Nothing is
read relative to another locator.
-/

namespace Resumable

inductive UrlError where
  | emptyHost
  | domain
  | port
  | fourBytes
  | eightWords
  | hostCharacter
  | relative
  deriving DecidableEq, Repr

namespace UrlError

def message : UrlError → String
  | .emptyHost => "empty host"
  | .domain => "invalid international domain name"
  | .port => "invalid port number"
  | .fourBytes => "invalid IPv4 address"
  | .eightWords => "invalid IPv6 address"
  | .hostCharacter => "invalid domain character"
  | .relative => "relative URL without a base"

end UrlError

namespace Url

def trim (cs : List Char) : List Char :=
  let front := cs.dropWhile (·.toNat ≤ 0x20)
  let both := (front.reverse.dropWhile (·.toNat ≤ 0x20)).reverse
  both.filter fun c => c != '\t' && c != '\n' && c != '\r'

def isSchemeChar (c : Char) : Bool := c.isAlphanum || c == '+' || c == '-' || c == '.'

def splitScheme? (cs : List Char) : Option (String × List Char) :=
  match cs.head?, cs.dropWhile isSchemeChar with
  | some c, ':' :: rest =>
      if c.isAlpha then
        some (String.ofList ((cs.takeWhile isSchemeChar).map Char.toLower), rest)
      else none
  | _, _ => none

def isSlash (special : Bool) (c : Char) : Bool := c == '/' || (special && c == '\\')

def endsAuthority (special : Bool) (c : Char) : Bool :=
  isSlash special c || c == '?' || c == '#'

def endsPath (c : Char) : Bool := c == '?' || c == '#'

def specialHost (cs : List Char) : Except UrlError UrlHost :=
  match cs with
  | '[' :: inner =>
      if inner.getLast? != some ']' then .error .eightWords
      else
        match Address.eight? inner.dropLast with
        | some ws => .ok (.eight ws)
        | none => .error .eightWords
  | _ =>
      let bytes := Percent.decode (cs.flatMap String.utf8EncodeChar)
      match (String.fromUTF8? ⟨bytes.toArray⟩).bind fun s =>
        Domain.toAscii? s.toList with
      | none => .error .domain
      | some [] => .error .emptyHost
      | some ascii =>
          if Address.endsInNumber ascii then
            match Address.four? ascii with
            | some a => .ok (.four a)
            | none => .error .fourBytes
          else .ok (.name (String.ofList ascii))

def isOpaqueForbidden (c : Char) : Bool :=
  [ '\x00', '\t', '\n', '\r', ' ', '#', '/', ':', '<', '>', '?', '@', '[',
    '\\', ']', '^'
  , '|' ].contains c

def opaqueHost (cs : List Char) : Except UrlError UrlHost :=
  match cs with
  | '[' :: _ => specialHost cs
  | _ =>
      if cs.any isOpaqueForbidden then .error .hostCharacter
      else .ok (.name (String.ofList (Percent.encode Percent.isControl cs)))

/-- Split a host from what follows it. A colon in brackets belongs to the host. -/
def splitHost (special : Bool) : Bool → List Char → List Char × List Char
  | _, [] => ([], [])
  | bracketed, c :: rest =>
      if (c == ':' && !bracketed) || endsAuthority special c then ([], c :: rest)
      else
        let bracketed := if c == '[' then true else if c == ']' then false
          else bracketed
        let (host, after) := splitHost special bracketed rest
        (c :: host, after)

/-- Read a port and what follows it; no digits are no port. -/
def readPort (cs : List Char) : Except UrlError (Option Nat × List Char) :=
  let digits := cs.takeWhile Char.isDigit
  let rest := cs.dropWhile Char.isDigit
  if 65535 < Address.numeral 10 digits then .error .port
  else if rest.head?.any fun c => !endsAuthority true c then .error .port
  else .ok (if digits.isEmpty then none else some (Address.numeral 10 digits), rest)

def splitUser (authority : List Char) : Option (List Char × List Char) :=
  if authority.contains '@' then
    let host := (authority.reverse.takeWhile (· ≠ '@')).reverse
    some (authority.take (authority.length - host.length - 1), host)
  else none

structure UserInfo where
  username : String := ""
  password : Option String := none

namespace UserInfo

def isEmpty (u : UserInfo) : Bool := u.username.isEmpty && u.password.isNone

/-- A user's name and, behind the first colon, a password; an empty password is none. -/
def ofChars (cs : List Char) : UserInfo :=
  let encoded (cs : List Char) : String :=
    String.ofList (Percent.encode Percent.inUserinfo cs)
  match cs.dropWhile (· ≠ ':') with
  | _ :: [] => { username := encoded (cs.takeWhile (· ≠ ':')) }
  | _ :: password =>
      { username := encoded (cs.takeWhile (· ≠ ':')),
        password := some (encoded password) }
  | [] => { username := encoded cs }

end UserInfo

def isSingleDot (segment : List Char) : Bool :=
  [".", "%2e"].contains (String.ofList (segment.map Char.toLower))

def isDoubleDot (segment : List Char) : Bool :=
  ["..", ".%2e", "%2e.", "%2e%2e"].contains (String.ofList (segment.map Char.toLower))

/-- A drive letter: a letter and a colon or a bar. -/
def isDrive : List Char → Bool
  | [a, b] => a.isAlpha && (b == ':' || b == '|')
  | _ => false

/-- Leave the last segment, which a drive letter at the front of a file's
path never is. -/
def leave (scheme : String) (path : List (List Char)) : List (List Char) :=
  match path with
  | [s] => if scheme == "file" && isDrive s then path else []
  | _ => path.dropLast

/-- Follow segments. A dot segment at the end leaves an empty one. -/
def follow (scheme : String) : List (List Char) → List (List Char) → List (List Char)
  | path, [] => path
  | path, s :: rest =>
      if isDoubleDot s then
        let path := leave scheme path
        follow scheme (if rest.isEmpty then path ++ [[]] else path) rest
      else if isSingleDot s then
        follow scheme (if rest.isEmpty then path ++ [[]] else path) rest
      else
        let s :=
          if scheme == "file" && path.isEmpty && isDrive s then s.take 1 ++ [':']
          else Percent.encode Percent.inPath s
        follow scheme (path ++ [s]) rest

def splitSegments (special : Bool) (cs : List Char) : List (List Char) :=
  cs.splitOnP (isSlash special)

/-- The path of a locator with segments. The path of a file does not begin with
empty ones. -/
def pathOf (scheme : String) (special : Bool) (cs : List Char) : UrlPath :=
  let start := cs.takeWhile (!endsPath ·)
  let path : List (List Char) :=
    match start with
    | [] => if special then [[]] else []
    | c :: rest =>
        follow scheme []
          (splitSegments special (if isSlash special c then rest else start))
  let path :=
    if scheme == "file" then
      match path.dropWhile List.isEmpty with
      | [] => [[]]
      | kept => kept
    else path
  .segments (path.map String.ofList)

def withTail (u : Url) (special : Bool) (cs : List Char) : Url :=
  let behind := cs.dropWhile (!endsPath ·)
  let set := if special then Percent.inSpecialQuery else Percent.inQuery
  let query :=
    match behind with
    | '?' :: rest =>
        some (String.ofList (Percent.encode set (rest.takeWhile (· ≠ '#'))))
    | _ => none
  let fragment :=
    match behind.dropWhile (· ≠ '#') with
    | '#' :: rest => some (String.ofList (Percent.encode Percent.inFragment rest))
    | _ => none
  { u with query := query, fragment := fragment }

def withAuthority (scheme : String) (cs : List Char) : Except UrlError Url := do
  let special := isSpecial scheme
  let authority := cs.takeWhile (!endsAuthority special ·)
  let behind := cs.dropWhile (!endsAuthority special ·)
  let (user, rest) : List Char × List Char :=
    match splitUser authority with
    | none => ([], cs)
    | some (user, host) => (user, host ++ behind)
  if authority.getLast? = some '@' && user.isEmpty && !behind.isEmpty then
    throw .emptyHost
  let info := UserInfo.ofChars user
  let (hostChars, rest) := splitHost special false rest
  if special && hostChars.isEmpty then throw .emptyHost
  let host ← if special then specialHost hostChars else opaqueHost hostChars
  if hostChars.isEmpty && (rest.head? == some ':' || !info.isEmpty) then
    throw .emptyHost
  let (port, rest) ←
    match rest with
    | ':' :: digits => readPort digits
    | _ => pure (none, rest)
  let u : Url :=
    { scheme, username := info.username, password := info.password, host := some host
      port := if port == defaultPort? scheme then none else port
      path := pathOf scheme special rest }
  return u.withTail special rest

/-- Read a locator of a file. The host of one is left out if it is this machine or a
drive follows. -/
def ofFile (cs : List Char) : Except UrlError Url := do
  let (hostChars, rest) : List Char × List Char :=
    match cs with
    | a :: b :: behind =>
        if isSlash true a && isSlash true b then
          let host := behind.takeWhile (!endsAuthority true ·)
          if isDrive host then ([], behind)
            else (host, behind.dropWhile (!endsAuthority true ·))
        else ([], cs)
    | _ => ([], cs)
  let host ← if hostChars.isEmpty then pure (.name "") else specialHost hostChars
  let path := pathOf "file" true rest
  let drive : Bool :=
    match path with
    | .segments (s :: _) => isDrive s.toList
    | _ => false
  let host := if host == .name "localhost" || drive then .name "" else host
  let u : Url := { scheme := "file", host := some host, path := path }
  return u.withTail true rest

def withoutAuthority (scheme : String) (cs : List Char) : Url :=
  let path :=
    match cs with
    | '/' :: _ => pathOf scheme false cs
    | _ =>
        .opaqueText
          (String.ofList
            (Percent.encode Percent.isControl (cs.takeWhile (!endsPath ·))))
  let u : Url := { scheme, path := path }
  u.withTail false cs

def parse (text : String) : Except UrlError Url :=
  match splitScheme? (trim text.toList) with
  | none => .error .relative
  | some (scheme, rest) =>
      if scheme == "file" then ofFile rest
      else if isSpecial scheme then withAuthority scheme (rest.dropWhile (isSlash true))
      else
        match rest with
        | '/' :: '/' :: behind => withAuthority scheme behind
        | _ => .ok (withoutAuthority scheme rest)

end Url

end Resumable
