namespace Resumable.Http

def isTokenByte (b : UInt8) : Bool :=
  let c := Char.ofNat b.toNat
  c.isAlphanum || ("!#$%&'*+-.^_\x60|~".toList.contains c)

def isToken (s : String) : Bool := !s.isEmpty && s.toUTF8.toList.all isTokenByte

def isValueByte (b : UInt8) : Bool := (32 ≤ b && b != 127) || b == 9

def isValue (s : String) : Bool := s.toUTF8.toList.all isValueByte

def lowerName (s : String) : String := s.map Char.toLower

def nameLimit : Nat := 65535

def isFieldName (s : String) : Bool := isToken s && s.utf8ByteSize ≤ nameLimit

abbrev Fields (V : Type) := List (String × V)

namespace Fields

variable {V : Type}

def has (fields : Fields V) (name : String) : Bool := fields.any (·.1 == name)

def values (fields : Fields V) (name : String) : List V :=
  (fields.filter (·.1 == name)).map (·.2)

def first? (fields : Fields V) (name : String) : Option V := (fields.values name).head?

def without (fields : Fields V) (names : List String) : Fields V :=
  fields.filter fun f => !names.contains f.1

def orElse (fields : Fields V) (name : String) (value : V) : Fields V :=
  if fields.has name then fields else fields ++ [(name, value)]

end Fields

end Resumable.Http
