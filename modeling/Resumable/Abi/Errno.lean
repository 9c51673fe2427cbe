namespace Resumable

inductive Errno where
  | perm
  | noEnt
  | io
  | badF
  | access
  | fault
  | exist
  | inval
  | range
  | noSys
  | notSup
  | timedOut
  | other (code : UInt32)
  deriving DecidableEq, Repr

/-- Kinds of a failed operation that carries no code. -/
inductive FailureKind where
  | notFound
  | permissionDenied
  | alreadyExists
  | invalidInput
  | invalidData
  | timedOut
  | unsupported
  | uncategorised
  deriving DecidableEq, Repr

namespace Errno

def code : Errno → UInt32
  | .perm => 1
  | .noEnt => 2
  | .io => 5
  | .badF => 9
  | .access => 13
  | .fault => 14
  | .exist => 17
  | .inval => 22
  | .range => 34
  | .noSys => 38
  | .notSup => 95
  | .timedOut => 110
  | .other code => code

def named : List Errno :=
  [.perm, .noEnt, .io, .badF, .access, .fault, .exist, .inval, .range, .noSys,
   .notSup, .timedOut]

def ofCode (code : UInt32) : Errno :=
  match named.find? (·.code == code) with
  | some errno => errno
  | none => .other code

def message : Errno → String
  | .perm => "operation not permitted"
  | .noEnt => "no such file or directory"
  | .io => "input/output error"
  | .badF => "bad handle"
  | .access => "permission denied"
  | .fault => "bad address"
  | .exist => "already exists"
  | .inval => "invalid argument"
  | .range => "buffer too small"
  | .noSys => "function not implemented"
  | .notSup => "operation not supported"
  | .timedOut => "timed out"
  | .other code => s!"errno {code.toNat}"

def ofKind : FailureKind → Errno
  | .notFound => .noEnt
  | .permissionDenied => .access
  | .alreadyExists => .exist
  | .invalidInput => .inval
  | .invalidData => .inval
  | .timedOut => .timedOut
  | .unsupported => .notSup
  | .uncategorised => .io

/-- The code told for a failure of the operating system: positive codes are passed on,
others mean nothing. -/
def ofSystem (code : Int) : Errno :=
  if 0 < code then ofCode (UInt32.ofNat code.toNat) else ofKind .uncategorised

/-- The system's own name for a code. -/
def systemName (errno : Errno) : String :=
  match errno.code.toNat with
  | 1 => "Operation not permitted"
  | 2 => "No such file or directory"
  | 5 => "Input/output error"
  | 9 => "Bad file descriptor"
  | 13 => "Permission denied"
  | 17 => "File exists"
  | 20 => "Not a directory"
  | 21 => "Is a directory"
  | 22 => "Invalid argument"
  | 36 => "File name too long"
  | n => s!"Unknown error {n}"

def systemText (errno : Errno) : String :=
  s!"{errno.systemName} (os error {errno.code.toNat})"

theorem code_ofCode (code : UInt32) : (ofCode code).code = code := by
  unfold ofCode
  split
  · rename_i errno h
    simpa using List.find?_some h
  · rfl

theorem ofCode_code_ofCode (code : UInt32) :
    ofCode (ofCode code).code = ofCode code := by
  rw [code_ofCode]

end Errno

end Resumable
