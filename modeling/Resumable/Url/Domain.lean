import Resumable.Text.Folding
import Resumable.Url.Punycode

namespace Resumable.Domain

def isForbidden (c : Char) : Bool :=
  c.toNat ≤ 0x20 || c.toNat == 0x7F ||
    ['#', '/', ':', '<', '>', '?', '@', '[', '\\', ']', '^', '|', '%'].contains c

/-- Characters outside ASCII that no label holds: controls, blanks, joiners, private
use, and what is no character. -/
def isUnfit (c : Char) : Bool :=
  let n := c.toNat
  (0x80 ≤ n && n ≤ 0xA0) || n == 0x61C || n == 0x1680 || n == 0x180E ||
  (0x2000 ≤ n && n ≤ 0x200F) ||
    (0x2028 ≤ n && n ≤ 0x202F) || (0x205F ≤ n && n ≤ 0x206F) || n == 0x3000 ||
    (0xE000 ≤ n && n ≤ 0xF8FF) || (0xFDD0 ≤ n && n ≤ 0xFDEF) ||
    (0xFFF0 ≤ n && n ≤ 0xFFFF) || n % 0x10000 == 0xFFFE || n % 0x10000 ==
    0xFFFF || 0xE0000 ≤ n

def isMark (c : Char) : Bool :=
  let n := c.toNat
  (0x300 ≤ n && n ≤ 0x36F) || (0x1AB0 ≤ n && n ≤ 0x1AFF) ||
  (0x1DC0 ≤ n && n ≤ 0x1DFF) ||
    (0x20D0 ≤ n && n ≤ 0x20FF) || (0xFE20 ≤ n && n ≤ 0xFE2F)

def fold (name : List Char) : List Char :=
  (name.filter (!Text.isIgnorable ·)).map Text.foldChar

def isFit (label : List Char) : Bool :=
  label.all (!isUnfit ·) && !(label.head?.any isMark)

def encodedMark : List Char := ['x', 'n', '-', '-']

/-- The ASCII form of a folded label. A label that is encoded already must be the
encoding of a label that needs it. -/
def labelToAscii? (label : List Char) : Option (List Char) :=
  if encodedMark.isPrefixOf label then
    match Punycode.decode? (label.drop 4) with
    | none => none
    | some plain =>
        if isFit plain && fold plain == plain && !plain.all Punycode.isBasic &&
            Punycode.encode plain == label.drop 4 then some label
        else none
  else if label.all Punycode.isBasic then some label
  else if isFit label then some (encodedMark ++ Punycode.encode label)
  else none

def toAscii? (name : List Char) : Option (List Char) := do
  let ls ← ((fold name).splitOn '.').mapM labelToAscii?
  let ascii := ['.'].intercalate ls
  if ascii.any isForbidden then none else some ascii

end Resumable.Domain
