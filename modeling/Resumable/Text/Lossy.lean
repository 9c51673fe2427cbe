namespace Resumable.Text

def isContinuation (b : UInt8) : Bool := 0x80 ≤ b && b ≤ 0xBF

/-- How many bytes follow a leading byte, and the range of the first of them. -/
def following? (b : UInt8) : Option (Nat × UInt8 × UInt8) :=
  if 0xC2 ≤ b && b ≤ 0xDF then some (1, 0x80, 0xBF)
  else if b == 0xE0 then some (2, 0xA0, 0xBF)
  else if b == 0xED then some (2, 0x80, 0x9F)
  else if 0xE1 ≤ b && b ≤ 0xEF then some (2, 0x80, 0xBF)
  else if b == 0xF0 then some (3, 0x90, 0xBF)
  else if 0xF1 ≤ b && b ≤ 0xF3 then some (3, 0x80, 0xBF)
  else if b == 0xF4 then some (3, 0x80, 0x8F)
  else none

def codePoint (lead : UInt8) (others : List UInt8) : Nat :=
  let high := lead.toNat % Nat.pow 2 (6 - others.length)
  others.foldl (fun n b => 64 * n + b.toNat % 64) high

/-- The character at the front and how many of the bytes behind the first
belong to it. -/
def frontChar (b : UInt8) (rest : List UInt8) : Char × Nat :=
  if b < 0x80 then (Char.ofNat b.toNat, 0)
  else
    match following? b with
    | none => ('\uFFFD', 0)
    | some (count, low, high) =>
        match rest with
        | c :: others =>
            if low ≤ c && c ≤ high then
              let more := (others.take (count - 1)).takeWhile isContinuation
              if more.length = count -
                1 then (Char.ofNat (codePoint b (c :: more)), count)
              else ('\uFFFD', 1 + more.length)
            else ('\uFFFD', 0)
        | [] => ('\uFFFD', 0)

def lossyChars : List UInt8 → List Char
  | [] => []
  | b :: rest => (frontChar b rest).1 :: lossyChars (rest.drop (frontChar b rest).2)
termination_by bs => bs.length
decreasing_by
  simp only [List.length_drop, List.length_cons]
  omega

def lossy (bytes : ByteArray) : String :=
  match String.fromUTF8? bytes with
  | some s => s
  | none => String.ofList (lossyChars bytes.toList)

end Resumable.Text
