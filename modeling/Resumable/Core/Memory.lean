/-!
# Linear memory

A size in bytes and the bytes written so far; all bytes behind those are zero. A range
is accepted if its end, computed without wrapping, does not exceed the size, also when
it is empty.
-/

namespace Resumable

structure Memory where
  size : Nat
  data : ByteArray

namespace Memory

def pageSize : Nat := 65536

def pageLimit : Nat := 65536

def zeros (n : Nat) : ByteArray := ⟨Array.replicate n 0⟩

def ofPages (pages : Nat) : Memory := ⟨pages * pageSize, .empty⟩

def pages (m : Memory) : Nat := m.size / pageSize

/-- The byte at an address, zero where nothing was written. -/
def byte (m : Memory) (address : Nat) : UInt8 := m.data.data.getD address 0

def covers (m : Memory) (start length : Nat) : Bool := start + length ≤ m.size

def read? (m : Memory) (start length : Nat) : Option ByteArray :=
  if m.covers start length then
    let written := m.data.extract start (start + length)
    some (written ++ zeros (length - written.size))
  else none

def write? (m : Memory) (start : Nat) (bytes : ByteArray) : Option Memory :=
  if m.covers start bytes.size then
    let room := m.data ++ zeros (start - m.data.size)
    some { m with data := bytes.copySlice 0 room start bytes.size }
  else none

/-- More pages, unless there would be too many. -/
def grow? (m : Memory) (more : Nat) : Option Memory :=
  if m.pages + more ≤ pageLimit then some { m with size := m.size + more * pageSize }
    else none

end Memory

end Resumable
