import Resumable.Abi.Errno

/-!
# Reading chunks through buffers of any size

A source hands over chunks as they come. They are queued: a chunk that is larger than
what is asked for is split and the rest of it goes back, and the source is asked for
another only when the queue is empty. An empty chunk is not the end.
-/

namespace Resumable

inductive Pull where
  | chunk (bytes : ByteArray)
  | failed (errno : Errno)
  | ended

/-- `source` is gone once it has ended. The oldest chunk is the first in `queue`. -/
structure ChunkReader (U : Type) where
  source : Option U
  queue : List ByteArray
  closed : Bool

namespace ChunkReader

variable {U : Type} {m : Type → Type} [Monad m]

def ofSource (u : U) : ChunkReader U := ⟨some u, [], false⟩

def push (bytes : ByteArray) (r : ChunkReader U) : ChunkReader U :=
  if bytes.isEmpty then r else { r with queue := r.queue ++ [bytes] }

/-- Add queued bytes to `out` until it holds `max`. What a chunk has over stays the
first in the queue. -/
def takeFrom (max : Nat) (out : ByteArray) : List ByteArray → ByteArray × List ByteArray
  | [] => (out, [])
  | chunk :: queue =>
      if max ≤ out.size then (out, chunk :: queue)
      else
        let room := max - out.size
        if room < chunk.size then
          (out ++ chunk.extract 0 room, chunk.extract room chunk.size :: queue)
        else takeFrom max (out ++ chunk) queue

def take (r : ChunkReader U) (max : Nat) : ByteArray × ChunkReader U :=
  let (bytes, queue) := takeFrom max .empty r.queue
  (bytes, { r with queue := queue })

/-- Ask the source until something is queued, it fails, or it ends. The answer says
whether anything is queued; `none` means that the source was asked `fuel` times and
gave only empty chunks. -/
def fill (pull : U → m (Pull × U)) :
    Nat → ChunkReader U → m (Option (Except Errno Bool × ChunkReader U))
  | 0, r => pure (if r.queue.isEmpty then none else some (.ok true, r))
  | fuel + 1, r =>
      if !r.queue.isEmpty then pure (some (.ok true, r))
      else
        match r.source with
        | none => pure (some (.ok false, r))
        | some u => do
            let (item, u) ← pull u
            match item with
            | .chunk bytes => fill pull fuel ({ r with source := some u }.push bytes)
            | .failed errno => pure (some (.error errno, { r with source := some u }))
            | .ended => pure (some (.ok false, { r with source := none }))

/-- Read at most `max` bytes. No bytes mean the end, or that none were asked for. -/
def read (pull : U → m (Pull × U)) (fuel max : Nat) (r : ChunkReader U) :
    m (Option (Except Errno ByteArray × ChunkReader U)) :=
  if r.closed then pure (some (.error .badF, r))
  else if max = 0 then pure (some (.ok .empty, r))
  else do
    match ← fill pull fuel r with
    | none => pure none
    | some (.error errno, r) => pure (some (.error errno, r))
    | some (.ok false, r) => pure (some (.ok .empty, r))
    | some (.ok true, r) =>
        let (bytes, r) := r.take max
        pure (some (.ok bytes, r))

/-- A source of chunks cannot be written to. -/
def write (_bytes : ByteArray) (r : ChunkReader U) : Except Errno Nat × ChunkReader U :=
  (.error .notSup, r)

def close (_r : ChunkReader U) : Except Errno Unit × ChunkReader U :=
  (.ok (), ⟨none, [], true⟩)

end ChunkReader

abbrev Chunks := List (Except Errno ByteArray)

namespace Chunks

def pull : Chunks → Pull × Chunks
  | [] => (.ended, [])
  | .ok bytes :: rest => (.chunk bytes, rest)
  | .error errno :: rest => (.failed errno, rest)

end Chunks

end Resumable
