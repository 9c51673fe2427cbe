/-!
# Handle tables

Small numbers that stand for live resources. Handles run from 1 to the table's limit
and then start over; a live one is passed over, so a handle is given again only after
all others have had their turn.
-/

namespace Resumable

abbrev Handle := UInt32

/-- Live entries in ascending order of handle, the handle to try next, and the
largest handle. -/
structure HandleTable (α : Type) where
  limit : Handle
  next : Handle
  entries : List (Handle × α)

namespace HandleTable

variable {α : Type}

/-- An empty table with handles up to `limit`, which counts as 1 if it is 0. -/
def withLimit (limit : Handle) : HandleTable α := ⟨max limit 1, 1, []⟩

def empty : HandleTable α := withLimit 4294967295

def get? (t : HandleTable α) (h : Handle) : Option α :=
  (t.entries.find? (·.1 == h)).map (·.2)

def isLive (t : HandleTable α) (h : Handle) : Bool := t.entries.any (·.1 == h)

def size (t : HandleTable α) : Nat := t.entries.length

/-- The handle behind `h`, starting over behind the limit. -/
def successor (t : HandleTable α) (h : Handle) : Handle :=
  if t.limit ≤ h then 1 else h + 1

/-- The first handle from `h` on that is not live, among as many as told. -/
def firstFree? (t : HandleTable α) : Nat → Handle → Option Handle
  | 0, _ => none
  | tries + 1, h => if t.isLive h then t.firstFree? tries (t.successor h) else some h

def place (h : Handle) (a : α) : List (Handle × α) → List (Handle × α)
  | [] => [(h, a)]
  | (k, b) :: rest =>
      if h < k then (h, a) :: (k, b) :: rest else (k, b) :: place h a rest

/-- Store a value under a fresh handle, unless as many are live as the limit allows.
One more try than there are live handles meets a free one. -/
def insert (t : HandleTable α) (a : α) : Option Handle × HandleTable α :=
  if t.limit.toNat ≤ t.size then (none, t)
  else
    match t.firstFree? (t.size + 1) t.next with
    | none => (none, t)
    | some h =>
        (some h, { t with next := t.successor h, entries := place h a t.entries })

def remove (t : HandleTable α) (h : Handle) : Option α × HandleTable α :=
  match t.get? h with
  | none => (none, t)
  | some a => (some a, { t with entries := t.entries.filter (·.1 != h) })

def modify (t : HandleTable α) (h : Handle) (f : α → α) : HandleTable α :=
  { t with entries := t.entries.map fun e => if e.1 == h then (e.1, f e.2) else e }

/-- Remove every entry, in ascending order. The handle to try next stays. -/
def drain (t : HandleTable α) : List (Handle × α) × HandleTable α :=
  (t.entries, { t with entries := [] })

end HandleTable

end Resumable
