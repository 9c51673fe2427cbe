import Resumable.Service.Task

namespace Resumable

structure StoredEvent where
  id : Nat
  kind : EventKind
  payload : String

structure EventStore where
  rows : List StoredEvent

namespace EventStore

def empty : EventStore := ⟨[]⟩

def nextId (s : EventStore) : Nat :=
  match s.rows with
  | [] => 1
  | row :: _ => row.id + 1

def insert (s : EventStore) (kind : EventKind) (payload : String) : EventStore :=
  ⟨⟨s.nextId, kind, payload⟩ :: s.rows⟩

def persist (s : EventStore) (kind : EventKind) (events : List String) : EventStore :=
  events.foldl (fun s e => s.insert kind e) s

def events (s : EventStore) (kind : EventKind) : List StoredEvent :=
  (s.rows.filter (·.kind == kind)).reverse

end EventStore

end Resumable
