import Resumable.Bridge.Basic
import Resumable.Config.Runtime
import Resumable.Handle.Table
import Resumable.Perform.Outcome
import Resumable.Service.Task
import Resumable.Stream.ChunkReader

/-!
# The host's side of an instance

What the host keeps for one core instance: the bridge slot, the perform in progress,
three handle tables, and the effects that have not yet been passed on.
-/

namespace Resumable

inductive Stream where
  | file (id : Nat)
  | body (reader : ChunkReader Nat)

inductive Deferred where
  | openFile (path : String) (flags : OpenFlags)
  | head (ticket : Nat)
  | read (handle : Handle) (stream : Stream) (max : Nat)
  | write (stream : Stream) (bytes : ByteArray)
  | close (stream : Stream)

inductive Completion where
  | fileOpened (result : Except Errno Nat)
  | httpHead (result : Except NetworkError HttpHead)

inductive Resolved where
  | message (completion : Completion)
  | read (result : Except Errno ByteArray)
  | write (result : Except Errno Nat)
  | close (result : Except Errno Unit)

/-- `outbox` holds the effects of the running export, last first; `tickets` counts
the fetches. -/
structure HostState where
  config : RuntimeConfig
  bridge : Bridge Deferred Resolved
  perform : Option PerformState
  streams : HandleTable Stream
  responses : HandleTable Nat
  messages : HandleTable ByteArray
  tickets : Nat
  outbox : List Effect

namespace HostState

/-- A stashed reply's handle must fit the second half of a pair. -/
def ofConfig (config : RuntimeConfig) : HostState where
  config := config
  bridge := .idle
  perform := none
  streams := .empty
  responses := .empty
  messages := .withLimit config.pairEncoding.maxSecond
  tickets := 0
  outbox := []

def emit (h : HostState) (e : Effect) : HostState := { h with outbox := e :: h.outbox }

def release (h : HostState) : Nat × HostState :=
  let (streams, left) := h.streams.drain
  let (responses, unclaimed) := h.responses.drain
  let (messages, unread) := h.messages.drain
  (streams.length + responses.length + messages.length,
    { h with
      bridge := h.bridge.clear, perform := none
      streams := left, responses := unclaimed, messages := unread })

end HostState

end Resumable
