import Resumable.Host.Instance

/-!
# The imports of the host

Five imports: exchange a message, retrieve a stashed reply, read, write and close a
stream. Each runs under the bridge: what needs no waiting is answered at once,
anything else suspends the core and is finished when the core is resumed.
-/

namespace Resumable

namespace Live

variable {G : Type}

def answer (result : Except Errno UInt32) : Live G UInt64 := do
  ofAbi ((AbiResult.ofExcept result).encode (← config).pairEncoding)

/-- Write a reply into the core's buffer; handle 0 stands for that. -/
def writeInline (bytes : ByteArray) (outPtr : UInt32) : Live G Handle := do
  if !(← writeMemory outPtr bytes) then Act.fail .replyOutside
  return 0

def stash (bytes : ByteArray) : Live G Handle := do
  match ← host fun h =>
      let (handle, messages) := h.messages.insert bytes
      (handle, { h with messages := messages }) with
  | some handle => return handle
  | none => Act.fail .storeFull

/-- Write a reply into the core's buffer if it fits, else stash it. The answer is its
size and the handle of the stash, 0 for a reply that was written. -/
def deliver (message : Outgoing) (outPtr outLen : UInt32) : Live G UInt64 := do
  let bytes := message.encode
  if 4294967296 ≤ bytes.size then Act.fail .replyTooLong
  let size := UInt32.ofNat bytes.size
  let handle ← if size ≤ outLen then writeInline bytes outPtr else stash bytes
  ofAbi (Pair.encode (← config).pairEncoding ⟨size, handle⟩)

/-- The first half of an exchange. A message over the limit is refused unread. -/
def beginExchange (ptr len outPtr outLen : UInt32) :
    Live G (HostStep UInt64 Deferred) := do
  let limit := (← config).maxMessageBytes
  if limit < len.toNat then
    return .ready (← deliver (.tooLarge len.toNat limit) outPtr outLen)
  match ← readMemory? ptr len with
  | none => Act.fail .messageOutside
  | some raw =>
      match ← host fun h => h.dispatch raw with
      | .reply message => return .ready (← deliver message outPtr outLen)
      | .deferred operation => return .suspend operation

def endExchange (outPtr outLen : UInt32) : Resolved → Live G UInt64
  | .message completion => do
      let message ← host fun h => completion.apply h
      deliver message outPtr outLen
  | _ => Act.violate .resolvedMismatch

/-- Copy a stashed reply out and forget it; it stays if that fails. -/
def retrieve (handle outPtr outLen : UInt32) : Live G (Except Errno UInt32) := do
  match ← Act.read fun i => i.host.messages.get? handle with
  | none => return .error .badF
  | some bytes =>
      if outLen.toNat < bytes.size then return .error .range
      else if !(← writeMemory outPtr bytes) then return .error .fault
      else
        host fun h => ((), { h with messages := (h.messages.remove handle).2 })
        return .ok (UInt32.ofNat bytes.size)

/-- Lengths of buffers to read into are signed; negative ones count as 0. -/
def readLimit (outLen : UInt32) (config : RuntimeConfig) : Nat :=
  min outLen.toInt32.toInt.toNat config.maxReadBytes

def beginRead (handle outLen : UInt32) : Live G (HostStep UInt64 Deferred) := do
  match ← Act.read fun i => i.host.streams.get? handle with
  | none => return .ready (← answer (.error .badF))
  | some stream => return .suspend (.read handle stream (readLimit outLen (← config)))

def endRead (outPtr : UInt32) : Resolved → Live G UInt64
  | .read (.ok bytes) => do
      if ← writeMemory outPtr bytes then answer (.ok (UInt32.ofNat bytes.size))
      else answer (.error .fault)
  | .read (.error errno) => answer (.error errno)
  | _ => Act.violate .resolvedMismatch

def beginWrite (handle inPtr inLen : UInt32) : Live G (HostStep UInt64 Deferred) := do
  match ← Act.read fun i => i.host.streams.get? handle with
  | none => return .ready (← answer (.error .badF))
  | some stream =>
      match ← readMemory? inPtr inLen with
      | none => return .ready (← answer (.error .fault))
      | some bytes => return .suspend (.write stream bytes)

def endWrite : Resolved → Live G UInt64
  | .write result => answer (result.map UInt32.ofNat)
  | _ => Act.violate .resolvedMismatch

/-- The handle is gone from here on, however closing ends. -/
def beginClose (handle : UInt32) : Live G (HostStep UInt64 Deferred) := do
  match ← host fun h =>
      let (stream, streams) := h.streams.remove handle
      (stream, { h with streams := streams }) with
  | none => return .ready (← answer (.error .badF))
  | some stream => return .suspend (.close stream)

def endClose : Resolved → Live G UInt64
  | .close result => answer (result.map fun _ => 0)
  | _ => Act.violate .resolvedMismatch

end Live

namespace Instance

variable {G R : Type}

/-- Serve one call of an import. A call that suspends answers 0. -/
def serve : ImportCall → Live G UInt64
  | .messageExchange ptr len outPtr outLen =>
      control.hostCall 0 (Live.beginExchange ptr len outPtr outLen)
        (Live.endExchange outPtr outLen)
  | .messageRetrieve handle outPtr outLen =>
      control.hostCall 0
        (do return .ready (← Live.answer (← Live.retrieve handle outPtr outLen)))
        fun _ => Act.violate .resolvedMismatch
  | .streamRead handle outPtr outLen =>
      control.hostCall 0 (Live.beginRead handle outLen) (Live.endRead outPtr)
  | .streamWrite handle inPtr inLen =>
      control.hostCall 0 (Live.beginWrite handle inPtr inLen) Live.endWrite
  | .streamClose handle => control.hostCall 0 (Live.beginClose handle) Live.endClose

def invoke (entry : Exports G → CoreState G → Activation G R) : Live G R := do
  let i ← Act.read id
  run serve (entry i.exports i.core)

end Instance

end Resumable
