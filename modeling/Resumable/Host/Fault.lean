import Resumable.Abi.Pair
import Resumable.Bridge.Basic
import Resumable.Core.Activation

namespace Resumable

inductive ArenaError where
  | descriptorOutside
  | rangeOutside (start length : Nat)
  deriving DecidableEq, Repr

namespace ArenaError

def message : ArenaError → String
  | .descriptorOutside =>
      "arena descriptor is outside core memory: out of bounds memory access"
  | .rangeOutside start length =>
      s!"arena range {start}+{length} is outside core memory"

end ArenaError

inductive Fault where
  | trap (cause : Trap)
  | unbound
  | messageOutside
  | replyOutside
  | replyTooLong
  | storeFull
  | abi (error : AbiError)
  | headerOutside
  | metricsArena (error : ArenaError)
  | dumpArena (error : ArenaError)
  | performLost
  deriving DecidableEq, Repr

namespace Fault

def message : Fault → String
  | .trap cause => cause.message
  | .unbound => "core exports are not bound"
  | .messageOutside => "message is outside core memory: " ++ Errno.fault.message
  | .replyOutside => "reply buffer is outside core memory: " ++ Errno.fault.message
  | .replyTooLong => "reply does not fit in 32 bits"
  | .storeFull => "every message store handle is in use"
  | .abi error => error.message
  | .headerOutside =>
      "asyncify data header is outside core memory: out of bounds memory access"
  | .metricsArena error => "failed to read metrics arena: " ++ error.message
  | .dumpArena error => "failed to read developer dump arena: " ++ error.message
  | .performLost => "perform state disappeared during the call"

end Fault

abbrev CallError := Failure Fault

namespace CallError

def message : CallError → String
  | .violation v => v.message
  | .other fault => fault.message

end CallError

inductive InstantiateError where
  | link (error : LinkError)
  | start (error : CallError)
  | exports (error : ExportError)

namespace InstantiateError

def message : InstantiateError → String
  | .link (.unknownImport name) =>
      s!"failed to instantiate core: unknown import: `{name}` has not been defined"
  | .link .dataOutside => "failed to instantiate core: " ++ Trap.outOfBounds.message
  | .start error => "failed to instantiate core: " ++ error.message
  | .exports error => error.message

end InstantiateError

end Resumable
