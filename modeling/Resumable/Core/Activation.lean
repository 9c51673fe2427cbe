import Resumable.Core.Memory

/-!
# Cores

A core is a module with a memory of its own, whose exports run until they return,
trap, or call one of five imports of the host. `Activation` is such a run: it holds
the core's state at the point it has reached, and at an import call what it does with
the answer. `G` is whatever a core keeps besides its memory. A remark is a line for an
observer; the host passes it on and makes nothing of it.
-/

namespace Resumable

inductive Trap where
  | unreachable
  | outOfBounds
  deriving DecidableEq, Repr

namespace Trap

def message : Trap → String
  | .unreachable => "wasm trap: wasm `unreachable` instruction executed"
  | .outOfBounds => "wasm trap: out of bounds memory access"

end Trap

inductive ImportCall where
  | messageExchange (ptr len outPtr outLen : UInt32)
  | messageRetrieve (handle outPtr outLen : UInt32)
  | streamRead (handle outPtr outLen : UInt32)
  | streamWrite (handle inPtr inLen : UInt32)
  | streamClose (handle : UInt32)
  deriving DecidableEq, Repr

inductive RemarkBody where
  | word (w : UInt64)
  | bytes (b : ByteArray)

structure Remark where
  label : String
  body : RemarkBody

structure CoreState (G : Type) where
  memory : Memory
  globals : G

inductive Activation (G R : Type) where
  | finish (state : CoreState G) (value : R)
  | trap (state : CoreState G) (trap : Trap)
  | call (state : CoreState G) (request : ImportCall)
      (resume : CoreState G → UInt64 → Activation G R)
  | remark (line : Remark) (rest : Activation G R)

/-- The exports that the host drives. The asyncify controls work at once; the
others are run. -/
structure Exports (G : Type) where
  getState : CoreState G → Except Trap Int32 × CoreState G
  startUnwind : UInt32 → CoreState G → Except Trap Unit × CoreState G
  stopUnwind : CoreState G → Except Trap Unit × CoreState G
  startRewind : UInt32 → CoreState G → Except Trap Unit × CoreState G
  stopRewind : CoreState G → Except Trap Unit × CoreState G
  setup : CoreState G → Activation G Unit
  teardown : CoreState G → Activation G Unit
  perform : CoreState G → Activation G Unit
  getMetrics : CoreState G → Activation G UInt32
  clearMetrics : CoreState G → Activation G Unit
  getDeveloperDump : CoreState G → Activation G UInt32

inductive LinkError where
  | unknownImport (name : String)
  | dataOutside
  deriving DecidableEq, Repr

inductive ExportError where
  | noMemory
  | noFunction (name : String)
  deriving DecidableEq, Repr

namespace ExportError

def message : ExportError → String
  | .noMemory => "core does not export memory"
  | .noFunction name => s!"failed to find function export `{name}`"

end ExportError

/-- A compiled core: its fresh state, what it runs at once if anything, and its
exports, of which some may be missing. -/
structure Core (G : Type) where
  create : Except LinkError (CoreState G)
  start : Option (CoreState G → Activation G Unit)
  exports : Except ExportError (Exports G)

end Resumable
