import Resumable.Proofs.Service.Exchanges
import Resumable.Session.Slot

namespace Resumable

/-- The exports that are run. The asyncify controls are not among them. -/
inductive ExportName where
  | setup
  | teardown
  | perform
  | getMetrics
  | clearMetrics
  | getDeveloperDump
  deriving DecidableEq, Repr

def ExportName.label : ExportName → String
  | .setup => "core_setup"
  | .teardown => "core_teardown"
  | .perform => "core_perform"
  | .getMetrics => "core_get_metrics"
  | .clearMetrics => "core_clear_metrics"
  | .getDeveloperDump => "core_get_developer_dump"

inductive Announcement where
  | created
  | invoked (name : ExportName) (again : Bool)
  deriving DecidableEq, Repr

namespace Announcement

def label : Announcement → String
  | .created => "created"
  | .invoked name false => name.label
  | .invoked name true => name.label ++ " again"

def line (a : Announcement) : Remark := ⟨a.label, .word 0⟩

def all : List Announcement :=
  .created ::
    [.setup, .teardown, .perform, .getMetrics, .clearMetrics,
      .getDeveloperDump].flatMap fun name => [.invoked name false, .invoked name true]

end Announcement

def Remark.announcement? (line : Remark) : Option Announcement :=
  Announcement.all.find? (·.label == line.label)

theorem Announcement.announcement?_line (a : Announcement) :
    a.line.announcement? = some a := by
  rcases a with _ | ⟨_ | _ | _ | _ | _ | _, _ | _⟩ <;> rfl

def Effect.announcement? : Effect → Option Announcement
  | .remark line => line.announcement?
  | .fetch _ _ => none

namespace Exchange

def announcement? (e : Exchange) : Option Announcement :=
  match e.request with
  | .emit effect => effect.announcement?
  | _ => none

def announced (log : List Exchange) : List Announcement := log.filterMap announcement?

@[simp]
theorem announced_nil : announced [] = [] := rfl

@[simp]
theorem announced_append (log log' : List Exchange) :
    announced (log ++ log') = announced log ++ announced log' :=
  List.filterMap_append

end Exchange

/-- What a watched core keeps: what the core keeps, and whether it has been told to
rewind since an export of it was last invoked. -/
structure Watched (G : Type) where
  globals : G
  again : Bool

namespace CoreState

variable {G : Type}

def watched (s : CoreState G) (again : Bool) : CoreState (Watched G) :=
  ⟨s.memory, ⟨s.globals, again⟩⟩

def unwatched (s : CoreState (Watched G)) : CoreState G := ⟨s.memory, s.globals.globals⟩

@[simp]
theorem unwatched_watched (s : CoreState G) (again : Bool) :
    (s.watched again).unwatched = s := rfl

end CoreState

def Activation.watched {G R : Type} : Activation G R → Activation (Watched G) R
  | .finish state value => .finish (state.watched false) value
  | .trap state cause => .trap (state.watched false) cause
  | .call state request resume =>
      .call (state.watched false) request fun state word =>
        (resume state.unwatched word).watched
  | .remark _ rest => rest.watched

/-- What a core runs by itself comes to the same if it is watched, and makes no
remarks of its own. -/
theorem Activation.alone_watched {G R : Type} (a : Activation G R) :
    a.watched.alone = ([], a.alone.2.map (·.watched false)) := by
  induction a with
  | finish | trap | call => rfl
  | remark line rest ih => exact ih

namespace Watched

variable {G R α : Type}

def control (call : CoreState G → Except Trap α × CoreState G)
    (s : CoreState (Watched G)) : Except Trap α × CoreState (Watched G) :=
  ((call s.unwatched).1, (call s.unwatched).2.watched s.globals.again)

def rewind (call : CoreState G → Except Trap Unit × CoreState G)
    (s : CoreState (Watched G)) : Except Trap Unit × CoreState (Watched G) :=
  match call s.unwatched with
  | (.ok (), t) => (.ok (), t.watched true)
  | (.error cause, t) => (.error cause, t.watched s.globals.again)

def entry (name : ExportName) (run : CoreState G → Activation G R)
    (s : CoreState (Watched G)) : Activation (Watched G) R :=
  .remark (Announcement.invoked name s.globals.again).line (run s.unwatched).watched

end Watched

variable {G : Type}

def Exports.watched (x : Exports G) : Exports (Watched G) where
  getState := Watched.control x.getState
  startUnwind := fun addr => Watched.control (x.startUnwind addr)
  stopUnwind := Watched.control x.stopUnwind
  startRewind := fun addr => Watched.rewind (x.startRewind addr)
  stopRewind := Watched.control x.stopRewind
  setup := Watched.entry .setup x.setup
  teardown := Watched.entry .teardown x.teardown
  perform := Watched.entry .perform x.perform
  getMetrics := Watched.entry .getMetrics x.getMetrics
  clearMetrics := Watched.entry .clearMetrics x.clearMetrics
  getDeveloperDump := Watched.entry .getDeveloperDump x.getDeveloperDump

def Core.watched (c : Core G) : Core (Watched G) where
  create := c.create.map (·.watched false)
  start := some fun s =>
    .remark Announcement.created.line
      (c.start.getD (fun s => .finish s ()) s.unwatched).watched
  exports := c.exports.map Exports.watched

def Setup.watched (setup : Setup G) : Setup (Watched G) where
  config := setup.config
  compile := fun bytes => (setup.compile bytes).map Core.watched
  fuel := setup.fuel

end Resumable
