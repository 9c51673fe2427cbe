import Resumable.Proofs.Bridge.Driving
import Resumable.Proofs.Bridge.Following
import Resumable.Proofs.Core.Watched
import Resumable.Proofs.Host.Replies
import Resumable.Proofs.Service.Alike

namespace Resumable

namespace HostState

variable {α : Type}

def muted (h : HostState) : HostState :=
  { h with outbox := h.outbox.filter fun e => !e.isRemark }

/-- Remarks that have not yet been passed on make no difference. -/
def Deaf (f : HostState → α × HostState) : Prop :=
  ∀ h, f h.muted = ((f h).1, (f h).2.muted)

theorem Deaf.map {β : Type} {f : HostState → α × HostState} (hf : Deaf f) (g : α → β) :
    Deaf fun h => (g (f h).1, (f h).2) := by
  intro h
  change (g (f h.muted).1, (f h.muted).2) = _
  rw [hf h]

theorem deaf_reportOutcome (outcome : Outcome) :
    Deaf fun h => h.reportOutcome outcome := by
  rintro ⟨_, _, perform, _, _, _, _, _⟩
  cases perform with
  | none => rfl
  | some perform =>
      unfold reportOutcome muted
      dsimp only
      cases perform.report outcome <;> rfl

theorem deaf_callHttp (request : HttpRequest) : Deaf fun h => h.callHttp request := by
  rintro ⟨_, _, _, _, responses, _, tickets, _⟩
  unfold callHttp emit muted
  dsimp only
  rcases responses.insert tickets with ⟨_ | _, _⟩ <;> rfl

theorem deaf_claimHead (handle : Handle) : Deaf fun h => h.claimHead handle := by
  rintro ⟨_, _, _, _, responses, _, _, _⟩
  unfold claimHead muted
  dsimp only
  rcases responses.remove handle with ⟨_ | _, _⟩ <;> rfl

theorem deaf_handle (message : Incoming) : Deaf fun h => h.handle message := by
  cases message with
  | performInput =>
      rintro ⟨_, _, perform, _, _, _, _, _⟩
      cases perform <;> rfl
  | outputResult result =>
      exact (deaf_reportOutcome (.result result)).map Dispatch.reply
  | outputError error => exact (deaf_reportOutcome (.error error)).map Dispatch.reply
  | outputException exception =>
      exact (deaf_reportOutcome (.exception exception)).map Dispatch.reply
  | fileOpen path flags => exact fun _ => rfl
  | httpCall request => exact (deaf_callHttp request).map Dispatch.reply
  | httpCallHead handle => exact deaf_claimHead handle
  | unknown kind => exact fun _ => rfl

theorem deaf_dispatch (raw : ByteArray) : Deaf fun h => h.dispatch raw := by
  intro h
  change h.muted.dispatch raw = ((h.dispatch raw).1, (h.dispatch raw).2.muted)
  unfold dispatch
  by_cases hlong : h.config.maxMessageBytes < raw.size
  · rw [if_pos hlong,
      if_pos (show h.muted.config.maxMessageBytes < raw.size from hlong)]
    rfl
  · rw [if_neg hlong,
      if_neg (show ¬ h.muted.config.maxMessageBytes < raw.size from hlong)]
    cases Incoming.decode raw with
    | error e => rfl
    | ok message => exact deaf_handle message h

theorem deaf_addStream (stream : Stream) (reply : Handle → Outgoing) :
    Deaf fun h => h.addStream stream reply := by
  rintro ⟨_, _, _, streams, _, _, _, _⟩
  unfold addStream muted
  dsimp only
  rcases streams.insert stream with ⟨_ | _, _⟩ <;> rfl

theorem deaf_apply (completion : Completion) : Deaf fun h => completion.apply h := by
  rcases completion with ⟨_ | file⟩ | ⟨_ | head⟩
  · exact fun _ => rfl
  · exact deaf_addStream (.file file) .fileOpened
  · exact fun _ => rfl
  · exact deaf_addStream (.body (.ofSource head.body))
      (.httpHead head.status head.headers)

end HostState

variable {G α R : Type}

/-- An instance of a watched core beside one of the core itself. -/
structure Instance.Mirrors (i' : Instance (Watched G)) (i : Instance G) : Prop where
  core : i'.core.unwatched = i.core
  exports : i'.exports = i.exports.watched
  host : i'.host.muted = i.host.muted

namespace Live

open Instance (Mirrors)

/-- A control of a watched core does what that of the core does. -/
theorem follows_control
    (call' : Exports (Watched G) → CoreState (Watched G) →
      Except Trap α × CoreState (Watched G))
    (call : Exports G → CoreState G → Except Trap α × CoreState G)
    (hcall : ∀ x s, (call' x.watched s).1 = (call x s.unwatched).1 ∧
      (call' x.watched s).2.unwatched = (call x s.unwatched).2) :
    Act.Follows Mirrors (Live.control call') (Live.control call) := by
  intro i' i h
  obtain ⟨hvalue, hstate⟩ := hcall i.exports i'.core
  rw [h.core] at hvalue hstate
  simp only [Live.control, Act.on, ExceptT.run, StateT.run]
  rw [h.exports]
  generalize call' i.exports.watched i'.core = outcome' at hvalue hstate
  generalize call i.exports i.core = outcome at hvalue hstate
  obtain ⟨r', s'⟩ := outcome'
  obtain ⟨r, s⟩ := outcome
  obtain rfl : r' = r := hvalue
  cases r' <;> exact ⟨rfl, hstate, rfl, h.host⟩

theorem follows_host {f : HostState → α × HostState} (hf : HostState.Deaf f) :
    Act.Follows Mirrors (Live.host f : Live (Watched G) α)
      (Live.host f : Live G α) := by
  intro i' i h
  obtain ⟨hvalue, hhost⟩ := Prod.ext_iff.mp
    ((hf i'.host).symm.trans ((congrArg f h.host).trans (hf i.host)))
  exact ⟨congrArg Except.ok hvalue, h.core, h.exports, hhost⟩

theorem follows_read {p : HostState → α} (hp : ∀ h, p h.muted = p h) :
    Act.Follows Mirrors (Act.read fun i => p i.host : Live (Watched G) α)
      (Act.read fun i => p i.host) := by
  refine .read fun i' i h => ?_
  rw [← hp i'.host, h.host, hp]

theorem follows_config :
    Act.Follows Mirrors (Live.config : Live (Watched G) RuntimeConfig) Live.config :=
  follows_read fun _ => rfl

theorem follows_readMemory? (ptr len : UInt32) :
    Act.Follows Mirrors (Live.readMemory? ptr len : Live (Watched G) _)
      (Live.readMemory? ptr len) := by
  refine .read fun i' i h => ?_
  rw [← h.core]
  rfl

theorem follows_writeMemory (ptr : UInt32) (bytes : ByteArray) :
    Act.Follows Mirrors (Live.writeMemory ptr bytes : Live (Watched G) _)
      (Live.writeMemory ptr bytes) := by
  intro i' i h
  have hmemory : i'.core.memory = i.core.memory := congrArg CoreState.memory h.core
  cases hwrite : i.core.memory.write? ptr.toNat bytes with
  | none =>
      rw [on_writeMemory_none hwrite, on_writeMemory_none (hmemory ▸ hwrite)]
      exact ⟨rfl, h⟩
  | some memory =>
      rw [on_writeMemory_some hwrite, on_writeMemory_some (hmemory ▸ hwrite)]
      exact ⟨rfl, congrArg (fun core => { core with memory := memory }) h.core,
        h.exports, h.host⟩

theorem follows_ofAbi (r : Except AbiError UInt64) :
    Act.Follows Mirrors (Live.ofAbi r : Live (Watched G) UInt64) (Live.ofAbi r) := by
  cases r with
  | ok word => exact .pure word
  | error e => exact .fail _

theorem follows_answer (result : Except Errno UInt32) :
    Act.Follows Mirrors (Live.answer result : Live (Watched G) UInt64)
      (Live.answer result) :=
  follows_config.bind fun _ => follows_ofAbi _

theorem follows_writeInline (bytes : ByteArray) (outPtr : UInt32) :
    Act.Follows Mirrors (Live.writeInline bytes outPtr : Live (Watched G) Handle)
      (Live.writeInline bytes outPtr) := by
  refine (follows_writeMemory outPtr bytes).bind fun written => ?_
  cases written with
  | false => exact .fail _
  | true => exact .pure _

theorem follows_stash (bytes : ByteArray) :
    Act.Follows Mirrors (Live.stash bytes : Live (Watched G) Handle)
      (Live.stash bytes) := by
  refine (follows_host fun _ => rfl).bind fun handle => ?_
  cases handle with
  | none => exact .fail _
  | some handle => exact .pure handle

theorem follows_deliver (message : Outgoing) (outPtr outLen : UInt32) :
    Act.Follows Mirrors (Live.deliver message outPtr outLen : Live (Watched G) UInt64)
      (Live.deliver message outPtr outLen) := by
  unfold Live.deliver
  generalize message.encode = bytes
  dsimp only
  split
  · exact .fail _
  have hpack (handle : Handle) : Act.Follows Mirrors
      (do
        let pair := ⟨UInt32.ofNat bytes.size, handle⟩
        ofAbi (Pair.encode (← config).pairEncoding pair) : Live (Watched G) UInt64)
      (do
        let pair := ⟨UInt32.ofNat bytes.size, handle⟩
        ofAbi (Pair.encode (← config).pairEncoding pair)) :=
    follows_config.bind fun _ => follows_ofAbi _
  split
  · exact (follows_writeInline bytes outPtr).bind hpack
  · exact (follows_stash bytes).bind hpack

theorem follows_beginExchange (ptr len outPtr outLen : UInt32) :
    Act.Follows Mirrors (Live.beginExchange ptr len outPtr outLen : Live (Watched G) _)
      (Live.beginExchange ptr len outPtr outLen) := by
  have hready (message : Outgoing) : Act.Follows Mirrors
      (do return .ready (← deliver message outPtr outLen) :
        Live (Watched G) (HostStep UInt64 Deferred))
      (do return .ready (← deliver message outPtr outLen)) :=
    (follows_deliver message outPtr outLen).bind fun _ => .pure _
  refine follows_config.bind fun config => ?_
  dsimp only
  split
  · exact hready _
  · refine (follows_readMemory? ptr len).bind fun raw => ?_
    cases raw with
    | none => exact .fail _
    | some raw =>
        refine (follows_host (HostState.deaf_dispatch raw)).bind fun dispatched => ?_
        cases dispatched with
        | reply message => exact hready message
        | deferred operation => exact .pure _

theorem follows_endExchange (outPtr outLen : UInt32) (value : Resolved) :
    Act.Follows Mirrors (Live.endExchange outPtr outLen value : Live (Watched G) UInt64)
      (Live.endExchange outPtr outLen value) := by
  cases value with
  | message completion =>
      exact (follows_host (HostState.deaf_apply completion)).bind fun _ =>
        follows_deliver _ _ _
  | read | write | close => exact .violate _

theorem follows_retrieve (handle outPtr outLen : UInt32) :
    Act.Follows Mirrors (Live.retrieve handle outPtr outLen : Live (Watched G) _)
      (Live.retrieve handle outPtr outLen) := by
  refine (@follows_read G _ (fun h => h.messages.get? handle) fun _ => rfl).bind
    fun stored => ?_
  cases stored with
  | none => exact .pure _
  | some bytes =>
      dsimp only
      split
      · exact .pure _
      · refine (follows_writeMemory outPtr bytes).bind fun written => ?_
        cases written with
        | false => exact .pure _
        | true => exact (follows_host fun _ => rfl).bind fun _ => .pure _

theorem follows_beginRead (handle outLen : UInt32) :
    Act.Follows Mirrors (Live.beginRead handle outLen : Live (Watched G) _)
      (Live.beginRead handle outLen) := by
  refine (@follows_read G _ (fun h => h.streams.get? handle) fun _ => rfl).bind
    fun stream => ?_
  cases stream with
  | none => exact (follows_answer _).bind fun _ => .pure _
  | some stream => exact follows_config.bind fun _ => .pure _

theorem follows_endRead (outPtr : UInt32) (value : Resolved) :
    Act.Follows Mirrors (Live.endRead outPtr value : Live (Watched G) UInt64)
      (Live.endRead outPtr value) := by
  rcases value with _ | (errno | bytes) | _ | _
  · exact .violate _
  · exact follows_answer _
  · refine (follows_writeMemory outPtr bytes).bind fun written => ?_
    cases written <;> exact follows_answer _
  · exact .violate _
  · exact .violate _

theorem follows_beginWrite (handle inPtr inLen : UInt32) :
    Act.Follows Mirrors (Live.beginWrite handle inPtr inLen : Live (Watched G) _)
      (Live.beginWrite handle inPtr inLen) := by
  refine (@follows_read G _ (fun h => h.streams.get? handle) fun _ => rfl).bind
    fun stream => ?_
  cases stream with
  | none => exact (follows_answer _).bind fun _ => .pure _
  | some stream =>
      refine (follows_readMemory? inPtr inLen).bind fun bytes => ?_
      cases bytes with
      | none => exact (follows_answer _).bind fun _ => .pure _
      | some bytes => exact .pure _

theorem follows_endWrite (value : Resolved) :
    Act.Follows Mirrors (Live.endWrite value : Live (Watched G) UInt64)
      (Live.endWrite value) := by
  cases value with
  | write result => exact follows_answer _
  | message | read | close => exact .violate _

theorem follows_beginClose (handle : UInt32) :
    Act.Follows Mirrors (Live.beginClose handle : Live (Watched G) _)
      (Live.beginClose handle) := by
  refine (follows_host fun _ => rfl).bind fun stream => ?_
  cases stream with
  | none => exact (follows_answer _).bind fun _ => .pure _
  | some stream => exact .pure _

theorem follows_endClose (value : Resolved) :
    Act.Follows Mirrors (Live.endClose value : Live (Watched G) UInt64)
      (Live.endClose value) := by
  cases value with
  | close result => exact follows_answer _
  | message | read | write => exact .violate _

end Live

namespace Instance

open Live

theorem rewind_unwatched (call : CoreState G → Except Trap Unit × CoreState G)
    (s : CoreState (Watched G)) : (Watched.rewind call s).1 = (call s.unwatched).1 ∧
      (Watched.rewind call s).2.unwatched = (call s.unwatched).2 := by
  unfold Watched.rewind
  rcases call s.unwatched with ⟨_ | _, _⟩ <;> exact ⟨rfl, rfl⟩

theorem control_follows :
    Control.Follows Mirrors (control : Control (Instance (Watched G)) Fault Deferred
      Resolved) control where
  rawState := follows_control (fun x s => x.getState s) (fun x s => x.getState s)
    fun _ _ => ⟨rfl, rfl⟩
  startUnwind := follows_config.bind fun c =>
    follows_control (fun x s => x.startUnwind c.asyncifyDataAddr s)
      (fun x s => x.startUnwind c.asyncifyDataAddr s) fun _ _ => ⟨rfl, rfl⟩
  stopUnwind :=
    follows_control (fun x s => x.stopUnwind s) (fun x s => x.stopUnwind s)
      fun _ _ => ⟨rfl, rfl⟩
  startRewind := follows_config.bind fun c =>
    follows_control (fun x s => x.startRewind c.asyncifyDataAddr s)
      (fun x s => x.startRewind c.asyncifyDataAddr s) fun _ _ => rewind_unwatched _ _
  stopRewind :=
    follows_control (fun x s => x.stopRewind s) (fun x s => x.stopRewind s)
      fun _ _ => ⟨rfl, rfl⟩
  resetData := by
    refine follows_config.bind fun c => (follows_writeMemory _ _).bind fun written => ?_
    cases written with
    | false => exact .fail _
    | true => exact .pure _
  getBridge := fun i' i h => by
    change i'.host.muted.bridge = i.host.muted.bridge
    rw [h.host]
  setBridge :=
    fun b _ _ h =>
      ⟨h.core, h.exports, congrArg (fun h => { h with bridge := b }) h.host⟩

theorem follows_serve (request : ImportCall) :
    Act.Follows Mirrors (serve request : Live (Watched G) UInt64) (serve request) := by
  cases request with
  | messageExchange ptr len outPtr outLen =>
      exact control_follows.hostCall 0 (follows_beginExchange _ _ _ _) fun _ =>
        follows_endExchange _ _ _
  | messageRetrieve handle outPtr outLen =>
      refine control_follows.hostCall 0 ?_ fun _ => .violate _
      exact (follows_retrieve _ _ _).bind fun _ =>
        (follows_answer _).bind fun _ => .pure _
  | streamRead handle outPtr outLen =>
      exact control_follows.hostCall 0 (follows_beginRead _ _) fun _ =>
        follows_endRead _ _
  | streamWrite handle inPtr inLen =>
      exact control_follows.hostCall 0 (follows_beginWrite _ _ _) fun _ =>
        follows_endWrite _
  | streamClose handle =>
      exact control_follows.hostCall 0 (follows_beginClose _) fun _ =>
        follows_endClose _

theorem Mirrors.saved {i' : Instance (Watched G)} {i : Instance G} (h : i'.Mirrors i)
    (core : CoreState G) (again : Bool) :
    Mirrors { i' with core := core.watched again } { i with core := core } :=
  ⟨rfl, h.exports, h.host⟩

theorem Mirrors.remarked_left {i' : Instance (Watched G)} {i : Instance G}
    (h : i'.Mirrors i) (line : Remark) :
    Mirrors { i' with host := i'.host.emit (.remark line) } i :=
  ⟨h.core, h.exports, h.host⟩

theorem Mirrors.remarked_right {i' : Instance (Watched G)} {i : Instance G}
    (h : i'.Mirrors i) (line : Remark) :
    Mirrors i' { i with host := i.host.emit (.remark line) } :=
  ⟨h.core, h.exports, h.host⟩

theorem follows_run (a : Activation G R) :
    Act.Follows Mirrors (run serve a.watched : Live (Watched G) R) (run serve a) := by
  induction a with
  | finish core value =>
      exact .bind (.modify fun _ _ h => h.saved core false) fun _ => .pure value
  | trap core cause =>
      exact .bind (.modify fun _ _ h => h.saved core false) fun _ => .fail _
  | call core request resume ih =>
      refine .bind (.modify fun _ _ h => h.saved core false) fun _ =>
        (follows_serve request).bind fun word => ?_
      refine .bind_read fun i' i h => ?_
      rw [← h.core]
      exact ih i'.core.unwatched word
  | remark line rest ih => exact .behind_right (fun _ _ h => h.remarked_right line) ih

theorem follows_invoke
    {entry' : Exports (Watched G) → CoreState (Watched G) → Activation (Watched G) R}
    {entry : Exports G → CoreState G → Activation G R} (name : ExportName)
    (hentry : ∀ x, entry' x.watched = Watched.entry name (entry x)) :
    Act.Follows Mirrors (invoke entry') (invoke entry) := by
  refine .bind_read fun i' i h => ?_
  change Act.Follows Mirrors (run serve (entry' i'.exports i'.core))
    (run serve (entry i.exports i.core))
  rw [h.exports, hentry, ← h.core]
  exact .behind_left (fun _ _ h => h.remarked_left _) (follows_run _)

theorem follows_arena {getter' : Live (Watched G) UInt32} {getter : Live G UInt32}
    (h : Act.Follows Mirrors getter' getter) (fault : ArenaError → Fault) :
    Act.Follows Mirrors
      (do
        let ptr ← getter'
        match Arena.read (← Act.read fun i => i.core.memory) ptr with
        | .ok events => return events
        | .error e => Act.fail (fault e))
      (do
        let ptr ← getter
        match Arena.read (← Act.read fun i => i.core.memory) ptr with
        | .ok events => return events
        | .error e => Act.fail (fault e)) := by
  refine h.bind fun ptr => .bind_read fun i' i h => ?_
  rw [show i'.core.memory = i.core.memory from congrArg CoreState.memory h.core]
  cases Arena.read i.core.memory ptr with
  | ok events => exact .pure _
  | error e => exact .fail _

theorem follows_readMetrics :
    Act.Follows Mirrors (readMetrics : Live (Watched G) (List String)) readMetrics :=
  follows_arena (follows_invoke .getMetrics fun _ => rfl) .metricsArena

theorem follows_clearMetrics :
    Act.Follows Mirrors (clearMetrics : Live (Watched G) Unit) clearMetrics :=
  follows_invoke .clearMetrics fun _ => rfl

theorem follows_readDeveloperDump :
    Act.Follows Mirrors (readDeveloperDump : Live (Watched G) (List String))
      readDeveloperDump :=
  follows_arena (follows_invoke .getDeveloperDump fun _ => rfl) .dumpArena

theorem follows_abandonSuspension :
    Act.Follows Mirrors (abandonSuspension : Live (Watched G) Unit)
      abandonSuspension := by
  refine control_follows.state.bind fun state => ?_
  cases state with
  | normal => exact .pure _
  | unwinding => exact control_follows.stopUnwind
  | rewinding => exact control_follows.stopRewind

end Instance

end Resumable
