import Resumable.Host.Call
import Resumable.Proofs.Service.Exchanges

namespace Resumable

def Incoming.outcome? : Incoming → Option Outcome
  | .outputResult value => some (.result value)
  | .outputError value => some (.error value)
  | .outputException exception => some (.exception exception)
  | _ => none

namespace HostState

/-- The message that the host makes out of bytes, if they are not too many and
can be read. -/
def reads (h : HostState) (raw : ByteArray) : Option Incoming :=
  if h.config.maxMessageBytes < raw.size then none
  else
    match Incoming.decode raw with
    | .ok message => some message
    | .error _ => none

section Reads

variable {h : HostState} {raw : ByteArray} {message : Incoming}

theorem dispatch_of_reads (hreads : h.reads raw = some message) :
    h.dispatch raw = h.handle message := by
  unfold reads at hreads
  unfold dispatch
  split at hreads
  · cases hreads
  · next hsize =>
      rw [if_neg hsize]
      split at hreads
      · next hdecode =>
          cases hreads
          rw [hdecode]
      · cases hreads

theorem dispatch_of_unread (hreads : h.reads raw = none) :
    ∃ code text, h.dispatch raw = (.reply (.error code text none), h) := by
  unfold reads at hreads
  unfold dispatch
  split at hreads
  · next hsize =>
      rw [if_pos hsize]
      exact ⟨_, _, rfl⟩
  · next hsize =>
      rw [if_neg hsize]
      split at hreads
      · cases hreads
      · next hdecode =>
          rw [hdecode]
          exact ⟨_, _, rfl⟩

end Reads

/-- What may come of a message. Most messages change nothing. -/
inductive Handled (h : HostState) : Incoming → Dispatch → HostState → Prop where
  | answered {message : Incoming} {reply : Outgoing}
      (hreply : ∀ handle, reply ≠ .httpCalled handle) :
      Handled h message (.reply reply) h
  | stored {message : Incoming} {outcome : Outcome} {perform : PerformState}
      (houtcome : message.outcome? = some outcome) (hperform : h.perform = some perform)
      (hfirst : perform.outcome = none) :
      Handled h message (.reply .stored)
        { h with perform := some { perform with outcome := some outcome } }
  | opening (path : String) (flags : OpenFlags) :
      Handled h (.fileOpen path flags) (.deferred (.openFile path flags)) h
  | issued {request : HttpRequest} {handle : Handle} {responses : HandleTable Nat}
      (hinsert : h.responses.insert h.tickets = (some handle, responses)) :
      Handled h (.httpCall request) (.reply (.httpCalled handle))
        { h.emit (.fetch h.tickets request) with
          tickets := h.tickets + 1, responses := responses }
  | unissued {request : HttpRequest} {responses : HandleTable Nat}
      (hinsert : h.responses.insert h.tickets = (none, responses)) :
      Handled h (.httpCall request) (.reply (.handlesExhausted "pending response"))
        { h.emit (.fetch h.tickets request) with tickets := h.tickets + 1 }
  | claimed {handle : Handle} {ticket : Nat}
      (hresponse : h.responses.get? handle = some ticket) :
      Handled h (.httpCallHead handle) (.deferred (.head ticket))
        { h with responses := (h.responses.remove handle).2 }

inductive Dispatched (h : HostState) (raw : ByteArray) :
    Dispatch → HostState → Prop where
  | unread {code : ReplyErrorCode} {message : String} (hreads : h.reads raw = none) :
      Dispatched h raw (.reply (.error code message none)) h
  | handled {message : Incoming} {dispatch : Dispatch} {h' : HostState}
      (hreads : h.reads raw = some message) (hhandled : h.Handled message dispatch h') :
      Dispatched h raw dispatch h'

/-- What may come of an operation that is completed. -/
inductive Completed (h : HostState) : Completion → Outgoing → HostState → Prop where
  | opened {file : Nat} {handle : Handle} {streams : HandleTable Stream}
      (hinsert : h.streams.insert (.file file) = (some handle, streams)) :
      Completed h (.fileOpened (.ok file)) (.fileOpened handle)
        { h with streams := streams }
  | answered {head : HttpHead} {handle : Handle} {streams : HandleTable Stream}
      (hinsert : h.streams.insert (.body (.ofSource head.body)) =
        (some handle, streams)) :
      Completed h (.httpHead (.ok head)) (.httpHead head.status head.headers handle)
        { h with streams := streams }
  | exhausted {completion : Completion} {stream : Stream} {streams : HandleTable Stream}
      (hinsert : h.streams.insert stream = (none, streams)) :
      Completed h completion (.handlesExhausted "stream") h
  | unopened (errno : Errno) :
      Completed h (.fileOpened (.error errno))
        (.error .fileError ("failed to open file: " ++ errno.message)
          (some errno.code)) h
  | unanswered (e : NetworkError) :
      Completed h (.httpHead (.error e)) (.error e.replyCode e.message none) h

variable (h : HostState)

theorem reportOutcome_handled {message : Incoming} {outcome : Outcome}
    (houtcome : message.outcome? = some outcome) :
    h.Handled message (.reply (h.reportOutcome outcome).1)
      (h.reportOutcome outcome).2 := by
  unfold reportOutcome
  split
  · exact .answered nofun
  · next perform hperform =>
      rcases hfirst : perform.outcome with _ | first
      · rw [PerformState.report, hfirst]
        exact .stored houtcome hperform hfirst
      · rw [PerformState.report, hfirst]
        exact .answered nofun

theorem callHttp_handled (request : HttpRequest) :
    h.Handled (.httpCall request) (.reply (h.callHttp request).1)
      (h.callHttp request).2 := by
  unfold callHttp
  dsimp only
  split
  · next hinsert => exact .issued hinsert
  · next hinsert => exact .unissued hinsert

theorem claimHead_handled (handle : Handle) :
    h.Handled (.httpCallHead handle) (h.claimHead handle).1 (h.claimHead handle).2 := by
  unfold claimHead
  rcases hresponse : h.responses.get? handle with _ | ticket
  · rw [HandleTable.remove, hresponse]
    exact .answered nofun
  · have hclaimed := Handled.claimed hresponse
    rw [HandleTable.remove, hresponse] at hclaimed ⊢
    exact hclaimed

theorem handle_handled (message : Incoming) :
    h.Handled message (h.handle message).1 (h.handle message).2 := by
  cases message with
  | performInput =>
      unfold handle
      cases h.perform <;> exact .answered nofun
  | outputResult | outputError | outputException => exact h.reportOutcome_handled rfl
  | fileOpen path flags => exact .opening path flags
  | httpCall request => exact h.callHttp_handled request
  | httpCallHead handle => exact h.claimHead_handled handle
  | unknown kind => exact .answered nofun

theorem dispatch_dispatched (raw : ByteArray) :
    h.Dispatched raw (h.dispatch raw).1 (h.dispatch raw).2 := by
  rcases hreads : h.reads raw with _ | message
  · obtain ⟨code, text, hunread⟩ := dispatch_of_unread hreads
    rw [hunread]
    exact .unread hreads
  · rw [dispatch_of_reads hreads]
    exact .handled hreads (h.handle_handled message)

theorem apply_completed (completion : Completion) :
    h.Completed completion (completion.apply h).1 (completion.apply h).2 := by
  rcases completion with (errno | file) | (e | head)
  · exact .unopened errno
  · simp only [Completion.apply, addStream]
    split
    · next hinsert => exact .opened hinsert
    · next hinsert => exact .exhausted hinsert
  · exact .unanswered e
  · simp only [Completion.apply, addStream]
    split
    · next hinsert => exact .answered hinsert
    · next hinsert => exact .exhausted hinsert

end HostState

namespace Deferred

/-- What may come of an operation that is awaited, with what is exchanged. -/
inductive Served (fuel : Nat) (h : HostState) :
    Deferred → List Exchange → Resolved → HostState → Prop where
  | openFile (path : String) (flags : OpenFlags) (result : Except Errno Nat) :
      Served fuel h (.openFile path flags) [⟨.openFile path flags, result⟩]
        (.message (.fileOpened result)) h
  | head (ticket : Nat) (result : Except NetworkError HttpHead) :
      Served fuel h (.head ticket) [⟨.response ticket, result⟩]
        (.message (.httpHead result)) h
  | read {handle : Handle} {stream stream' : Stream} {max : Nat} {log : List Exchange}
      {result : Except Errno ByteArray}
      (hread : (stream.read fuel max).Runs log (result, stream')) :
      Served fuel h (.read handle stream max) log (.read result)
        { h with streams := h.streams.modify handle fun _ => stream' }
  | write {stream : Stream} {bytes : ByteArray} {log : List Exchange}
      {result : Except Errno Nat} (hwrite : (stream.write bytes).Runs log result) :
      Served fuel h (.write stream bytes) log (.write result) h
  | close {stream : Stream} {log : List Exchange} {result : Except Errno Unit}
      (hclose : stream.close.Runs log result) :
      Served fuel h (.close stream) log (.close result) h

theorem served_of_runs {fuel : Nat} {h h' : HostState} {operation : Deferred}
    {log : List Exchange} {value : Resolved}
    (hruns : (operation.serve fuel h).Runs log (value, h')) :
    Served fuel h operation log value h' := by
  cases operation with
  | openFile path flags =>
      obtain ⟨result, _, _, rfl, hrequest, rfl, hr⟩ := Task.runs_bind.mp hruns
      cases hr
      rw [Task.runs_request.mp hrequest]
      exact .openFile path flags result
  | head ticket =>
      obtain ⟨result, _, _, rfl, hrequest, rfl, hr⟩ := Task.runs_bind.mp hruns
      cases hr
      rw [Task.runs_request.mp hrequest]
      exact .head ticket result
  | read handle stream max =>
      obtain ⟨⟨result, stream'⟩, _, _, rfl, hread, rfl, hr⟩ := Task.runs_bind.mp hruns
      cases hr
      rw [List.append_nil]
      exact .read hread
  | write stream bytes =>
      obtain ⟨result, _, _, rfl, hwrite, rfl, hr⟩ := Task.runs_bind.mp hruns
      cases hr
      rw [List.append_nil]
      exact .write hwrite
  | close stream =>
      obtain ⟨result, _, _, rfl, hclose, rfl, hr⟩ := Task.runs_bind.mp hruns
      cases hr
      rw [List.append_nil]
      exact .close hclose

end Deferred

end Resumable
