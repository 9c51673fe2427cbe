import Resumable.Host.State

/-!
# Dispatching messages

A message is answered at once, or with an operation to be awaited. `Completion.apply`
turns what the operation came to into the reply.
-/

namespace Resumable

inductive Dispatch where
  | reply (message : Outgoing)
  | deferred (operation : Deferred)

namespace Outgoing

def tooLarge (length limit : Nat) : Outgoing :=
  .error .messageTooLarge s!"message of {length} bytes exceeds the {limit} byte limit"
    none

def handlesExhausted (what : String) : Outgoing :=
  .error .handlesExhausted s!"every {what} handle is in use" none

def noPerform : Outgoing := .error .noPerformState "no perform is in progress" none

end Outgoing

namespace HostState

def reportOutcome (h : HostState) (outcome : Outcome) : Outgoing × HostState :=
  match h.perform with
  | none => (.noPerform, h)
  | some perform =>
      match perform.report outcome with
      | .ok perform => (.stored, { h with perform := some perform })
      | .error _ =>
          (.error .outcomeAlreadySet
            "an outcome was already reported for this perform" none, h)

/-- Issue a fetch and keep its ticket under a handle. -/
def callHttp (h : HostState) (request : HttpRequest) : Outgoing × HostState :=
  let ticket := h.tickets
  let h := { h.emit (.fetch ticket request) with tickets := ticket + 1 }
  match h.responses.insert ticket with
  | (some handle, responses) => (.httpCalled handle, { h with responses := responses })
  | (none, _) => (.handlesExhausted "pending response", h)

def claimHead (h : HostState) (handle : Handle) : Dispatch × HostState :=
  match h.responses.remove handle with
  | (some ticket, responses) =>
      (.deferred (.head ticket), { h with responses := responses })
  | (none, _) =>
      (.reply (.error .invalidHandle s!"no pending response for handle {handle.toNat}"
        none), h)

def handle (h : HostState) : Incoming → Dispatch × HostState
  | .performInput =>
      match h.perform with
      | some perform => (.reply (.performInput perform.request), h)
      | none => (.reply .noPerform, h)
  | .outputResult result =>
      let (reply, h) := h.reportOutcome (.result result)
      (.reply reply, h)
  | .outputError error =>
      let (reply, h) := h.reportOutcome (.error error)
      (.reply reply, h)
  | .outputException exception =>
      let (reply, h) := h.reportOutcome (.exception exception)
      (.reply reply, h)
  | .fileOpen path flags => (.deferred (.openFile path flags), h)
  | .httpCall request =>
      let (reply, h) := h.callHttp request
      (.reply reply, h)
  | .httpCallHead handle => h.claimHead handle
  | .unknown kind =>
      (.reply (.error .unknownMessage ("unknown message kind " ++ kind) none), h)

def dispatch (h : HostState) (raw : ByteArray) : Dispatch × HostState :=
  if h.config.maxMessageBytes < raw.size then
    (.reply (.tooLarge raw.size h.config.maxMessageBytes), h)
  else
    match Incoming.decode raw with
    | .error e => (.reply (.error .malformedMessage e.message none), h)
    | .ok message => h.handle message

def addStream (h : HostState) (stream : Stream) (reply : Handle → Outgoing) :
    Outgoing × HostState :=
  match h.streams.insert stream with
  | (some handle, streams) => (reply handle, { h with streams := streams })
  | (none, _) => (.handlesExhausted "stream", h)

end HostState

namespace Completion

def apply (h : HostState) : Completion → Outgoing × HostState
  | .fileOpened (.ok file) => h.addStream (.file file) .fileOpened
  | .fileOpened (.error errno) =>
      (.error .fileError ("failed to open file: " ++ errno.message) (some errno.code),
        h)
  | .httpHead (.ok head) =>
      h.addStream (.body (.ofSource head.body)) (.httpHead head.status head.headers)
  | .httpHead (.error e) => (.error e.replyCode e.message none, h)

end Completion

end Resumable
