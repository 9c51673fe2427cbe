import Resumable.Proofs.Handle.Table
import Resumable.Proofs.Host.Dispatch

namespace Resumable

namespace HandleTable

variable {α : Type} {t t' : HandleTable α} {h : Handle} {a : α}

/-- One entry more, under a handle that was free. -/
structure Gains (t : HandleTable α) (a : α) (h : Handle)
    (t' : HandleTable α) : Prop where
  room : t.size < t.limit.toNat
  fresh : t.get? h = none
  inRange : t.InOrder → t.InRange h
  entries : t'.entries.Perm ((h, a) :: t.entries)
  get? : ∀ k, t'.get? k = if k = h then some a else t.get? k
  limit : t'.limit = t.limit
  next : t'.next = t.successor h

/-- The entry under a handle is gone, and no other. -/
structure Loses (t : HandleTable α) (h : Handle) (a : α)
    (t' : HandleTable α) : Prop where
  live : t.get? h = some a
  get? : ∀ k, t'.get? k = if k = h then none else t.get? k
  limit : t'.limit = t.limit
  next : t'.next = t.next

/-- Also a table that is not in order gains just what it is given. -/
theorem gains_of_insert (hinsert : t.insert a = (some h, t')) : t.Gains a h t' := by
  obtain ⟨hroom, ⟨n, -, hmeets⟩, rfl⟩ := insert_eq_some_iff.mp hinsert
  exact ⟨hroom, get?_eq_none_iff.mpr hmeets.free, hmeets.inRange, place_perm _ _ _,
    fun k => find?_place hmeets.free, rfl, rfl⟩

theorem loses_of_get? (hlive : t.get? h = some a) : t.Loses h a (t.remove h).2 := by
  refine ⟨hlive, get?_remove t h, remove_limit t h, ?_⟩
  rw [remove, hlive]

end HandleTable

def Completion.stream? : Completion → Option Stream
  | .fileOpened (.ok file) => some (.file file)
  | .httpHead (.ok head) => some (.body (.ofSource head.body))
  | _ => none

namespace HostState

variable {h : HostState} {raw : ByteArray}

/-- Everything that a core may come to see of the host is the same. -/
structure Untouched (h h' : HostState) : Prop where
  config : h'.config = h.config
  perform : h'.perform = h.perform
  bridge : h'.bridge = h.bridge
  streams : h'.streams = h.streams
  responses : h'.responses = h.responses
  messages : h'.messages = h.messages

theorem Untouched.refl (h : HostState) : h.Untouched h := ⟨rfl, rfl, rfl, rfl, rfl, rfl⟩

/-- Why a message is refused, with what is answered then. -/
inductive Refused (h : HostState) (raw : ByteArray) : Outgoing → Prop where
  | tooLarge (hsize : h.config.maxMessageBytes < raw.size) :
      Refused h raw (.tooLarge raw.size h.config.maxMessageBytes)
  | malformed {e : DecodeError} (hsize : raw.size ≤ h.config.maxMessageBytes)
      (hdecode : Incoming.decode raw = .error e) :
      Refused h raw (.error .malformedMessage e.message none)
  | unknown {kind : String} (hreads : h.reads raw = some (.unknown kind)) :
      Refused h raw (.error .unknownMessage ("unknown message kind " ++ kind) none)
  | noPerform {message : Incoming} (hreads : h.reads raw = some message)
      (habout : message = .performInput ∨ message.outcome?.isSome)
      (hnone : h.perform = none) : Refused h raw .noPerform
  | reported {message : Incoming} {perform : PerformState}
      (hreads : h.reads raw = some message) (hreports : message.outcome?.isSome)
      (hperform : h.perform = some perform) (hfirst : perform.outcome.isSome) :
      Refused h raw
        (.error .outcomeAlreadySet "an outcome was already reported for this perform"
          none)
  | unclaimed {handle : Handle} (hreads : h.reads raw = some (.httpCallHead handle))
      (hnone : h.responses.get? handle = none) :
      Refused h raw
        (.error .invalidHandle s!"no pending response for handle {handle.toNat}" none)

/-- How a message is answered, and what the host is then. -/
inductive Effected (h : HostState) (raw : ByteArray) : Dispatch → HostState → Prop where
  | refused {reply : Outgoing} (hrefused : h.Refused raw reply) :
      Effected h raw (.reply reply) h
  | unissued {request : HttpRequest} (hreads : h.reads raw = some (.httpCall request))
      (hfull : h.responses.InOrder → h.responses.limit.toNat ≤ h.responses.size) :
      Effected h raw (.reply (.handlesExhausted "pending response"))
        { h.emit (.fetch h.tickets request) with tickets := h.tickets + 1 }
  | stored {message : Incoming} {outcome : Outcome} {perform : PerformState}
      (hreads : h.reads raw = some message) (hreports : message.outcome? = some outcome)
      (hperform : h.perform = some perform) (hfirst : perform.outcome = none) :
      Effected h raw (.reply .stored)
        { h with perform := some { perform with outcome := some outcome } }
  | told {perform : PerformState} (hreads : h.reads raw = some .performInput)
      (hperform : h.perform = some perform) :
      Effected h raw (.reply (.performInput perform.request)) h
  | issued {request : HttpRequest} {handle : Handle} {responses : HandleTable Nat}
      (hreads : h.reads raw = some (.httpCall request))
      (hgains : h.responses.Gains h.tickets handle responses) :
      Effected h raw (.reply (.httpCalled handle))
        { h.emit (.fetch h.tickets request) with
          tickets := h.tickets + 1, responses := responses }
  | opening {path : String} {flags : OpenFlags}
      (hreads : h.reads raw = some (.fileOpen path flags)) :
      Effected h raw (.deferred (.openFile path flags)) h
  | claimed {handle : Handle} {ticket : Nat} {responses : HandleTable Nat}
      (hreads : h.reads raw = some (.httpCallHead handle))
      (hloses : h.responses.Loses handle ticket responses) :
      Effected h raw (.deferred (.head ticket)) { h with responses := responses }

/-- How an operation that is completed is answered, and what the host is then. -/
inductive Concluded (h : HostState) : Completion → Outgoing → HostState → Prop where
  | opened {file : Nat} {handle : Handle} {streams : HandleTable Stream}
      (hgains : h.streams.Gains (.file file) handle streams) :
      Concluded h (.fileOpened (.ok file)) (.fileOpened handle)
        { h with streams := streams }
  | answered {head : HttpHead} {handle : Handle} {streams : HandleTable Stream}
      (hgains : h.streams.Gains (.body (.ofSource head.body)) handle streams) :
      Concluded h (.httpHead (.ok head)) (.httpHead head.status head.headers handle)
        { h with streams := streams }
  | exhausted {completion : Completion} {stream : Stream}
      (hstream : completion.stream? = some stream)
      (hfull : h.streams.InOrder → h.streams.limit.toNat ≤ h.streams.size) :
      Concluded h completion (.handlesExhausted "stream") h
  | unopened (errno : Errno) :
      Concluded h (.fileOpened (.error errno))
        (.error .fileError ("failed to open file: " ++ errno.message)
          (some errno.code)) h
  | unanswered (e : NetworkError) :
      Concluded h (.httpHead (.error e)) (.error e.replyCode e.message none) h

/-- A host that answers an error is the one it was, but for the fetch that
found no handle. -/
theorem Effected.untouched {code : ReplyErrorCode} {text : String}
    {errno : Option UInt32} {h' : HostState}
    (heffected : h.Effected raw (.reply (.error code text errno)) h') :
    h.Untouched h' := by
  cases heffected with
  | refused => exact .refl h
  | unissued => exact ⟨rfl, rfl, rfl, rfl, rfl, rfl⟩

section Handle

variable {message : Incoming} (hreads : h.reads raw = some message)

include hreads

theorem reportOutcome_effected {outcome : Outcome}
    (hreports : message.outcome? = some outcome) :
    h.Effected raw (.reply (h.reportOutcome outcome).1)
      (h.reportOutcome outcome).2 := by
  have hsome : message.outcome?.isSome := by rw [hreports, Option.isSome_some]
  unfold reportOutcome
  split
  · next hnone => exact .refused (.noPerform hreads (.inr hsome) hnone)
  · next perform hperform =>
      rcases hfirst : perform.outcome with _ | first
      · rw [PerformState.report, hfirst]
        exact .stored hreads hreports hperform hfirst
      · rw [PerformState.report, hfirst]
        exact .refused
          (.reported hreads hsome hperform (by rw [hfirst, Option.isSome_some]))

theorem handle_effected : h.Effected raw (h.handle message).1 (h.handle message).2 := by
  cases message with
  | performInput =>
      rcases hperform : h.perform with _ | perform
      · simp only [handle, hperform]
        exact .refused (.noPerform hreads (.inl rfl) hperform)
      · simp only [handle, hperform]
        exact .told hreads hperform
  | outputResult | outputError | outputException =>
      exact reportOutcome_effected hreads rfl
  | fileOpen path flags => exact .opening hreads
  | httpCall request =>
      simp only [handle, callHttp]
      split
      · next hinsert => exact .issued hreads (HandleTable.gains_of_insert hinsert)
      · next hinsert => exact .unissued hreads fun ht =>
          HandleTable.full_of_insert ht hinsert
  | httpCallHead handle =>
      rcases hresponse : h.responses.get? handle with _ | ticket
      · simp only [HostState.handle, claimHead, HandleTable.remove, hresponse]
        exact .refused (.unclaimed hreads hresponse)
      · have hclaimed := Effected.claimed hreads (HandleTable.loses_of_get? hresponse)
        simp only [HostState.handle, claimHead, HandleTable.remove,
          hresponse] at hclaimed ⊢
        exact hclaimed
  | unknown kind => exact .refused (.unknown hreads)

end Handle

variable (h : HostState)

theorem dispatch_effected (raw : ByteArray) :
    h.Effected raw (h.dispatch raw).1 (h.dispatch raw).2 := by
  rcases hreads : h.reads raw with _ | message
  · unfold reads at hreads
    unfold dispatch
    split at hreads
    · next hsize =>
        rw [if_pos hsize]
        exact .refused (.tooLarge hsize)
    · next hsize =>
        rw [if_neg hsize]
        split at hreads
        · cases hreads
        · next hdecode =>
            rw [hdecode]
            exact .refused (.malformed (Nat.not_lt.mp hsize) hdecode)
  · rw [dispatch_of_reads hreads]
    exact handle_effected hreads

theorem apply_concluded (completion : Completion) :
    h.Concluded completion (completion.apply h).1 (completion.apply h).2 := by
  rcases completion with (errno | file) | (e | head)
  · exact .unopened errno
  · simp only [Completion.apply, addStream]
    split
    · next hinsert => exact .opened (HandleTable.gains_of_insert hinsert)
    · next hinsert => exact .exhausted rfl fun ht =>
        HandleTable.full_of_insert ht hinsert
  · exact .unanswered e
  · simp only [Completion.apply, addStream]
    split
    · next hinsert => exact .answered (HandleTable.gains_of_insert hinsert)
    · next hinsert => exact .exhausted rfl fun ht =>
        HandleTable.full_of_insert ht hinsert

/-- Whatever a core sends and whatever the host holds, the message is answered, and of
the host it leaves all but what the answer tells. An error leaves everything, and so
does what is completed with an error. -/
theorem dispatch_atomic (raw : ByteArray) :
    h.Effected raw (h.dispatch raw).1 (h.dispatch raw).2 ∧
      (∀ code text errno, (h.dispatch raw).1 = .reply (.error code text errno) →
        h.Untouched (h.dispatch raw).2) ∧
      ∀ completion, h.Concluded completion (completion.apply h).1
        (completion.apply h).2 := by
  have heffected := h.dispatch_effected raw
  refine ⟨heffected, ?_, h.apply_concluded⟩
  intro code text errno herror
  rw [herror] at heffected
  exact heffected.untouched

end HostState

end Resumable
