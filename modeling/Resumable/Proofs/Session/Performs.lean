import Resumable.Proofs.Host.Performing
import Resumable.Proofs.Host.Replies
import Resumable.Proofs.Session.Passages
import Resumable.Scripted.Scene

namespace Resumable

/-- What a perform answers that came to its end, by the first outcome that was
reported for it. -/
def PerformRequest.answerTo (request : PerformRequest) :
    Option Outcome → Except PerformError Json
  | some (.result value) => .ok value
  | some (.error value) => .error (.domain value)
  | some (.exception e) =>
      if e.code.endsWith "ValidationError" then .error (.validation e.code e.message)
      else .error (.unexpected (.exception e.code) e.message)
  | none =>
      .error (.unexpected .missingOutcome
        s!"use case {request.usecase} finished without an outcome")

theorem PerformRequest.answerTo_eq_ok_iff {request : PerformRequest}
    {outcome : Option Outcome} {value : Json} :
    request.answerTo outcome = .ok value ↔ outcome = some (.result value) := by
  rcases outcome with _ | value' | value' | e
  · exact ⟨nofun, nofun⟩
  · rw [answerTo, Except.ok.injEq, Option.some.injEq, Outcome.result.injEq]
  · exact ⟨nofun, nofun⟩
  · refine ⟨fun h => ?_, nofun⟩
    simp only [answerTo] at h
    split at h <;> cases h

theorem PerformState.result_eq (p : PerformState) :
    p.result = p.request.answerTo p.outcome := by
  rcases p with ⟨request, _ | value | value | exception⟩
  · rfl
  · rfl
  · rfl
  · simp only [PerformState.result, PerformError.ofException, PerformRequest.answerTo]
    split <;> rfl

namespace Setup

variable {G : Type} {setup : Setup G} {s s' : Slot G} {operation : Operation}
  {log : List Exchange} {answer : Answer}

def Unengaged (s : Slot G) : Prop := ∀ i, s.live = some i → i.host.perform = none

theorem Fresh.perform {i : Instance G} (h : setup.Fresh i) : i.host.perform = none := by
  obtain ⟨core, exports, rfl⟩ := h
  rfl

theorem perform_of_driven {i j : Instance G} {driven : List (Event G)}
    {standing : Standing} {fuel : Nat} (hnone : i.host.perform = none)
    (hpassage : Passage fuel i log driven standing j)
    (hdriven : ∀ e ∈ driven, e.OfCore) : j.host.perform = none :=
  (hpassage.isolated hnone).1.trans (Event.foldl_holds hdriven none)

theorem Treated.unengaged (h : setup.Treated s operation log answer s')
    (hs : Unengaged s) :
    Unengaged s' := by
  intro j hj
  cases h with
  | untouched hlive | stillborn _ _ _ hlive => exact hs j (hlive ▸ hj)
  | madeLive hfresh hpassage hdriven hlive =>
      cases hlive.symm.trans hj
      exact perform_of_driven hfresh.perform hpassage hdriven
  | performed _ _ _ _ _ hlive =>
      cases hlive.symm.trans hj
      rfl
  | tended _ hbefore hpassage hdriven hlive =>
      obtain hlive | hlive := hlive
      · cases hlive.symm.trans hj
        exact perform_of_driven (hs _ hbefore) hpassage hdriven
      · cases hlive.symm.trans hj
  | performFailed _ _ _ hlive | givenUp _ _ _ _ hlive => cases hlive.symm.trans hj

theorem Story.unengaged {past : List (Entry G)} (h : setup.Story past s) :
    Unengaged s := by
  induction h with
  | new => exact fun i hi => nomatch hi
  | next _ runs ih => exact (carryOut_course runs).treated.unengaged ih

/-- A perform that gets to the live instance is driven there. Either it comes to its
end, and answers what the first outcome says that was reported meanwhile, or the
instance is not kept. -/
theorem performed_of_course {request : PerformRequest} {i : Instance G}
    (h : setup.Course (.perform request) log answer s s')
    (hblank : request.firstBlank? = none) (hlive : s.live = some i)
    (hnone : i.host.perform = none) :
    ∃ log driven standing k,
    Passage setup.fuel i log (.began request :: driven) standing k ∧
      (∀ e ∈ driven, e.OfCore) ∧
      k.host.perform = some ⟨request, driven.findSome? Event.outcome?⟩ ∧
      (answer = .performed (request.answerTo (driven.findSome? Event.outcome?)) ∧
          s'.live = some { k with host := { k.host with perform := none } } ∨
        (∃ e : CallError, answer =
          .performed (.error (.unexpected e.kind (CallError.message e)))) ∧
            s'.live = none) := by
  cases h with
  | uncompiled hsource | rejected hsource | installed hsource => cases hsource
  | blank hblank' => simp [hblank] at hblank'
  | notLive _ hnone => simp [hlive] at hnone
  | performed _ hbefore hcall harm =>
      cases hlive.symm.trans hbefore
      obtain ⟨k, ⟨driven, standing, hpassage, hdriven, -, hready⟩, rfl, hstate⟩ :=
        Passage.start.perform hcall
      have hheld := (hpassage.isolated hnone).1.trans (Event.held_began hdriven request)
      refine ⟨_, driven, standing, k, hpassage, hdriven, hheld, .inl ⟨?_, ?_⟩⟩
      · cases (hstate _ rfl).symm.trans hheld
        rw [PerformState.result_eq]
      · obtain ⟨-, -, rfl⟩ | ⟨-, id, -, rfl⟩ := Slot.runs_armTimer harm <;> rfl
  | failed _ hbefore hcall hsalvage =>
      cases hlive.symm.trans hbefore
      obtain ⟨k, ⟨driven, standing, hpassage, hdriven, -⟩, rfl, -⟩ :=
        Passage.start.perform hcall
      have hheld := (hpassage.isolated hnone).1.trans (Event.held_began hdriven request)
      cases Instance.ends_salvage hsalvage.ends
      exact ⟨_, driven, standing, k, hpassage, hdriven, hheld, .inr ⟨⟨_, rfl⟩, rfl⟩⟩

/-- Performs are kept apart. Between operations no perform is in progress; whatever
an operation does with an instance is a passage; along any passage the host holds
the perform that has begun and is not yet concluded, with the first outcome reported
for it, and answers messages by that; and a perform answers what its own first
outcome says. -/
theorem Story.perform_isolated {earlier later : List (Entry G)} {e : Entry G}
    (h : setup.Story (earlier ++ e :: later) s) :
    Unengaged e.before ∧ Unengaged e.after ∧
    setup.Treated e.before e.operation e.log e.answer e.after ∧
    (∀ i, e.before.live = some i ∨ setup.Fresh i → ∀ log events standing j,
      Passage setup.fuel i log events standing j →
      j.host.perform = Event.held events ∧ Isolated events) ∧
    (∀ (past : List (Event G)) p, Event.held past = some p ↔
      ∃ earlier driven, past = earlier ++ .began p.request :: driven ∧
      (∀ e ∈ driven, e.OfCore) ∧
        p.outcome = driven.findSome? Event.outcome?) ∧
    ∀ request i, e.operation = .perform request → request.firstBlank? = none →
    e.before.live = some i →
      ∃ log driven standing k,
      Passage setup.fuel i log (.began request :: driven) standing k ∧
        (∀ e ∈ driven, e.OfCore) ∧
        k.host.perform = some ⟨request, driven.findSome? Event.outcome?⟩ ∧
        (e.answer = .performed (request.answerTo (driven.findSome? Event.outcome?)) ∧
            e.after.live = some { k with host := { k.host with perform := none } } ∨
          (∃ error : CallError,
              e.answer =
                .performed
                (.error (.unexpected error.kind (CallError.message error)))) ∧
            e.after.live = none) := by
  obtain ⟨hearlier, runs, -⟩ := h.split
  have hbefore := hearlier.unengaged
  have hcourse := carryOut_course runs
  refine ⟨hbefore, hcourse.treated.unengaged hbefore, hcourse.treated, ?_,
    fun past p => Event.held_eq_some_iff, ?_⟩
  · rintro i (hlive | hfresh) log events standing j hpassage
    · exact hpassage.isolated (hbefore i hlive)
    · exact hpassage.isolated hfresh.perform
  · intro request i hoperation hblank hlive
    rw [hoperation] at hcourse
    exact performed_of_course hcourse hblank hlive (hbefore i hlive)

section Hasty

def note (text : String) : CoreState Unit := ⟨⟨65536, text.toUTF8⟩, ()⟩

/-- A core that asks for its input, reports a result, and then an error. -/
def hastyCore : Core Unit where
  create := .ok ⟨.ofPages 1, ()⟩
  start := none
  exports := .ok
    { Instance.silent.exports with
      perform := fun _ =>
        .call (note "\x7b\"kind\":\"perform-input\"\x7d")
          (.messageExchange 0 24 0 0) fun _ _ =>
        .call (note "\x7b\"kind\":\"perform-output-result\",\"result\":1\x7d")
          (.messageExchange 0 43 0 0) fun _ _ =>
        .call (note "\x7b\"kind\":\"perform-output-error\",\"error\":2\x7d")
          (.messageExchange 0 41 0 0) fun s _ =>
        .finish s () }

def hasty : Setup Unit := ⟨{}, fun _ => some hastyCore, 0⟩

def hastyRequest : PerformRequest :=
  { profileUrl := "p", providerUrl := "v", mapUrl := "m", usecase := "u",
    input := .str "in" }

/-- The input was handed over, the result is answered, and the error was refused. -/
structure Entry.Hasty (e : Entry Unit) (result : Json) (i : Instance Unit) : Prop where
  before : e.before.live.isSome
  answer : e.answer = .performed (.ok result)
  after : e.after.live = some i
  input : i.host.messages.get? 1 = some (Outgoing.performInput hastyRequest).encode
  refused : i.host.messages.get? 3 = some (Outgoing.error .outcomeAlreadySet
    "an outcome was already reported for this perform" none).encode

def Entry.hasty (e : Entry Unit) : Bool :=
  match e.answer, e.after.live with
  | .performed (.ok _), some i =>
      e.before.live.isSome &&
        (i.host.messages.get? 1).map (·.data) =
          some (Outgoing.performInput hastyRequest).encode.data &&
        (i.host.messages.get? 3).map (·.data) = some (Outgoing.error .outcomeAlreadySet
          "an outcome was already reported for this perform" none).encode.data
  | _, _ => false

theorem Entry.of_hasty {e : Entry Unit} (h : e.hasty = true) :
    ∃ result i, e.Hasty result i := by
  unfold Entry.hasty at h
  split at h
  · next result i hanswer hafter =>
      simp only [Bool.and_eq_true, decide_eq_true_eq] at h
      obtain ⟨⟨hbefore, hinput⟩, hrefused⟩ := h
      exact ⟨result, i, hbefore, hanswer, hafter, eq_some_of_data hinput,
        eq_some_of_data hrefused⟩
  · cases h

/-- A perform that is told two outcomes answers what the first one says. -/
theorem hasty_answers_first_outcome :
    ∃ past e s result i j log driven standing k,
      hasty.Story (past ++ [e]) s ∧ e.operation = .perform hastyRequest ∧
      e.Hasty result j ∧ Unengaged e.before ∧ Unengaged e.after ∧
      e.before.live = some i ∧
      Passage hasty.fuel i log (.began hastyRequest :: driven) standing k ∧
      Isolated (.began hastyRequest :: driven) ∧
      driven.findSome? Event.outcome? = some (.result result) := by
  have hrun :
      ((hasty.tell Scripted.Scene.serve [.load .empty, .init, .perform hastyRequest]
        .empty (.bare [])).any fun told => told.1.getLast?.any Entry.hasty) = true := by
    decide +kernel
  obtain ⟨past, s, hstory, hoperations, hcheck⟩ :=
    exists_story_of_tell (p := fun past => past.getLast?.any Entry.hasty) hrun
  obtain ⟨e, hlast, hhasty⟩ := (Option.any_eq_true _ _).mp hcheck
  obtain ⟨past, rfl⟩ := List.getLast?_eq_some_iff.mp hlast
  obtain ⟨result, j, hhasty⟩ := Entry.of_hasty hhasty
  obtain ⟨i, hi⟩ := Option.isSome_iff_exists.mp hhasty.before
  have hoperation : e.operation = .perform hastyRequest := by
    simpa using congrArg List.getLast? hoperations
  obtain ⟨hbefore, hafter, -, hpassages, -, hperforms⟩ := hstory.perform_isolated
  obtain ⟨log, driven, standing, k, hpassage, -, -, houtcome⟩ :=
    hperforms hastyRequest i hoperation (by decide +kernel) hi
  have hisolated := (hpassages i (.inl hi) _ _ _ _ hpassage).2
  have hfirst : driven.findSome? Event.outcome? = some (.result result) := by
    obtain ⟨hanswer, -⟩ | ⟨⟨error, hanswer⟩, -⟩ := houtcome
    · rw [hhasty.answer, Answer.performed.injEq] at hanswer
      exact PerformRequest.answerTo_eq_ok_iff.mp hanswer.symm
    · cases hhasty.answer.symm.trans hanswer
  exact ⟨past, e, s, result, i, j, log, driven, standing, k, hstory, hoperation,
    hhasty, hbefore, hafter, hi, hpassage, hisolated, hfirst⟩

end Hasty

end Setup

end Resumable
