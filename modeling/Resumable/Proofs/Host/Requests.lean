import Resumable.Proofs.Service.Exchanges
import Resumable.Session.Load

namespace Resumable

abbrev Task.ForCore {α : Type} (t : Task α) : Prop := t.Only fun r => r.forCore = true

/-- A request that asks a service for something, and does not just pass an effect on. -/
def Request.outward : Request → Bool
  | .emit _ => false
  | r => r.forCore

theorem Request.forCore_of_outward {r : Request} (h : r.outward = true) :
    r.forCore = true := by
  cases r <;> first | exact h | cases h

abbrev Task.Outward {α : Type} (t : Task α) : Prop := t.Only fun r => r.outward = true

namespace Task

variable {α : Type}

theorem outward_request {r : Request} (h : r.outward = true) :
    (Task.request r).Outward :=
  Task.only_request h

theorem Outward.forCore {t : Task α} (h : t.Outward) : t.ForCore :=
  h.mono fun _ => Request.forCore_of_outward

end Task

namespace HostState

theorem forCore_emitAll (effects : List Effect) : (emitAll effects).ForCore := by
  induction effects with
  | nil => trivial
  | cons e rest ih => exact ⟨rfl, fun _ => ih⟩

theorem forCore_flush (h : HostState) : h.flush.ForCore :=
  (forCore_emitAll _).bind fun _ => Task.only_pure _

theorem total_emitAll (effects : List Effect) : (emitAll effects).Total := by
  induction effects with
  | nil => trivial
  | cons e rest ih => exact fun _ => ih

theorem total_flush (h : HostState) : h.flush.Total :=
  (total_emitAll _).bind fun _ => Task.total_pure _

end HostState

namespace ChunkReader

variable {U : Type} {pull : U → Task (Pull × U)}

theorem outward_fill (hpull : ∀ u, (pull u).Outward) (fuel : Nat) (r : ChunkReader U) :
    (fill pull fuel r).Outward := by
  induction fuel generalizing r with
  | zero => trivial
  | succ fuel ih =>
      unfold fill
      split
      · trivial
      · split
        · trivial
        · refine (hpull _).bind fun pulled => ?_
          rcases pulled with ⟨bytes | errno | _, u⟩
          · exact ih _
          · trivial
          · trivial

theorem outward_read (hpull : ∀ u, (pull u).Outward) (fuel max : Nat)
    (r : ChunkReader U) : (read pull fuel max r).Outward := by
  unfold read
  split
  · trivial
  · split
    · trivial
    · refine (outward_fill hpull fuel r).bind fun filled => ?_
      rcases filled with _ | ⟨errno | _ | _, r⟩ <;> trivial

end ChunkReader

namespace Stream

theorem outward_read (fuel max : Nat) (s : Stream) : (s.read fuel max).Outward := by
  cases s with
  | file id => exact Task.Only.bind (Task.outward_request rfl) fun _ => Task.only_pure _
  | body reader =>
      have hpull (u : Nat) : (do
          let item ← Task.request (.pullBody u)
          return (item, u) : Task (Pull × Nat)).Outward :=
        Task.Only.bind (Task.outward_request rfl) fun _ => Task.only_pure _
      refine (ChunkReader.outward_read hpull fuel max reader).bind fun r => ?_
      exact (Task.only_ofOption r).bind fun _ => Task.only_pure _

theorem outward_write (bytes : ByteArray) (s : Stream) : (s.write bytes).Outward := by
  cases s with
  | file id => exact Task.outward_request rfl
  | body reader => trivial

theorem outward_close (s : Stream) : s.close.Outward := by
  cases s with
  | file id => exact Task.outward_request rfl
  | body reader => trivial

end Stream

theorem Deferred.outward_serve (fuel : Nat) (h : HostState) (operation : Deferred) :
    (operation.serve fuel h).Outward := by
  cases operation with
  | openFile path flags =>
      exact Task.Only.bind (Task.outward_request rfl) fun _ => Task.only_pure _
  | head ticket =>
      exact Task.Only.bind (Task.outward_request rfl) fun _ => Task.only_pure _
  | read handle stream max =>
      exact (stream.outward_read fuel max).bind fun _ => Task.only_pure _
  | write stream bytes =>
      exact (stream.outward_write bytes).bind fun _ => Task.only_pure _
  | close stream => exact stream.outward_close.bind fun _ => Task.only_pure _

theorem Control.forCore_drive {σ E F V R : Type} (c : Control σ E F V)
    (invoke : Act σ E R) {await : F → σ → Task (V × σ)}
    (hawait : ∀ operation s, (await operation s).ForCore) (fuel : Nat)
    (progress : Except (Failure E) (Progress R F) × σ) :
    (c.drive invoke await fuel progress).ForCore := by
  induction fuel generalizing progress with
  | zero => rcases progress with ⟨_ | _ | operation, s⟩ <;> trivial
  | succ fuel ih =>
      rcases progress with ⟨_ | _ | operation, s⟩
      · trivial
      · trivial
      · exact (hawait operation s).bind fun _ => ih _

namespace Instance

variable {G α : Type} (i : Instance G) (fuel : Nat)

theorem forCore_flush : i.flush.ForCore := i.host.forCore_flush.bind fun _ =>
    Task.only_pure _

theorem total_flush : i.flush.Total := i.host.total_flush.bind fun _ =>
    Task.total_pure _

theorem forCore_act (step : Live G α) : (i.act step).ForCore :=
  (step.on i).2.forCore_flush.bind fun _ => Task.only_pure _

theorem total_act (step : Live G α) : (i.act step).Total :=
  (step.on i).2.total_flush.bind fun _ => Task.total_pure _

theorem forCore_await (operation : Deferred) : (i.await fuel operation).ForCore :=
  i.host.forCore_flush.bind fun h =>
    (operation.outward_serve fuel h).forCore.bind fun _ => Task.only_pure _

theorem forCore_call (entry : Exports G → CoreState G → Activation G Unit) :
    (i.call fuel entry).ForCore :=
  (control.forCore_drive _ (fun operation j => j.forCore_await fuel operation) fuel
    _).bind fun outcome =>
    (Task.only_ofOption outcome).bind fun result =>
      result.2.forCore_flush.bind fun _ => Task.only_pure _

theorem forCore_perform (request : PerformRequest) :
    (i.perform fuel request).ForCore := by
  refine (forCore_call _ fuel _).bind fun called => ?_
  rcases called with ⟨e | _, j⟩
  · exact Task.only_pure _
  · dsimp only
    split <;> exact Task.only_pure _

end Instance

theorem Core.forCore_instantiate {G : Type} (c : Core G) (config : RuntimeConfig) :
    (c.instantiate config).ForCore := by
  unfold instantiate
  split
  · exact Task.only_pure _
  · refine (HostState.forCore_emitAll _).bind fun _ => ?_
    split <;> exact Task.only_pure _

namespace Setup

theorem outward_readAll (file fuel : Nat) (read : ByteArray) :
    (readAll file fuel read).Outward := by
  induction fuel generalizing read with
  | zero => trivial
  | succ fuel ih =>
      refine Task.Only.bind (Task.outward_request rfl) fun piece => ?_
      rcases piece with errno | piece
      · trivial
      · dsimp only
        split
        · trivial
        · exact ih _

theorem outward_readFile (fuel : Nat) (path : String) :
    (readFile fuel path).Outward := by
  refine Task.Only.bind (Task.outward_request rfl) fun found => ?_
  split
  · trivial
  · refine Task.Only.bind (Task.outward_request rfl) fun opened => ?_
    rcases opened with errno | file
    · trivial
    · refine (outward_readAll file fuel .empty).bind fun bytes => ?_
      rcases bytes with errno | bytes
      · trivial
      · refine Task.Only.bind (Task.outward_request rfl) fun closed => ?_
        rcases closed with errno | _ <;> trivial

end Setup

end Resumable
