import Resumable.Proofs.Core.Words
import Resumable.Proofs.Host.HostRun
import Resumable.Proofs.Host.Replies

namespace Resumable

namespace RuntimeConfig

/-- The header lies in the memory. It says that the frames go from right behind it to
the end that was set. -/
structure HeaderIn (c : RuntimeConfig) (m : Memory) : Prop where
  inside : c.asyncifyDataAddr.toNat + 8 ≤ m.size
  current : c.headerFits →
    m.word c.asyncifyDataAddr.toNat = c.asyncifyDataAddr.toNat + 8
  stop : m.word (c.asyncifyDataAddr.toNat + 4) = c.asyncifyDataEnd.toNat

theorem size_header (c : RuntimeConfig) : c.header.size = 8 := rfl

theorem toNat_current {c : RuntimeConfig} (h : c.headerFits) :
    (c.asyncifyDataAddr + 8).toNat = c.asyncifyDataAddr.toNat + 8 := by
  have hlt : c.asyncifyDataAddr.toNat + 8 < 4294967296 := by simpa [headerFits] using h
  rw [UInt32.toNat_add]
  exact Nat.mod_eq_of_lt hlt

/-- The header in a memory that it was written into. -/
theorem headerIn_of_write? {c : RuntimeConfig} {m m' : Memory}
    (h : m.write? c.asyncifyDataAddr.toNat c.header = some m') : c.HeaderIn m' where
  inside := by
    have hwrote := Memory.wrote_of_write? h
    rw [hwrote.size]
    refine Nat.not_lt.mp fun hout => ?_
    cases h.symm.trans (Memory.write?_eq_none_iff.mpr hout)
  current := fun hfits => (Memory.word_of_write? [] _ h).trans (toNat_current hfits)
  stop := Memory.word_of_write? (littleEndian (c.asyncifyDataAddr + 8)) [] h

section Document

variable {largest : Nat} {get : String → Option Json} {c : RuntimeConfig}

theorem le_of_field? {limit absent n : Nat} {name : String} (habsent : absent ≤ limit)
    (h : field? get name (Json.asNat? limit) absent = some n) : n ≤ limit := by
  unfold field? at h
  split at h
  · cases h
    exact habsent
  · unfold Json.asNat? at h
    split at h
    · split at h
      · next hin =>
          cases h
          exact hin.2
      · cases h
    · cases h

/-- The two addresses are the words that a document gives for them. One that is left
out has its default. -/
theorem ofLookup?_addresses (h : ofLookup? largest get = some c) :
    field? get "asyncify_data_addr" (Json.asNat? 4294967295) 16 =
    some c.asyncifyDataAddr.toNat ∧
      field? get "asyncify_data_end" (Json.asNat? 4294967295) 1024 =
      some c.asyncifyDataEnd.toNat := by
  simp only [ofLookup?, Option.bind_eq_bind, Option.bind_eq_some_iff] at h
  obtain ⟨_, -, _, -, addr, haddr, stop, hstop, _, -, _, -, h⟩ := h
  cases h
  have hword {n : Nat} (hn : n ≤ 4294967295) : (UInt32.ofNat n).toNat = n :=
    Nat.mod_eq_of_lt (Nat.lt_succ_of_le hn)
  refine ⟨?_, ?_⟩
  · rw [hword (le_of_field? (by decide) haddr)]
    exact haddr
  · rw [hword (le_of_field? (by decide) hstop)]
    exact hstop

end Document

end RuntimeConfig

namespace Instance

variable {G R : Type} {i j : Instance G}

theorem resetData_on {memory : Memory}
    (h : i.core.memory.write? i.host.config.asyncifyDataAddr.toNat
      i.host.config.header = some memory) :
    control.resetData.on i = (.ok (), i.withMemory memory) := by
  change (do
    let c ← Live.config
    if !(← Live.writeMemory c.asyncifyDataAddr c.header) then
      Act.fail .headerOutside : Live G Unit).on i = _
  rw [Live.config, Act.on_bind_ok (Act.on_read _ _),
    Act.on_bind_ok (Live.on_writeMemory_some h)]
  rfl

theorem resetData_on_outside
    (h : i.core.memory.size < i.host.config.asyncifyDataAddr.toNat + 8) :
    control.resetData.on i = (.error (.other .headerOutside), i) := by
  have hwrite := Memory.write?_eq_none_iff.mpr (i.host.config.size_header ▸ h)
  change (do
    let c ← Live.config
    if !(← Live.writeMemory c.asyncifyDataAddr c.header) then
      Act.fail .headerOutside : Live G Unit).on i = _
  rw [Live.config, Act.on_bind_ok (Act.on_read _ _),
    Act.on_bind_ok (Live.on_writeMemory_none hwrite)]
  rfl

theorem ensures_resetData :
    Act.Ensures (fun _ => True) (control.resetData : Live G Unit)
      (fun _ j => j.host.config.HeaderIn j.core.memory) fun _ => True := by
  intro i _
  rcases hwrite : i.core.memory.write? i.host.config.asyncifyDataAddr.toNat
    i.host.config.header with _ | memory
  · rw [resetData_on_outside (Memory.write?_eq_none_iff.mp hwrite)]
    trivial
  · rw [resetData_on hwrite]
    exact RuntimeConfig.headerIn_of_write? hwrite

/-- An export is not invoked afresh before the header is in the memory. -/
theorem ensures_readyEntry :
    Act.Ensures (fun _ => True) (control.readyEntry : Live G Unit)
      (fun _ j => j.host.config.HeaderIn j.core.memory) fun _ => True := by
  refine .bind (.any _ _) fun state => ?_
  cases state with
  | normal =>
      refine .bind (.any _ _) fun idle => ?_
      cases idle with
      | true => exact ensures_resetData
      | false => exact .violate fun _ _ => trivial
  | unwinding => exact .violate fun _ _ => trivial
  | rewinding => exact .violate fun _ _ => trivial

theorem readyEntry_on_outside {k : Instance G}
    (hstate : control.state.on i = (.ok .normal, k))
    (hidle : k.host.bridge.pending = none)
    (hout : k.core.memory.size < k.host.config.asyncifyDataAddr.toNat + 8) :
    control.readyEntry.on i = (.error (.other .headerOutside), k) := by
  rw [Control.readyEntry, Act.on_bind_ok hstate]
  change (control.isIdle >>= _).on k = _
  have hread : control.isIdle.on k = (.ok true, k) :=
    congrArg (fun pending => (Except.ok pending.isNone, k)) hidle
  rw [Act.on_bind_ok hread]
  exact resetData_on_outside hout

/-- The export is invoked on `j`, whatever it is, and what the call has come to next
is settled. -/
def GoesOn (i j : Instance G) : Prop :=
  ∀ invoke : Live G Unit, (control.enter invoke).on i = (control.settle invoke).on j

def Refuses (i : Instance G) (e : CallError) (j : Instance G) : Prop :=
  ∀ invoke : Live G Unit, (control.enter invoke).on i = (.error e, j)

theorem goesOn_of_readyEntry (h : control.readyEntry.on i = (.ok (), j)) : i.GoesOn j :=
  fun invoke => by rw [Control.enter_eq, Act.on_bind_ok h]

theorem refuses_of_readyEntry {e : CallError}
    (h : control.readyEntry.on i = (.error e, j)) : i.Refuses e j :=
  fun invoke => by rw [Control.enter_eq, Act.on_bind_error h]

theorem enter_dichotomy (i : Instance G) : (∃ e j, i.Refuses e j) ∨
    ∃ j, i.GoesOn j ∧ j.host = i.host ∧ i.host.config.HeaderIn j.core.memory := by
  have hhost := maintains_host_readyEntry (h := i.host) i rfl
  have hheader := ensures_readyEntry i trivial
  rcases hready : control.readyEntry.on i with ⟨e | _, j⟩
  · exact .inl ⟨e, j, refuses_of_readyEntry hready⟩
  · rw [hready] at hhost hheader
    have hsame : j.host = i.host := hhost
    exact .inr ⟨j, goesOn_of_readyEntry hready, hsame, hsame ▸ hheader⟩

/-- For every document that settings are read from, their addresses are those that
it gives, or 16 and 1024. For every instance, an export that is invoked afresh finds
the header in its memory, right in front of what it says the buffer is; a header
that does not lie in the memory is an error before the export is invoked, and no
other header is. -/
theorem header_before_export :
    (∀ largest get c, RuntimeConfig.ofLookup? largest get = some c →
      RuntimeConfig.field? get "asyncify_data_addr" (Json.asNat? 4294967295) 16 =
          some c.asyncifyDataAddr.toNat ∧
        RuntimeConfig.field? get "asyncify_data_end" (Json.asNat? 4294967295) 1024 =
          some c.asyncifyDataEnd.toNat) ∧
    ∀ (G : Type) (i : Instance G),
      ((∃ e j, i.Refuses e j) ∨
        ∃ j, i.GoesOn j ∧ j.host = i.host ∧ i.host.config.HeaderIn j.core.memory) ∧
      ∀ k, control.state.on i = (.ok .normal, k) → i.host.bridge.pending = none →
        (i.host.config.headerFits →
          k.core.memory.size < i.host.config.asyncifyDataAddr.toNat + 8 →
          i.Refuses (.other .headerOutside) k) ∧
        (i.host.config.asyncifyDataAddr.toNat + 8 ≤ k.core.memory.size →
          ∃ memory, i.GoesOn (k.withMemory memory) ∧
            k.core.memory.Wrote i.host.config.asyncifyDataAddr.toNat
              i.host.config.header memory) := by
  refine ⟨fun largest get c h => RuntimeConfig.ofLookup?_addresses h,
    fun G i => ⟨enter_dichotomy i, ?_⟩⟩
  intro k hstate hidle
  have hhost : k.host = i.host := by
    have hhost := maintains_host_state (h := i.host) i rfl
    rw [hstate] at hhost
    exact hhost
  rw [← hhost] at hidle ⊢
  refine ⟨fun _ hout => refuses_of_readyEntry
    (readyEntry_on_outside hstate hidle hout), fun hin => ?_⟩
  have hroom : k.host.config.asyncifyDataAddr.toNat + k.host.config.header.size ≤
      k.core.memory.size := hin
  obtain ⟨memory, hwrite, hwrote⟩ := Memory.exists_wrote_of_le hroom
  exact ⟨memory,
    fun invoke => Control.enter_on hstate hidle (resetData_on hwrite), hwrote⟩

/-- With the settings that are there if none are given, the header of a fresh call is
24 and 1024. -/
theorem silent_header_written :
    control.state.on silent = (.ok .normal, silent) ∧
    silent.host.bridge.pending = none ∧
      16 + 8 ≤ silent.core.memory.size ∧
      ∃ memory, silent.GoesOn (silent.withMemory memory) ∧
        silent.core.memory.Wrote 16 ⟨#[24, 0, 0, 0, 0, 4, 0, 0]⟩ memory := by
  have hstate : control.state.on silent = (.ok .normal, silent) := rfl
  have hin : 16 + 8 ≤ silent.core.memory.size := by decide
  exact ⟨hstate, rfl, hin,
    ((header_before_export.2 Unit silent).2 silent hstate rfl).2 hin⟩

section Unchecked

def onlyField (field : String) (n : Nat) (name : String) : Option Json :=
  if name = field then some (.int n) else none

/-- A core that clears its memory and waits. -/
def forgetful : Instance Int32 where
  core := ⟨.ofPages 1, 0⟩
  exports :=
    { getState := fun s => (.ok s.globals, s)
      startUnwind := fun _ s => (.ok (), { s with globals := 1 })
      stopUnwind := fun s => (.ok (), { s with globals := 0 })
      startRewind := fun _ s => (.ok (), { s with globals := 2 })
      stopRewind := fun s => (.ok (), { s with globals := 0 })
      setup := fun s => .finish s ()
      teardown := fun s => .finish s ()
      perform :=
        fun s => .call { s with memory := .ofPages 1 } (.streamClose 1)
          fun s _ => .finish s ()
      getMetrics := fun s => .finish s 0
      clearMetrics := fun s => .finish s ()
      getDeveloperDump := fun s => .finish s 0 }
  host := { HostState.ofConfig {} with streams := ⟨7, 2, [(1, .file 7)]⟩ }

theorem silent_goesOn {c : RuntimeConfig} (hin : c.asyncifyDataAddr.toNat + 8 ≤ 65536) :
    ∃ j, ({ silent with host := .ofConfig c } : Instance Unit).GoesOn j ∧
    c.HeaderIn j.core.memory ∧
      j.core.memory.size = 65536 := by
  let i : Instance Unit := { silent with host := .ofConfig c }
  have hroom : c.asyncifyDataAddr.toNat + c.header.size ≤ i.core.memory.size := hin
  obtain ⟨memory, hwrite, hwrote⟩ := Memory.exists_wrote_of_le hroom
  exact ⟨i.withMemory memory,
    fun invoke => Control.enter_on rfl rfl (resetData_on hwrite),
    RuntimeConfig.headerIn_of_write? hwrite, hwrote.size⟩

/-- Nothing is said against a buffer that ends before it begins, or behind the
memory; and a header that the core has changed is not written again for an export
that is resumed. -/
theorem unwind_buffer_unchecked :
    (∃ c j, RuntimeConfig.ofLookup? 18446744073709551615
      (onlyField "asyncify_data_addr" 2000) = some c ∧
      ({ silent with host := .ofConfig c } : Instance Unit).GoesOn j ∧
      j.core.memory.word 2000 = 2008 ∧ j.core.memory.word 2004 = 1024) ∧
    (∃ c j, RuntimeConfig.ofLookup? 18446744073709551615
      (onlyField "asyncify_data_end" 4294967295) = some c ∧
      ({ silent with host := .ofConfig c } : Instance Unit).GoesOn j ∧
      j.core.memory.word 20 = 4294967295 ∧ j.core.memory.size = 65536) ∧
    ∃ j k, (control.enter (invoke fun x s => x.perform s)).on forgetful =
        (.ok (.waiting (.close (.file 7))), j) ∧
      (∀ invoke : Live Int32 Unit,
        (control.resume invoke (.close (.ok ()))).on j = (control.settle invoke).on k) ∧
      k.core.memory.word 16 = 0 := by
  refine ⟨?_, ?_, ?_⟩
  · obtain ⟨j, hgoes, hheader, -⟩ :=
      silent_goesOn (c := { asyncifyDataAddr := 2000 }) (by decide)
    exact ⟨_, j, rfl, hgoes, hheader.current rfl, hheader.stop⟩
  · obtain ⟨j, hgoes, hheader, hsize⟩ :=
      silent_goesOn (c := { asyncifyDataEnd := 4294967295 }) (by decide)
    exact ⟨_, j, rfl, hgoes, hheader.stop, hsize⟩
  · exact ⟨_, _, rfl, fun invoke => rfl, rfl⟩

end Unchecked

end Instance

end Resumable
