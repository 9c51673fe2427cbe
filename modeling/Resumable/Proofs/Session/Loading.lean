import Resumable.Proofs.Session.Callers

namespace Resumable

namespace Setup

variable {G : Type} {setup : Setup G} {s s' : Slot G} {path : String}
  {fuel file n : Nat} {pieces : List ByteArray} {log : List Exchange}

def readings (file : Nat) (pieces : List ByteArray) : List Exchange :=
  pieces.map fun piece => ⟨.readFile file readChunk, .ok piece⟩

def joined (pieces : List ByteArray) : ByteArray := pieces.foldl (· ++ ·) .empty

def opening (path : String) (file : Nat) : List Exchange :=
  [⟨.fileExists path, true⟩, ⟨.openFile path { read := true }, .ok file⟩]

/-- All that is exchanged when a file is read to its end in pieces. -/
def wholly (path : String) (file : Nat) (pieces : List ByteArray) : List Exchange :=
  opening path file ++ (readings file pieces ++
    [⟨.readFile file readChunk, .ok .empty⟩, ⟨.closeFile file, .ok ()⟩])

/-- The ways in which a file may be read, with how many reads that takes. -/
inductive Fetches (path : String) :
    Nat → List Exchange → Except LoadError ByteArray → Prop where
  | missing : Fetches path 0 [⟨.fileExists path, false⟩] (.error (.notFound path))
  | unopened (errno : Errno) :
      Fetches path 0 [⟨.fileExists path, true⟩,
        ⟨.openFile path { read := true }, .error errno⟩] (.error (.read path errno))
  | unread (file : Nat) {pieces : List ByteArray}
      (hpieces : ∀ piece ∈ pieces, piece ≠ .empty) (errno : Errno) :
      Fetches path (pieces.length + 1)
        (opening path file ++
          (readings file pieces ++ [⟨.readFile file readChunk, .error errno⟩]))
        (.error (.read path errno))
  | unclosed (file : Nat) {pieces : List ByteArray}
      (hpieces : ∀ piece ∈ pieces, piece ≠ .empty) (errno : Errno) :
      Fetches path (pieces.length + 1)
        (opening path file ++ (readings file pieces ++
          [⟨.readFile file readChunk, .ok .empty⟩, ⟨.closeFile file, .error errno⟩]))
        (.error (.read path errno))
  | whole (file : Nat) {pieces : List ByteArray}
      (hpieces : ∀ piece ∈ pieces, piece ≠ .empty) :
      Fetches path (pieces.length + 1) (wholly path file pieces) (.ok (joined pieces))

theorem isEmpty_iff {bytes : ByteArray} : bytes.isEmpty = true ↔ bytes = .empty := by
  rw [ByteArray.isEmpty, beq_iff_eq, ByteArray.size_eq_zero_iff]

theorem runs_readAll_iff {read : ByteArray} {r : Except Errno ByteArray} :
    (readAll file fuel read).Runs log r ↔
      ∃ pieces, (∀ piece ∈ pieces, piece ≠ .empty) ∧ pieces.length < fuel ∧
        ((∃ errno, log =
          readings file pieces ++ [⟨.readFile file readChunk, .error errno⟩] ∧
            r = .error errno) ∨
          log = readings file pieces ++ [⟨.readFile file readChunk, .ok .empty⟩] ∧
            r = .ok (pieces.foldl (· ++ ·) read)) := by
  induction fuel generalizing read log with
  | zero => simp [readAll, Task.Runs]
  | succ fuel ih =>
    constructor
    · rintro ⟨errno | piece, rest, rfl, h⟩
      · obtain ⟨rfl, rfl⟩ := h
        exact ⟨[], by simp, by simp, .inl ⟨errno, rfl, rfl⟩⟩
      · -- An empty piece ends the file, any other is the first of the list.
        by_cases hpiece : piece.isEmpty = true
        · obtain rfl := isEmpty_iff.mp hpiece
          obtain ⟨rfl, rfl⟩ := h
          exact ⟨[], by simp, by simp, .inr ⟨rfl, rfl⟩⟩
        · change Task.Runs (if piece.isEmpty then _ else _) rest r at h
          rw [if_neg hpiece] at h
          obtain ⟨pieces, hpieces, hlt, hlog⟩ := ih.mp h
          refine ⟨piece :: pieces,
            List.forall_mem_cons.mpr ⟨fun he => hpiece (isEmpty_iff.mpr he), hpieces⟩,
            Nat.succ_lt_succ hlt, ?_⟩
          rcases hlog with ⟨errno, rfl, rfl⟩ | ⟨rfl, rfl⟩
          · exact .inl ⟨errno, rfl, rfl⟩
          · exact .inr ⟨rfl, rfl⟩
    · rintro ⟨_ | ⟨piece, pieces⟩, hpieces, hlt, hlog⟩
      · rcases hlog with ⟨errno, rfl, rfl⟩ | ⟨rfl, rfl⟩
        · exact ⟨.error errno, [], rfl, rfl, rfl⟩
        · exact ⟨.ok .empty, [], rfl, rfl, rfl⟩
      · obtain ⟨hpiece, hpieces⟩ := List.forall_mem_cons.mp hpieces
        have hrest (rest : List Exchange)
            (h : (readAll file fuel (read ++ piece)).Runs rest r) :
            (readAll file (fuel + 1) read).Runs
              (⟨.readFile file readChunk, .ok piece⟩ :: rest) r := by
          refine ⟨.ok piece, rest, rfl, ?_⟩
          change Task.Runs (if piece.isEmpty then _ else _) rest r
          rwa [if_neg fun he => hpiece (isEmpty_iff.mp he)]
        rcases hlog with ⟨errno, rfl, rfl⟩ | ⟨rfl, rfl⟩
        · exact hrest _
            (ih.mpr ⟨pieces, hpieces, Nat.lt_of_succ_lt_succ hlt,
              .inl ⟨errno, rfl, rfl⟩⟩)
        · exact hrest _
            (ih.mpr ⟨pieces, hpieces, Nat.lt_of_succ_lt_succ hlt, .inr ⟨rfl, rfl⟩⟩)

def closing (path : String) (file : Nat) :
    Except Errno ByteArray → Task (Except LoadError ByteArray)
  | .error errno => return .error (.read path errno)
  | .ok bytes => do
      match ← Task.request (.closeFile file) with
      | .error errno => return .error (.read path errno)
      | .ok () => return .ok bytes

theorem runs_readFile_of_opened {read : Except Errno ByteArray}
    {r : Except LoadError ByteArray} {log' rest : List Exchange}
    (hread : (readAll file fuel .empty).Runs log read)
    (hclose : (closing path file read).Runs log' r) (hrest : rest = log ++ log') :
    (readFile fuel path).Runs (opening path file ++ rest) r := by
  subst hrest
  refine Task.runs_bind.mpr ⟨true, [_], _, rfl, Task.runs_request.mpr rfl, ?_⟩
  refine Task.runs_bind.mpr ⟨.ok file, [_], _, rfl, Task.runs_request.mpr rfl, ?_⟩
  refine Task.runs_bind.mpr ⟨read, log, log', rfl, hread, ?_⟩
  cases read <;> exact hclose

theorem runs_readFile_iff {r : Except LoadError ByteArray} :
    (readFile fuel path).Runs log r ↔ ∃ n ≤ fuel, Fetches path n log r := by
  constructor
  · intro h
    obtain ⟨found, _, _, rfl, hfound, hopen⟩ := Task.runs_bind.mp h
    cases Task.runs_request.mp hfound
    cases found with
    | false =>
      obtain ⟨rfl, rfl⟩ := hopen
      exact ⟨0, Nat.zero_le _, .missing⟩
    | true =>
      obtain ⟨opened, _, _, rfl, hopened, hrest⟩ := Task.runs_bind.mp hopen
      cases Task.runs_request.mp hopened
      rcases opened with errno | file
      · obtain ⟨rfl, rfl⟩ := hrest
        exact ⟨0, Nat.zero_le _, .unopened errno⟩
      · obtain ⟨read, _, _, rfl, hread, hclose⟩ := Task.runs_bind.mp hrest
        obtain ⟨pieces, hpieces, hlt, ⟨errno, rfl, rfl⟩ | ⟨rfl, rfl⟩⟩ :=
          runs_readAll_iff.mp hread
        · obtain ⟨rfl, rfl⟩ := hclose
          rw [List.append_nil]
          exact ⟨_, hlt, .unread file hpieces errno⟩
        · obtain ⟨errno | _, _, rfl, rfl, rfl⟩ := hclose
          · rw [List.append_assoc]
            exact ⟨_, hlt, .unclosed file hpieces errno⟩
          · rw [List.append_assoc]
            exact ⟨_, hlt, .whole file hpieces⟩
  · rintro ⟨n, hn, h⟩
    cases h with
    | missing => exact ⟨false, [], rfl, rfl, rfl⟩
    | unopened errno => exact ⟨true, _, rfl, .error errno, [], rfl, rfl, rfl⟩
    | unread file hpieces errno =>
      refine runs_readFile_of_opened
        (runs_readAll_iff.mpr ⟨_, hpieces, hn, .inl ⟨errno, rfl, rfl⟩⟩) ?_
        (List.append_nil _).symm
      exact ⟨rfl, rfl⟩
    | unclosed file hpieces errno =>
      refine runs_readFile_of_opened
        (runs_readAll_iff.mpr ⟨_, hpieces, hn, .inr ⟨rfl, rfl⟩⟩) ?_
        (List.append_assoc _ [_] [_]).symm
      exact ⟨.error errno, [], rfl, rfl, rfl⟩
    | whole file hpieces =>
      refine runs_readFile_of_opened
        (runs_readAll_iff.mpr ⟨_, hpieces, hn, .inr ⟨rfl, rfl⟩⟩) ?_
        (List.append_assoc _ [_] [_]).symm
      exact ⟨.ok (), [], rfl, rfl, rfl⟩

def loadRead (setup : Setup G) (s : Slot G) :
    Except LoadError ByteArray → Except LoadError Unit × Slot G
  | .error e => (.error e, s)
  | .ok bytes => setup.load bytes s

theorem runs_loadFrom_iff {out : Except LoadError Unit × Slot G} :
    (setup.loadFrom path s).Runs log out ↔
      ∃ r, (∃ n ≤ setup.fuel, Fetches path n log r) ∧ out = setup.loadRead s r := by
  simp only [← runs_readFile_iff]
  constructor
  · intro h
    obtain ⟨r, _, _, rfl, hread, hload⟩ := Task.runs_bind.mp h
    cases r with
    | error | ok =>
      obtain ⟨rfl, rfl⟩ := hload
      rw [List.append_nil]
      exact ⟨_, hread, rfl⟩
  · rintro ⟨r, hread, rfl⟩
    refine Task.runs_bind.mpr ⟨r, log, [], (List.append_nil _).symm, hread, ?_⟩
    cases r <;> exact ⟨rfl, rfl⟩

/-- A file that is read to its end is loaded as the bytes of its pieces, however
many there are. -/
theorem runs_loadFrom_wholly_iff (hpieces : ∀ piece ∈ pieces, piece ≠ .empty)
    (hfuel : pieces.length < setup.fuel) {out : Except LoadError Unit × Slot G} :
    (setup.loadFrom path s).Runs (wholly path file pieces) out ↔
    out = setup.load (joined pieces) s :=
  Task.Runs.iff_eq (runs_loadFrom_iff.mpr ⟨_, ⟨_, hfuel, .whole file hpieces⟩, rfl⟩)

/-- Before the gate a file is only read; from there on its bytes are loaded like
any others. -/
theorem runs_approach_wholly_iff (hpieces : ∀ piece ∈ pieces, piece ≠ .empty)
    (hfuel : pieces.length < setup.fuel) {approach : Approach G} :
    (setup.approach (.carry (.loadFrom path))).Runs (wholly path file pieces) approach ↔
      approach = setup.approachLoad (joined pieces) :=
  Task.Runs.iff_eq (Task.runs_bind.mpr ⟨_, _, [], (List.append_nil _).symm,
    runs_readFile_iff.mpr ⟨_, hfuel, .whole file hpieces⟩, rfl, rfl⟩)

end Setup

end Resumable
