import Resumable.Proofs.Host.Confinement

namespace Resumable

namespace Exchange

def content : Exchange → Content
  | ⟨.readFile _ _, answer⟩ => readContent answer
  | ⟨.pullBody _, item⟩ => item.content
  | _ => []

def AtEnd : Exchange → Prop
  | ⟨.readFile _ max, answer⟩ => 0 < max ∧ answer = .ok .empty
  | ⟨.pullBody _, item⟩ => item = .ended
  | _ => False

end Exchange

/-- What sources that honour the contract have left after the exchanges of a log. -/
inductive Supplied : Content → List Exchange → Content → Prop where
  | nothing (supply : Content) : Supplied supply [] supply
  | given {x : Exchange} {log : List Exchange} {rest rest' : Content}
      (hlimit : x.KeepsLimit) (hend : x.AtEnd → rest = [])
      (hmore : Supplied rest log rest') : Supplied (x.content ++ rest) (x :: log) rest'

namespace Supplied

variable {supply rest : Content} {log log' : List Exchange} {x : Exchange}

theorem content (h : Supplied supply log rest) :
    supply = log.flatMap Exchange.content ++ rest := by
  induction h with
  | nothing => rfl
  | given _ _ _ ih => rw [List.flatMap_cons, List.append_assoc, ← ih]

theorem limits (h : Supplied supply log rest) : ∀ x ∈ log, x.KeepsLimit := by
  induction h with
  | nothing => exact List.forall_mem_nil _
  | given hlimit _ _ ih => exact List.forall_mem_cons.mpr ⟨hlimit, ih⟩

theorem piece {file max : Nat} {bytes : ByteArray} {middle : Content}
    (hlimit : bytes.size ≤ max) (hend : bytes.size = 0 → max = 0 ∨ middle = [])
    (hmore : Supplied middle log rest) :
    Supplied (contentOf bytes ++ middle) (⟨.readFile file max, .ok bytes⟩ ::
      log) rest := by
  refine .given (x := ⟨.readFile file max, .ok bytes⟩) hlimit ?_ hmore
  rintro ⟨hmax, hempty⟩
  cases hempty
  rcases hend rfl with hzero | hnil
  · omega
  · exact hnil

theorem rest_of_nil (h : Supplied [] log rest) : rest = [] := by
  have hcontent := h.content
  rw [List.nil_eq_append_iff] at hcontent
  exact hcontent.2

theorem at_end (h : Supplied supply log rest) (hx : x ∈ log) (hend : x.AtEnd) :
    rest = [] := by
  induction h with
  | nothing => simp at hx
  | given _ hall hmore ih =>
      rcases List.mem_cons.mp hx with rfl | hx
      · rw [hall hend] at hmore
        exact hmore.rest_of_nil
      · exact ih hx

theorem split (h : Supplied supply (log ++ log') rest) :
    ∃ middle, Supplied supply log middle ∧ Supplied middle log' rest := by
  induction log generalizing supply with
  | nil => exact ⟨supply, .nothing supply, h⟩
  | cons x log ih =>
      cases h with
      | given hlimit hend hmore =>
          obtain ⟨middle, hfirst, hsecond⟩ := ih hmore
          exact ⟨middle, .given hlimit hend hfirst, hsecond⟩

end Supplied

theorem Task.runs_pure {α : Type} {a b : α} {log : List Exchange} :
    (pure a : Task α).Runs log b ↔ log = [] ∧ b = a := Iff.rfl

namespace ChunkReader

variable {r r' : ChunkReader Nat} {fuel max source : Nat} {log : List Exchange}

def pullBody (source : Nat) : Task (Pull × Nat) := do
  let item ← Task.request (.pullBody source)
  return (item, source)

def pulled (source : Nat) (item : Pull) : Exchange := ⟨.pullBody source, item⟩

theorem content_pulled (source : Nat) (items : List Pull) :
    (items.map (pulled source)).flatMap Exchange.content =
    items.flatMap Pull.content := by
  rw [List.flatMap_map]
  rfl

theorem fills_of_runs {answer : Except Errno Bool}
    (hsource : ∀ u, r.source = some u → u = source)
    (h : (fill pullBody fuel r).Runs log (some (answer, r'))) :
    ∃ items, log = items.map (pulled source) ∧ Fills r items answer r' := by
  induction fuel generalizing r log with
  | zero =>
      obtain ⟨rfl, hr⟩ := h
      by_cases hqueue : r.queue = []
      · simp [hqueue] at hr
      · rw [if_neg (by simp [hqueue])] at hr
        cases hr
        exact ⟨[], rfl, .queued hqueue⟩
  | succ fuel ih =>
      unfold fill at h
      by_cases hqueue : r.queue = []
      · rw [if_neg (by simp [hqueue])] at h
        rcases hsome : r.source with _ | u
        · rw [hsome] at h
          obtain ⟨rfl, hr⟩ := h
          cases hr
          exact ⟨[], rfl, .exhausted hqueue hsome⟩
        · cases hsource u hsome
          rw [hsome] at h
          obtain ⟨⟨item, u'⟩, log₁, log₂, rfl, hpull, hrest⟩ := Task.runs_bind.mp h
          obtain ⟨_, _, _, rfl, hrequest, rfl, hpulled⟩ := Task.runs_bind.mp hpull
          cases hpulled
          cases Task.runs_request.mp hrequest
          cases item with
          | chunk bytes =>
              have hkept :
                  ∀ u', ({ r with source := some source }.push bytes).source = some
                    u' → u' = source := by
                intro u' hu'
                rw [(push_source _ _).1] at hu'
                exact (Option.some.inj hu').symm
              obtain ⟨items, rfl, hfills⟩ := ih hkept hrest
              exact ⟨.chunk bytes :: items, rfl, .chunk hqueue hsome hfills⟩
          | failed errno =>
              obtain ⟨rfl, hr⟩ := Task.runs_pure.mp hrest
              cases hr
              exact ⟨[.failed errno], rfl, .failed hqueue hsome⟩
          | ended =>
              obtain ⟨rfl, hr⟩ := Task.runs_pure.mp hrest
              cases hr
              exact ⟨[.ended], rfl, .ended hqueue hsome⟩
      · rw [if_pos (by simp [hqueue])] at h
        obtain ⟨rfl, hr⟩ := h
        cases hr
        exact ⟨[], rfl, .queued hqueue⟩

/-- A read that is carried out by asking its source is a read by what it pulls. -/
theorem reads_of_runs {answer : Except Errno ByteArray}
    (h : (r.read pullBody fuel max).Runs log (some (answer, r'))) :
    ∃ source items, log = items.map (pulled source) ∧ Reads max r items answer r' := by
  have hsource : ∀ u, r.source = some u → u = r.source.getD 0 := by
    intro u hu
    rw [hu, Option.getD_some]
  unfold read at h
  split at h
  · next hclosed =>
      obtain ⟨rfl, hr⟩ := h
      cases hr
      exact ⟨0, [], rfl, .closed hclosed⟩
  · next hclosed =>
      have hopen : r.closed = false := by simpa using hclosed
      split at h
      · next hmax =>
          obtain ⟨rfl, hr⟩ := h
          cases hr
          exact ⟨0, [], rfl, .nothing hopen hmax⟩
      · next hmax =>
          have hpos : 0 < max := Nat.pos_of_ne_zero hmax
          obtain ⟨filled, _, _, rfl, hfill, hrest⟩ := Task.runs_bind.mp h
          rcases filled with _ | ⟨_ | _ | _, filled⟩
          · cases hrest.2
          · obtain ⟨items, rfl, hfills⟩ := fills_of_runs hsource hfill
            obtain ⟨rfl, hr⟩ := Task.runs_pure.mp hrest
            cases hr
            exact ⟨_, items, List.append_nil _, .failed hopen hpos hfills⟩
          · obtain ⟨items, rfl, hfills⟩ := fills_of_runs hsource hfill
            obtain ⟨rfl, hr⟩ := Task.runs_pure.mp hrest
            cases hr
            exact ⟨_, items, List.append_nil _, .atEnd hopen hpos hfills⟩
          · obtain ⟨items, rfl, hfills⟩ := fills_of_runs hsource hfill
            obtain ⟨rfl, hr⟩ := Task.runs_pure.mp hrest
            cases hr
            exact ⟨_, items, List.append_nil _, .taken hopen hpos hfills⟩

end ChunkReader

namespace Stream

variable {stream stream' : Stream} {supply rest : Content} {log : List Exchange}
  {fuel max : Nat} {answer : Except Errno ByteArray}

def left : Stream → Content
  | .file _ => []
  | .body reader => reader.left

/-- The stream can be read, and is as reads leave it if its source has `supply` left. -/
def Sound (supply : Content) : Stream → Prop
  | .file _ => True
  | .body reader =>
      reader.closed = false ∧ reader.Tidy ∧ (reader.source = none → supply = [])

/-- What a read does to a stream. -/
structure Gives (supply : Content) (stream : Stream) (max : Nat)
    (answer : Except Errno ByteArray) (rest : Content) (stream' : Stream) : Prop where
  sound : stream'.Sound rest
  content : stream.left ++ supply = readContent answer ++ (stream'.left ++ rest)
  limit : ∀ bytes, answer = .ok bytes → bytes.size ≤ max
  atEnd : answer = .ok .empty → max = 0 ∨ stream'.left ++ rest = []

theorem gives_of_runs (hsound : stream.Sound supply)
    (hsupply : Supplied supply log rest)
    (h : (stream.read fuel max).Runs log (answer, stream')) :
    Gives supply stream max answer rest stream' := by
  cases stream with
  | file id =>
      obtain ⟨result, _, _, rfl, hrequest, rfl, hr⟩ := Task.runs_bind.mp h
      cases hr
      cases Task.runs_request.mp hrequest
      refine ⟨trivial, ?_, ?_, ?_⟩
      · simpa [left, Exchange.content] using hsupply.content
      · rintro bytes rfl
        exact hsupply.limits _ (List.mem_cons_self ..)
      · intro hanswer
        rcases Nat.eq_zero_or_pos max with hmax | hmax
        · exact .inl hmax
        · exact .inr (hsupply.at_end (List.mem_cons_self ..) ⟨hmax, hanswer⟩)
  | body reader =>
      obtain ⟨hopen, htidy, hsource⟩ := hsound
      obtain ⟨read?, _, _, rfl, hread, h⟩ := Task.runs_bind.mp h
      obtain ⟨⟨result, reader'⟩, _, _, rfl, hsome, rfl, hr⟩ := Task.runs_bind.mp h
      obtain ⟨rfl, rfl⟩ := Task.runs_ofOption hsome
      cases hr
      obtain ⟨source, items, rfl, hreads⟩ := ChunkReader.reads_of_runs hread
      rw [List.append_nil, List.append_nil] at hsupply
      have hgone : reader'.source = none → rest = [] := by
        intro hnone
        rcases hreads.source_gone hnone with hnone | hended
        · rw [hsource hnone] at hsupply
          exact hsupply.rest_of_nil
        · exact hsupply.at_end (List.mem_map_of_mem hended) rfl
      have htidy' := hreads.tidy htidy
      refine ⟨⟨hreads.closed_eq.trans hopen, htidy', hgone⟩, ?_,
        fun bytes => hreads.size_le, ?_⟩
      · rw [hsupply.content, ChunkReader.content_pulled, left, ← List.append_assoc,
          hreads.content hopen, List.append_assoc]
        rfl
      · intro hanswer
        rcases Nat.eq_zero_or_pos max with hmax | hmax
        · exact .inl hmax
        · obtain ⟨hqueue, hnone⟩ := hreads.at_end htidy hmax hanswer
          rw [left, htidy'.left_eq_nil.mpr hqueue, hgone hnone]
          exact .inr rfl

end Stream

end Resumable
