import Resumable.Proofs.Json.Kept
import Resumable.Proofs.Message.Decoding

namespace Resumable

namespace Incoming

def exceptionJson (e : CoreException) : Json :=
  .obj [("error_code", .str e.code), ("message", .str e.message)]

def headersJson (h : Headers) : Json :=
  .obj (h.map fun entry => (entry.1, Json.texts entry.2))

def members : Incoming → List (String × Json)
  | .performInput => [("kind", .str "perform-input")]
  | .outputResult result => [("kind", .str "perform-output-result"), ("result", result)]
  | .outputError error => [("kind", .str "perform-output-error"), ("error", error)]
  | .outputException exception =>
      [("kind", .str "perform-output-exception"),
       ("exception", exceptionJson exception)]
  | .fileOpen path flags =>
      [("kind", .str "file-open"), ("path", .str path), ("read", .bool flags.read),
       ("write", .bool flags.write), ("append", .bool flags.append),
       ("truncate", .bool flags.truncate), ("create", .bool flags.create),
       ("create_new", .bool flags.createNew)]
  | .httpCall request =>
      [("kind", .str "http-call"), ("method", .str request.method),
       ("url", .str request.url), ("headers", headersJson request.headers),
       ("body", match request.body with
          | none => .null
          | some body => Json.octets body)]
  | .httpCallHead handle =>
      [("kind", .str "http-call-head"), ("handle", .int handle.toNat)]
  | .unknown kind => [("kind", .str kind)]

/-- A message as its fields are: values that are kept one level down, headers by name,
and a kind of its own if it is unknown. -/
def Documented : Incoming → Prop
  | .outputResult result => result.Kept 126
  | .outputError error => error.Kept 126
  | .httpCall request => request.headers.Pairwise fun a b => a.1 < b.1
  | .unknown kind => kind ∉ kinds
  | _ => True

end Incoming

namespace Json

theorem kept_texts (room : Nat) (ss : List String) : (texts ss).Kept (room + 1) := by
  refine .arr fun v hv => ?_
  obtain ⟨s, -, rfl⟩ := List.mem_map.mp hv
  exact .str s

theorem kept_octets (room : Nat) (bs : ByteArray) : (octets bs).Kept (room + 1) := by
  refine .arr fun v hv => ?_
  obtain ⟨b, -, rfl⟩ := List.mem_map.mp hv
  have := b.toNat_lt
  exact .nat (by omega)

end Json

namespace Incoming

theorem kept_headersJson (room : Nat) {h : Headers}
    (hascending : h.Pairwise fun a b => a.1 < b.1) :
    (headersJson h).Kept (room + 2) := by
  refine .obj ?_ fun m hm => ?_
  · exact List.pairwise_map.mpr hascending
  · obtain ⟨entry, -, rfl⟩ := List.mem_map.mp hm
    exact Json.kept_texts room entry.2

theorem kept_exceptionJson (room : Nat) (e : CoreException) :
    (exceptionJson e).Kept (room + 1) :=
  .obj (List.pairwise_pair.mpr (show "error_code" < "message" by decide)) fun m hm => by
    simp only [List.mem_cons, List.not_mem_nil, or_false] at hm
    rcases hm with rfl | rfl <;> exact .str _

theorem kept_members {m : Incoming} (h : m.Documented) :
    ∀ e ∈ m.members, e.2.Kept 126 := by
  cases m with
  | performInput => simpa [members] using Json.Kept.str _
  | outputResult result => simpa [members] using ⟨Json.Kept.str _, h⟩
  | outputError error => simpa [members] using ⟨Json.Kept.str _, h⟩
  | outputException exception =>
    simpa [members] using ⟨Json.Kept.str _, kept_exceptionJson 125 exception⟩
  | fileOpen path flags =>
    simp only [members, List.forall_mem_cons]
    exact ⟨.str _, .str _, .bool _, .bool _, .bool _, .bool _, .bool _, .bool _, nofun⟩
  | httpCall request =>
    simp only [members, List.forall_mem_cons]
    refine ⟨.str _, .str _, .str _, kept_headersJson 124 h, ?_, nofun⟩
    cases request.body with
    | none => exact .null
    | some body => exact Json.kept_octets 125 body
  | httpCallHead handle =>
    have := handle.toNat_lt
    simpa [members] using ⟨Json.Kept.str _, Json.Kept.nat (by omega)⟩
  | unknown kind => simpa [members] using Json.Kept.str _

theorem nodup_members (m : Incoming) : (m.members.map Prod.fst).Nodup := by
  cases m <;> simp [members]

theorem kind_mem_members (m : Incoming) : ("kind", Json.str m.kind) ∈ m.members := by
  cases m <;> simp [members, kind]

/-- Members that are found as they document a message have its shape. -/
theorem shape_of_members {m : Incoming} (hm : m.Documented) (hkind : m.kind ∈ kinds)
    {member : String → Option Json} (h : ∀ e ∈ m.members, member e.1 = some e.2) :
    Shape member m := by
  cases m with
  | performInput => exact .performInput
  | outputResult result =>
      exact .outputResult (h ("result", result) (by simp [members]))
  | outputError error => exact .outputError (h ("error", error) (by simp [members]))
  | outputException exception =>
    exact .outputException
      (h ("exception", exceptionJson exception) (by simp [members])) (.inl ⟨rfl, rfl⟩)
  | fileOpen path flags =>
    simp only [members, List.forall_mem_cons] at h
    obtain ⟨-, hpath, hread, hwrite, happend, htruncate, hcreate, hcreateNew, -⟩ := h
    exact .fileOpen hpath ⟨.inr hread, .inr hwrite, .inr happend,
      .inr htruncate, .inr hcreate, .inr hcreateNew⟩
  | httpCall request =>
    simp only [members, List.forall_mem_cons] at h
    obtain ⟨-, hmethod, hurl, hheaders, hbody, -⟩ := h
    refine .httpCall ⟨hmethod, hurl, .inr hheaders, ?_⟩
    cases hrequest : request.body with
    | none => exact .inr (by simpa [hrequest] using hbody)
    | some body =>
      rw [hrequest] at hbody
      exact hbody
  | httpCallHead handle => exact .httpCallHead (h ("handle", _) (by simp [members]))
  | unknown kind => exact absurd hkind hm

theorem eq_unknown_of_kind {m : Incoming} (h : m.kind ∉ kinds) :
    m = .unknown m.kind := by
  cases m with
  | unknown kind => rfl
  | _ => exact absurd (by simp [kind, kinds]) h

/-- A document of a message: its members and others, in any order. -/
structure Extends (m : Incoming) (extra document : List (String × Json)) : Prop where
  perm : document.Perm (m.members ++ extra)
  fresh : ∀ e ∈ extra, e.1 ∉ m.members.map Prod.fst
  read : ∀ e ∈ extra, ∃ w, e.2.reread = some w
  depth : ∀ e ∈ extra, e.2.depth ≤ 126

theorem decode_document {m : Incoming} {extra document : List (String × Json)}
    (hm : m.Documented) (h : Extends m extra document) :
    decode (Json.obj document).bytes = .ok m := by
  have hkept := kept_members hm
  obtain ⟨tree, hread, hfind⟩ := Json.exists_read_obj document
    (fun e he => (List.mem_append.mp (h.perm.subset he)).elim
      (fun he => ⟨_, (hkept e he).reread⟩) (h.read e))
    (fun e he => (List.mem_append.mp (h.perm.subset he)).elim
      (fun he => (hkept e he).depth) (h.depth e))
  have hmember : ∀ e ∈ m.members, tree.last? e.1 = some e.2 := by
    rintro ⟨k, v⟩ he
    refine hfind k v (h.perm.symm.subset (List.mem_append_left _ he)) (fun v' hv' => ?_)
      (hkept _ he)
    -- The message has one member with the key, and the others of the document have
    -- different keys.
    rcases List.mem_append.mp (h.perm.subset hv') with hv' | hv'
    · exact congrArg Prod.snd (List.inj_on_of_nodup_map m.nodup_members hv' he rfl)
    · exact absurd (List.mem_map_of_mem (f := Prod.fst) he) (h.fresh (k, v') hv')
  have hkind := hmember _ m.kind_mem_members
  by_cases hknown : m.kind ∈ kinds
  · exact decode_known hread hkind (shape_of_members hm hknown hmember)
  · rw [eq_unknown_of_kind hknown]
    exact decode_unknown hread hkind hknown

/-- A message that is decoded is of the kind that the document names. -/
theorem kind_of_decode {bytes : ByteArray} {m : Incoming} (h : decode bytes = .ok m) :
    ∃ tree, Json.read .wire bytes.toList = .ok tree ∧
    tree.last? "kind" = some (.str m.kind) := by
  have hanswer := decode_answer bytes
  rw [h] at hanswer
  cases hanswer with
  | unknown hread hkind => exact ⟨_, hread, hkind⟩
  | known hread hkind => exact ⟨_, hread, hkind⟩

/-- Every text is decoded as its members say, by the kind that it names, and
the documented object of a message, extended and in any order, is decoded as
that message. -/
theorem decode_exact :
    (∀ bytes, Decodes bytes) ∧
      (∀ bytes m, decode bytes = .ok m →
        ∃ tree, Json.read .wire bytes.toList = .ok tree ∧
        tree.last? "kind" = some (.str m.kind)) ∧
      ∀ m extra document, m.Documented → Extends m extra document →
        decode (Json.obj document).bytes = .ok m :=
  ⟨decodes, fun _ _ => kind_of_decode, fun _ _ _ => decode_document⟩

/-- An exception whose members come behind others and the other way round. -/
theorem exception_document_decoded :
    decode (Json.obj
      [("at", .int (-7)), ("at", .arr [.null, .bool true]),
       ("exception", .obj [("error_code", .str "E\n"), ("message", .str "né")]),
       ("kind", .str "perform-output-exception")]).bytes =
        .ok (.outputException ⟨"E\n", "né"⟩) := by
  refine decode_exact.2.2 _ [("at", .int (-7)), ("at", .arr [.null, .bool true])] _
    trivial ⟨?_, ?_, ?_, ?_⟩
  · exact (@List.perm_append_comm _ [_, _] [_, _]).trans
      (List.Perm.append_right [_, _] (List.Perm.swap _ _ []))
  · simp [members]
  · simp only [List.forall_mem_cons]
    exact ⟨⟨_, rfl⟩, ⟨_, rfl⟩, nofun⟩
  · simp only [List.forall_mem_cons]
    exact ⟨by decide, by decide, nofun⟩

section Losses

def nested : Nat → Json
  | 0 => .null
  | n + 1 => .arr [nested n]

/-- The double that is written `1e-23`, and its upper neighbour. -/
def tiny : Binary64 := ⟨4262707295203537489⟩

def tinyNeighbour : Binary64 := ⟨4262707295203537490⟩

def isResult (y : Binary64) : Except DecodeError Incoming → Bool
  | .ok (.outputResult (.double x)) => x == y
  | _ => false

def isTooDeep : Except Json.ReadError Json → Bool
  | .ok _ => false
  | .error e => e.problem == .tooDeep

theorem of_isResult {y : Binary64} {r : Except DecodeError Incoming}
    (h : isResult y r = true) : r = .ok (.outputResult (.double y)) := by
  unfold isResult at h
  split at h
  · rw [eq_of_beq h]
  · cases h

theorem of_isTooDeep {r : Except Json.ReadError Json} (h : isTooDeep r = true) :
    ∃ place, r = .error ⟨.tooDeep, place⟩ := by
  unfold isTooDeep at h
  split at h
  · cases h
  · next e => exact ⟨e.place, by rw [← eq_of_beq h]⟩

/-- A result that is read as its neighbour, and one with more brackets than
may be open. -/
theorem tiny_and_nested_lost :
    decode (Json.obj (members (.outputResult (.double tiny)))).bytes =
        .ok (.outputResult (.double tinyNeighbour)) ∧
      tiny ≠ tinyNeighbour ∧
      ∃ place, decode (Json.obj (members (.outputResult (nested 127)))).bytes =
        .error (.json ⟨.tooDeep, place⟩) := by
  have hdeep :
      isTooDeep
        (Json.ofBytes (Json.obj (members (.outputResult (nested 127)))).bytes.toList) =
      true := by
    rw [Json.toList_bytes]
    decide +kernel
  obtain ⟨place, hdeep⟩ := of_isTooDeep hdeep
  refine ⟨of_isResult ?_, by decide, place, ?_⟩
  · rw [decode, Json.toList_bytes]
    decide +kernel
  · rw [decode, hdeep]

end Losses

end Incoming

end Resumable
