import Resumable.Proofs.Message.Fields

namespace Resumable

namespace CoreException

/-- An exception as a value: an object with its two texts, or the list of both. -/
def Shape (v : Json) (e : CoreException) : Prop :=
  (v.get? "error_code" = some (.str e.code) ∧
    v.get? "message" = some (.str e.message)) ∨ v = .arr [.str e.code, .str e.message]

theorem ofJson_obj {members : List (String × Json)} {e : CoreException} :
    ofJson (.obj members) = .ok e ↔
      (Json.obj members).get? "error_code" = some (.str e.code) ∧
        (Json.obj members).get? "message" = some (.str e.message) := by
  simp only [ofJson, bind_eq_ok, Json.check_eq_ok, Json.require_eq_ok,
    Json.expectText_eq_ok]
  constructor
  · rintro ⟨-, -, -, -, _, hcode, code, rfl, _, hmessage, message, rfl, he⟩
    cases he
    exact ⟨hcode, hmessage⟩
  · rintro ⟨hcode, hmessage⟩
    refine ⟨(), fun v hv => ⟨e.code, ?_⟩, (), fun v hv => ⟨e.message, ?_⟩, _,
      hcode, _, rfl, _, hmessage, _, rfl, rfl⟩
    · exact Option.some.inj (hv.symm.trans hcode)
    · exact Option.some.inj (hv.symm.trans hmessage)

theorem ofJson_eq_ok {v : Json} {e : CoreException} : ofJson v = .ok e ↔ Shape v e := by
  rw [Shape]
  cases v with
  | obj members =>
    rw [ofJson_obj]
    exact ⟨.inl, fun h => h.resolve_right nofun⟩
  | arr items =>
    have hget (k : String) : (Json.arr items).get? k = none := rfl
    rw [hget, hget, Json.arr.injEq]
    match items with
    | [] => simp [ofJson]
    | [code] =>
      cases hcode : code.expectText <;>
        simp [ofJson, hcode, bind, Except.bind, throw, throwThe, MonadExceptOf.throw]
    | code :: message :: more =>
      simp only [ofJson, bind_eq_ok, Json.expectText_eq_ok]
      constructor
      · rintro ⟨code', rfl, message', rfl, he⟩
        split at he
        · rename_i hmore
          cases he
          exact .inr (by simpa using hmore)
        · cases he
      · rintro (⟨hnone, -⟩ | h)
        · cases hnone
        · cases h
          exact ⟨_, rfl, _, rfl, rfl⟩
  | _ => simp [ofJson, Json.get?]

end CoreException

def IsFlag (v : Option Json) (b : Bool) : Prop :=
  (v = none ∧ b = false) ∨ v = some (.bool b)

theorem optional_flag {members : List (String × Json)} {name : String} {b : Bool} :
    Json.optional members name false Json.expectBool = .ok b ↔
      IsFlag ((Json.obj members).get? name) b := by
  rw [Json.optional_eq_ok, IsFlag]
  simp [Json.expectBool_eq_ok]

namespace OpenFlags

structure Shape (member : String → Option Json) (f : OpenFlags) : Prop where
  read : IsFlag (member "read") f.read
  write : IsFlag (member "write") f.write
  append : IsFlag (member "append") f.append
  truncate : IsFlag (member "truncate") f.truncate
  create : IsFlag (member "create") f.create
  createNew : IsFlag (member "create_new") f.createNew

theorem ofMembers_eq_ok {members : List (String × Json)} {f : OpenFlags} :
    ofMembers members = .ok f ↔ Shape (Json.obj members).get? f := by
  simp only [ofMembers, bind_eq_ok, optional_flag]
  constructor
  · rintro ⟨append, happend, create, hcreate, createNew, hcreateNew, read,
      hread, truncate, htruncate, write, hwrite, hf⟩
    cases hf
    exact ⟨hread, hwrite, happend, htruncate, hcreate, hcreateNew⟩
  · intro h
    exact ⟨_, h.append, _, h.create, _, h.createNew, _, h.read, _, h.truncate,
      _, h.write, rfl⟩

end OpenFlags

namespace HttpRequest

def IsHeaders (v : Option Json) (h : Headers) : Prop :=
  (v = none ∧ h = []) ∨
  v = some (.obj (h.map fun entry => (entry.1, Json.texts entry.2)))

def IsBody (v : Option Json) : Option ByteArray → Prop
  | none => v = none ∨ v = some .null
  | some body => v = some (Json.octets body)

theorem optional_headers {members : List (String × Json)} {h : Headers} :
    Json.optional members "headers" [] Json.expectHeaders = .ok h ↔
      IsHeaders ((Json.obj members).get? "headers") h := by
  rw [Json.optional_eq_ok, IsHeaders]
  simp [Json.expectHeaders_eq_ok]

theorem optional_body (members : List (String × Json))
    (read : Json → Except Mismatch (Option ByteArray)) (hnull : read .null = .ok none)
    (hbytes : ∀ v, v ≠ .null → read v = v.expectBytes.map some)
    (body : Option ByteArray) : Json.optional members "body" none read = .ok body ↔
      IsBody ((Json.obj members).get? "body") body := by
  have hread (v : Json) : read v = .ok body ↔
      (v = .null ∧ body = none) ∨ ∃ bs, body = some bs ∧ v = Json.octets bs := by
    by_cases hv : v = .null
    · subst hv
      simp [hnull, Json.octets, eq_comm]
    · rw [hbytes v hv, map_eq_ok]
      simp only [Json.expectBytes_eq_ok, hv, false_and, false_or]
      constructor
      · rintro ⟨bs, hbs, rfl⟩
        exact ⟨bs, rfl, hbs⟩
      · rintro ⟨bs, rfl, hbs⟩
        exact ⟨bs, hbs, rfl⟩
  simp only [Json.optional_eq_ok, hread]
  cases body with
  | none => simp [IsBody]
  | some bs => simp [IsBody]

theorem optional_body_bind {α : Type} {members : List (String × Json)}
    {read : Json → Except Mismatch (Option ByteArray)}
    {rest : Option ByteArray → Except Mismatch α} {x : α}
    (hnull : read .null = .ok none)
    (hbytes : ∀ v, v ≠ .null → read v = v.expectBytes.map some) :
    (Json.optional members "body" none read >>= rest) = .ok x ↔
      ∃ body, IsBody ((Json.obj members).get? "body") body ∧ rest body = .ok x := by
  simp only [bind_eq_ok, optional_body members read hnull hbytes]

structure Shape (member : String → Option Json) (r : HttpRequest) : Prop where
  method : member "method" = some (.str r.method)
  url : member "url" = some (.str r.url)
  headers : IsHeaders (member "headers") r.headers
  body : IsBody (member "body") r.body

theorem ofMembers_eq_ok {members : List (String × Json)} {r : HttpRequest} :
    ofMembers members = .ok r ↔ Shape (Json.obj members).get? r := by
  rw [ofMembers, optional_body_bind]
  case hnull => rfl
  case hbytes =>
    intro v hv
    cases v <;> first | rfl | exact absurd rfl hv
  simp only [bind_eq_ok, optional_headers, Json.check_eq_ok, Json.require_eq_ok,
    Json.expectText_eq_ok]
  constructor
  · rintro ⟨body, hbody, headers, hheaders, -, -, -, -, _, hmethod, method, rfl, _,
      hurl, url, rfl, hr⟩
    cases hr
    exact ⟨hmethod, hurl, hheaders, hbody⟩
  · intro h
    refine ⟨_, h.body, _, h.headers, (), fun v hv => ⟨r.method, ?_⟩, (),
      fun v hv => ⟨r.url, ?_⟩, _, h.method, _, rfl, _, h.url, _, rfl, rfl⟩
    · exact Option.some.inj (hv.symm.trans h.method)
    · exact Option.some.inj (hv.symm.trans h.url)

end HttpRequest

namespace Incoming

def kinds : List String :=
  [ "perform-input", "perform-output-result", "perform-output-error",
    "perform-output-exception"
  , "file-open", "http-call", "http-call-head" ]

/-- What the members of a message are, looked up by key. -/
inductive Shape (member : String → Option Json) : Incoming → Prop
  | performInput : Shape member .performInput
  | outputResult {result : Json} (hresult : member "result" = some result) :
      Shape member (.outputResult result)
  | outputError {error : Json} (herror : member "error" = some error) :
      Shape member (.outputError error)
  | outputException {v : Json} {exception : CoreException}
      (hmember : member "exception" = some v) (hexception : exception.Shape v) :
      Shape member (.outputException exception)
  | fileOpen {path : String} {flags : OpenFlags}
      (hpath : member "path" = some (.str path)) (hflags : flags.Shape member) :
      Shape member (.fileOpen path flags)
  | httpCall {request : HttpRequest} (hrequest : request.Shape member) :
      Shape member (.httpCall request)
  | httpCallHead {handle : UInt32}
      (hhandle : member "handle" = some (.int handle.toNat)) :
      Shape member (.httpCallHead handle)

theorem ofMembers_unknown {kind : String} (hkind : kind ∉ kinds)
    (members : List (String × Json)) :
    ofMembers kind members = .ok (.unknown kind) := by
  simp only [kinds, List.mem_cons, List.not_mem_nil, or_false, not_or] at hkind
  obtain ⟨h₁, h₂, h₃, h₄, h₅, h₆, h₇⟩ := hkind
  rw [ofMembers, if_neg h₁, if_neg h₂, if_neg h₃, if_neg h₄, if_neg h₅,
    if_neg h₆, if_neg h₇]

section Known

variable {members : List (String × Json)} {m : Incoming}

/-- What is read as a message of a known kind has its shape. -/
theorem shape_of_ofMembers {kind : String} (hkind : kind ∈ kinds)
    (h : ofMembers kind members = .ok m) :
    m.kind = kind ∧ Shape (Json.obj members).get? m := by
  simp only [kinds, List.mem_cons, List.not_mem_nil, or_false] at hkind
  rcases hkind with rfl | rfl | rfl | rfl | rfl | rfl | rfl
  · cases h
    exact ⟨rfl, .performInput⟩
  · obtain ⟨result, hresult, rfl⟩ := map_eq_ok.mp h
    exact ⟨rfl, .outputResult (Json.require_eq_ok.mp hresult)⟩
  · obtain ⟨error, herror, rfl⟩ := map_eq_ok.mp h
    exact ⟨rfl, .outputError (Json.require_eq_ok.mp herror)⟩
  · obtain ⟨v, hv, h⟩ := bind_eq_ok.mp h
    obtain ⟨exception, hexception, h⟩ := bind_eq_ok.mp h
    cases h
    exact ⟨rfl, .outputException (Json.require_eq_ok.mp hv)
      (CoreException.ofJson_eq_ok.mp hexception)⟩
  · obtain ⟨v, hv, h⟩ := bind_eq_ok.mp h
    obtain ⟨path, hpath, h⟩ := bind_eq_ok.mp h
    obtain ⟨flags, hflags, h⟩ := bind_eq_ok.mp h
    cases h
    cases Json.expectText_eq_ok.mp hpath
    exact ⟨rfl,
      .fileOpen (Json.require_eq_ok.mp hv) (OpenFlags.ofMembers_eq_ok.mp hflags)⟩
  · obtain ⟨request, hrequest, rfl⟩ := map_eq_ok.mp h
    exact ⟨rfl, .httpCall (HttpRequest.ofMembers_eq_ok.mp hrequest)⟩
  · obtain ⟨v, hv, h⟩ := bind_eq_ok.mp h
    obtain ⟨n, hn, h⟩ := bind_eq_ok.mp h
    cases h
    obtain ⟨rfl, hsmall⟩ := (Json.expectNat_eq_ok _ _).mp hn
    refine ⟨rfl, .httpCallHead ?_⟩
    rw [UInt32.toNat_ofNat_of_lt' (Nat.lt_succ_of_le hsmall)]
    exact Json.require_eq_ok.mp hv

theorem ofMembers_of_shape (h : Shape (Json.obj members).get? m) :
    ofMembers m.kind members = .ok m := by
  cases h with
  | performInput => rfl
  | outputResult hresult =>
    exact map_eq_ok.mpr ⟨_, Json.require_eq_ok.mpr hresult, rfl⟩
  | outputError herror =>
    exact map_eq_ok.mpr ⟨_, Json.require_eq_ok.mpr herror, rfl⟩
  | outputException hmember hexception =>
    exact bind_eq_ok.mpr ⟨_, Json.require_eq_ok.mpr hmember,
      bind_eq_ok.mpr ⟨_, CoreException.ofJson_eq_ok.mpr hexception, rfl⟩⟩
  | fileOpen hpath hflags =>
    exact bind_eq_ok.mpr ⟨_, Json.require_eq_ok.mpr hpath, bind_eq_ok.mpr ⟨_, rfl,
      bind_eq_ok.mpr ⟨_, OpenFlags.ofMembers_eq_ok.mpr hflags, rfl⟩⟩⟩
  | httpCall hrequest =>
    exact map_eq_ok.mpr ⟨_, HttpRequest.ofMembers_eq_ok.mpr hrequest, rfl⟩
  | @httpCallHead handle hhandle =>
    have hsmall : handle.toNat ≤ 4294967295 := Nat.le_of_lt_succ handle.toNat_lt
    refine bind_eq_ok.mpr ⟨_, Json.require_eq_ok.mpr hhandle, bind_eq_ok.mpr
      ⟨handle.toNat, (Json.expectNat_eq_ok _ _).mpr ⟨rfl, hsmall⟩, ?_⟩⟩
    exact congrArg (fun handle => Except.ok (Incoming.httpCallHead handle))
      UInt32.ofNat_toNat

end Known

theorem decode_of_read {bytes : ByteArray} {tree : Json}
    (h : Json.read .wire bytes.toList = .ok tree) :
    decode bytes = ofJson tree.normalize := by
  rw [decode, Json.ofBytes, h]
  rfl

theorem decode_of_read_error {bytes : ByteArray} {e : Json.ReadError}
    (h : Json.read .wire bytes.toList = .error e) :
    decode bytes = .error (.json e) := by
  rw [decode, Json.ofBytes, h]
  rfl

theorem ofJson_missingKind {v : Json} (h : ∀ kind, v.get? "kind" ≠ some (.str kind)) :
    ofJson v = .error .missingKind := by
  cases v with
  | obj members =>
    have hnone : ((Json.obj members).get? "kind").bind Json.asString? = none := by
      rw [Option.bind_eq_none_iff]
      intro w hw
      cases w with
      | str kind => exact absurd hw (h kind)
      | _ => rfl
    rw [ofJson, hnone]
  | _ => rfl

theorem ofJson_of_kind {v : Json} {kind : String}
    (h : v.get? "kind" = some (.str kind)) : ∃ members, v = .obj members ∧ ofJson v =
      match ofMembers kind members with
      | .ok message => .ok message
      | .error mismatch => .error (.malformed kind mismatch) := by
  cases v with
  | obj members =>
    refine ⟨members, rfl, ?_⟩
    rw [ofJson, h]
    rfl
  | _ => cases h

section Answers

variable {bytes : ByteArray} {tree : Json}
  (hread : Json.read .wire bytes.toList = .ok tree)

include hread

theorem decode_missingKind (hkind : ∀ kind, tree.last? "kind" ≠ some (.str kind)) :
    decode bytes = .error .missingKind := by
  rw [decode_of_read hread]
  exact ofJson_missingKind fun kind => tree.get?_normalize "kind" ▸ hkind kind

theorem decode_of_kind {kind : String} (hkind : tree.last? "kind" = some (.str kind)) :
    ∃ members, (Json.obj members).get? = tree.last? ∧ decode bytes =
      match ofMembers kind members with
      | .ok message => .ok message
      | .error mismatch => .error (.malformed kind mismatch) := by
  rw [← tree.get?_normalize] at hkind
  obtain ⟨members, hmembers, hjson⟩ := ofJson_of_kind hkind
  exact ⟨members, hmembers ▸ funext tree.get?_normalize,
    (decode_of_read hread).trans hjson⟩

theorem decode_unknown {kind : String} (hkind : tree.last? "kind" = some (.str kind))
    (hunknown : kind ∉ kinds) : decode bytes = .ok (.unknown kind) := by
  obtain ⟨members, -, hdecode⟩ := decode_of_kind hread hkind
  rw [hdecode, ofMembers_unknown hunknown]

theorem decode_known {m : Incoming} (hkind : tree.last? "kind" = some (.str m.kind))
    (hshape : Shape tree.last? m) : decode bytes = .ok m := by
  obtain ⟨members, hget, hdecode⟩ := decode_of_kind hread hkind
  rw [hdecode, ofMembers_of_shape (hget ▸ hshape)]

theorem decode_malformed {kind : String} (hkind : tree.last? "kind" = some (.str kind))
    (hknown : kind ∈ kinds)
    (hshape : ∀ m : Incoming, m.kind = kind → ¬ Shape tree.last? m) :
    ∃ mismatch, decode bytes = .error (.malformed kind mismatch) := by
  obtain ⟨members, hget, hdecode⟩ := decode_of_kind hread hkind
  cases hmembers : ofMembers kind members with
  | error mismatch => exact ⟨mismatch, by rw [hdecode, hmembers]⟩
  | ok m =>
    obtain ⟨hm, hshape'⟩ := shape_of_ofMembers hknown hmembers
    exact absurd (hget ▸ hshape') (hshape m hm)

end Answers

inductive Answer (bytes : ByteArray) : Except DecodeError Incoming → Prop
  | json {e : Json.ReadError} (hread : Json.read .wire bytes.toList = .error e) :
      Answer bytes (.error (.json e))
  | missingKind {tree : Json} (hread : Json.read .wire bytes.toList = .ok tree)
      (hkind : ∀ kind, tree.last? "kind" ≠ some (.str kind)) :
      Answer bytes (.error .missingKind)
  | unknown {tree : Json} {kind : String}
      (hread : Json.read .wire bytes.toList = .ok tree)
      (hkind : tree.last? "kind" = some (.str kind)) (hunknown : kind ∉ kinds) :
      Answer bytes (.ok (.unknown kind))
  | known {tree : Json} {m : Incoming} (hread : Json.read .wire bytes.toList = .ok tree)
      (hkind : tree.last? "kind" = some (.str m.kind)) (hshape : Shape tree.last? m) :
      Answer bytes (.ok m)
  | malformed {tree : Json} {kind : String} {mismatch : Mismatch}
      (hread : Json.read .wire bytes.toList = .ok tree)
      (hkind : tree.last? "kind" = some (.str kind)) (hknown : kind ∈ kinds)
      (hshape : ∀ m : Incoming, m.kind = kind → ¬ Shape tree.last? m) :
      Answer bytes (.error (.malformed kind mismatch))

theorem decode_answer (bytes : ByteArray) : Answer bytes (decode bytes) := by
  cases hread : Json.read .wire bytes.toList with
  | error e => exact decode_of_read_error hread ▸ .json hread
  | ok tree =>
    by_cases hkind : ∃ kind, tree.last? "kind" = some (.str kind)
    · obtain ⟨kind, hkind⟩ := hkind
      by_cases hknown : kind ∈ kinds
      · by_cases hshape : ∃ m : Incoming, m.kind = kind ∧ Shape tree.last? m
        · obtain ⟨m, rfl, hshape⟩ := hshape
          exact decode_known hread hkind hshape ▸ .known hread hkind hshape
        · have hnone : ∀ m : Incoming, m.kind = kind → ¬ Shape tree.last? m :=
            fun m hm hm' => hshape ⟨m, hm, hm'⟩
          obtain ⟨mismatch, hdecode⟩ := decode_malformed hread hkind hknown hnone
          exact hdecode ▸ .malformed hread hkind hknown hnone
      · exact decode_unknown hread hkind hknown ▸ .unknown hread hkind hknown
    · have hnone := not_exists.mp hkind
      exact decode_missingKind hread hnone ▸ .missingKind hread hnone

/-- What a text is decoded as: each answer with what it takes to get it. `tree` is the
document with its members as they are written. -/
structure Decodes (bytes : ByteArray) : Prop where
  json : ∀ e, decode bytes = .error (.json e) ↔ Json.read .wire bytes.toList = .error e
  missingKind : decode bytes = .error .missingKind ↔
    ∃ tree, Json.read .wire bytes.toList = .ok tree ∧ ∀ kind, tree.last? "kind" ≠
      some (.str kind)
  unknown : ∀ kind, decode bytes = .ok (.unknown kind) ↔
    ∃ tree, Json.read .wire bytes.toList = .ok tree ∧
    tree.last? "kind" = some (.str kind) ∧
      kind ∉ kinds
  known : ∀ m, m.kind ∈ kinds → (decode bytes = .ok m ↔
    ∃ tree, Json.read .wire bytes.toList = .ok tree ∧
    tree.last? "kind" = some (.str m.kind) ∧
      Shape tree.last? m)
  malformed : ∀ kind, (∃ mismatch, decode bytes = .error (.malformed kind mismatch)) ↔
    ∃ tree, Json.read .wire bytes.toList = .ok tree ∧
    tree.last? "kind" = some (.str kind) ∧
      kind ∈ kinds ∧ ∀ m, m.kind = kind → ¬ Shape tree.last? m

theorem decodes (bytes : ByteArray) : Decodes bytes where
  json e := by
    refine ⟨fun h => ?_, decode_of_read_error⟩
    have hanswer := decode_answer bytes
    rw [h] at hanswer
    cases hanswer with
    | json hread => exact hread
  missingKind := by
    refine ⟨fun h => ?_, fun ⟨_, hread, hkind⟩ => decode_missingKind hread hkind⟩
    have hanswer := decode_answer bytes
    rw [h] at hanswer
    cases hanswer with
    | missingKind hread hkind => exact ⟨_, hread, hkind⟩
  unknown kind := by
    refine ⟨fun h => ?_,
      fun ⟨_, hread, hkind, hunknown⟩ => decode_unknown hread hkind hunknown⟩
    have hanswer := decode_answer bytes
    rw [h] at hanswer
    cases hanswer with
    | unknown hread hkind hunknown => exact ⟨_, hread, hkind, hunknown⟩
    | known _ _ hshape => cases hshape
  known m hm := by
    refine ⟨fun h => ?_,
      fun ⟨_, hread, hkind, hshape⟩ => decode_known hread hkind hshape⟩
    have hanswer := decode_answer bytes
    rw [h] at hanswer
    cases hanswer with
    | unknown _ _ hunknown => exact absurd hm hunknown
    | known hread hkind hshape => exact ⟨_, hread, hkind, hshape⟩
  malformed kind := by
    refine ⟨fun ⟨_, h⟩ => ?_, fun ⟨_, hread, hkind, hknown, hshape⟩ =>
      decode_malformed hread hkind hknown hshape⟩
    have hanswer := decode_answer bytes
    rw [h] at hanswer
    cases hanswer with
    | malformed hread hkind hknown hshape => exact ⟨_, hread, hkind, hknown, hshape⟩

end Incoming

end Resumable
