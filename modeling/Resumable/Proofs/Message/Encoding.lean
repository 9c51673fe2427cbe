import Resumable.Message.Outgoing
import Resumable.Proofs.Json.Injective
import Resumable.Proofs.Message.Reference

namespace Resumable

namespace ReplyErrorCode

theorem name_injective : Function.Injective name := by
  have hmem (c : ReplyErrorCode) : c ∈ all := by cases c <;> decide
  have hnodup : (all.map name).Nodup := by decide
  intro c d h
  exact List.inj_on_of_nodup_map hnodup (hmem c) (hmem d) h

end ReplyErrorCode

namespace Headers

theorem kept_toJson (room : Nat) (h : Headers) : h.toJson.Kept (room + 2) := by
  refine .object fun m hm => ?_
  obtain ⟨entry, -, rfl⟩ := List.mem_map.mp hm
  refine .arr fun v hv => ?_
  obtain ⟨s, -, rfl⟩ := List.mem_map.mp hv
  exact .str s

theorem toJson_of_sorted {h : Headers} (hh : h.Pairwise fun a b => a.1 < b.1) :
    h.toJson = .obj (h.map fun entry => (entry.1, .arr (entry.2.map .str))) :=
  Json.object_of_ascending (List.pairwise_map.mpr hh)

/-- Headers that are sorted by name are told from their object. -/
theorem eq_of_toJson {h k : Headers} (hh : h.Pairwise fun a b => a.1 < b.1)
    (hk : k.Pairwise fun a b => a.1 < b.1) (heq : h.toJson = k.toJson) : h = k := by
  have hentry : Function.Injective fun e : String × List String =>
      (e.1, Json.arr (e.2.map .str)) := by
    rintro ⟨name, values⟩ ⟨name', values'⟩ he
    obtain ⟨hname, hvalues⟩ := Prod.mk.inj he
    exact Prod.ext hname
      (List.map_injective_iff.mpr (fun _ _ hs => Json.str.inj hs)
        (Json.arr.inj hvalues))
  rw [toJson_of_sorted hh, toJson_of_sorted hk] at heq
  exact List.map_injective_iff.mpr hentry (Json.obj.inj heq)

end Headers

namespace Outgoing

def values : Outgoing → List Json
  | .performInput request => [request.input, request.parameters, request.security]
  | _ => []

/-- A status has 16 bits, and headers are sorted by name, each once. -/
def WellFormed : Outgoing → Prop
  | .httpHead status headers _ => status < 65536 ∧ headers.Pairwise fun a b => a.1 < b.1
  | _ => True

theorem kept_word (room : Nat) (n : UInt32) : (word n).Kept room :=
  .nat (Nat.lt_trans n.toNat_lt (by decide))

theorem word_injective : Function.Injective word := by
  intro m n h
  exact UInt32.toNat_inj.mp (Int.ofNat.inj (Json.int.inj h))

/-- The object of a reply is kept if the values that it carries are. -/
theorem kept_toJson {room : Nat} {reply : Outgoing} (hformed : reply.WellFormed)
    (hvalues : ∀ v ∈ reply.values, v.Kept (room + 2)) :
    reply.toJson.Kept (room + 3) := by
  cases reply with
  | performInput request =>
    simp only [values, List.forall_mem_cons] at hvalues
    obtain ⟨hinput, hparameters, hsecurity, -⟩ := hvalues
    refine .object ?_
    simp only [List.forall_mem_cons]
    exact ⟨.str _, .str _, .str _, .str _, .str _, hinput, hparameters,
      hsecurity, nofun⟩
  | stored => exact .object (by simpa using Json.Kept.str _)
  | fileOpened stream =>
      exact .object (by simpa using ⟨Json.Kept.str _, kept_word _ stream⟩)
  | httpCalled handle =>
      exact .object (by simpa using ⟨Json.Kept.str _, kept_word _ handle⟩)
  | httpHead status headers bodyStream =>
    refine .object ?_
    simp only [List.forall_mem_cons]
    exact ⟨.str _, .nat (Nat.lt_trans hformed.1 (by decide)), headers.kept_toJson room,
      kept_word _ bodyStream, nofun⟩
  | error code message errno =>
    cases errno with
    | none =>
        exact .object
          (by simpa using ⟨Json.Kept.str _, Json.Kept.str _, Json.Kept.str _⟩)
    | some errno =>
      exact .object
        (by simpa using
          ⟨Json.Kept.str _, Json.Kept.str _, Json.Kept.str _, kept_word _ errno⟩)

theorem fromUTF8?_encode (reply : Outgoing) :
    String.fromUTF8? reply.encode = some reply.toJson.text := by
  have hvalid := reply.toJson.text.isValidUTF8
  rw [encode, Json.bytes, String.toUTF8_eq_toByteArray, String.fromUTF8?,
    dif_pos hvalid]
  exact congrArg some (String.toByteArray_inj.mp rfl)

theorem ofBytes_encode {reply : Outgoing} (hformed : reply.WellFormed)
    (hvalues : ∀ v ∈ reply.values, v.Kept 126) :
    Json.ofBytes reply.encode.toList = .ok reply.toJson :=
  (@kept_toJson 124 reply hformed hvalues).ofBytes

def members : Outgoing → List (String × Json)
  | .performInput request =>
      [("kind", .str "ok"), ("map_input", request.input),
       ("map_parameters", request.parameters), ("map_security", request.security),
       ("map_url", .str request.mapUrl), ("profile_url", .str request.profileUrl),
       ("provider_url", .str request.providerUrl),
       ("usecase", .str request.usecase)]
  | .stored => [("kind", .str "ok")]
  | .fileOpened stream => [("kind", .str "ok"), ("stream", word stream)]
  | .httpCalled handle => [("handle", word handle), ("kind", .str "ok")]
  | .httpHead status headers bodyStream =>
      [("body_stream", word bodyStream), ("headers", headers.toJson),
       ("kind", .str "ok"), ("status", .int status)]
  | .error code message none =>
      [("error_code", .str code.name), ("kind", .str "err"), ("message", .str message)]
  | .error code message (some errno) =>
      [("errno", word errno), ("error_code", .str code.name), ("kind", .str "err"),
       ("message", .str message)]

theorem toJson_eq_obj (reply : Outgoing) : reply.toJson = .obj reply.members := by
  rcases reply with _ | _ | _ | _ | _ | ⟨code, message, _ | errno⟩ <;>
  simp only [toJson, members, Json.object, List.cons_append, List.nil_append,
    List.foldl_cons, List.foldl_nil, Json.insertMember, String.reduceLT,
    String.reduceEq, reduceIte]

theorem eq_of_members {r r' : Outgoing} (hr : r.WellFormed) (hr' : r'.WellFormed)
    (h : r.members = r'.members) : r = r' := by
  -- Replies of different kinds differ in their keys.
  rcases r with request | _ | stream | handle | ⟨status, headers, body⟩
    | ⟨code, message, _ | errno⟩ <;>
  rcases r' with request' | _ | stream' | handle' | ⟨status', headers', body'⟩
    | ⟨code', message', _ | errno'⟩ <;>
  simp only [members, List.cons.injEq, Prod.mk.injEq, Json.str.injEq, String.reduceEq,
    false_and, and_false, true_and, and_true, reduceCtorEq] at h ⊢
  case performInput.performInput =>
    obtain ⟨hinput, hparameters, hsecurity, hmap, hprofile, hprovider, husecase⟩ := h
    cases request
    cases request'
    simp_all only
  case fileOpened.fileOpened => rw [word_injective h]
  case httpCalled.httpCalled => rw [word_injective h]
  case httpHead.httpHead =>
    obtain ⟨hbody, hheaders, hstatus⟩ := h
    rw [word_injective hbody, Headers.eq_of_toJson hr.2 hr'.2 hheaders,
      Int.ofNat.inj (Json.int.inj hstatus)]
  case error.none.error.none => rw [ReplyErrorCode.name_injective h.1, h.2]
  case error.some.error.some =>
    rw [word_injective h.1, ReplyErrorCode.name_injective h.2.1, h.2.2]

theorem toJson_injective {r r' : Outgoing} (hr : r.WellFormed) (hr' : r'.WellFormed)
    (h : r.toJson = r'.toJson) : r = r' := by
  rw [toJson_eq_obj, toJson_eq_obj] at h
  exact eq_of_members hr hr' (Json.obj.inj h)

theorem eq_of_encode {r r' : Outgoing} (hr : r.WellFormed) (hr' : r'.WellFormed)
    (h : r.encode = r'.encode) : r = r' :=
  toJson_injective hr hr' (Json.bytes_injective h)

end Outgoing

namespace Incoming

def inputMessage : ByteArray := "\x7b\"kind\":\"perform-input\"\x7d".toUTF8

def resultPrelude : String := "\x7b\"kind\":\"perform-output-result\",\"result\":"

/-- A text between the parts of a message that reports it as the result. -/
def resultMessage (text : ByteArray) : ByteArray :=
  resultPrelude.toUTF8 ++ text ++ "\x7d".toUTF8

theorem inputMessage_eq : inputMessage = (Json.obj (members .performInput)).bytes := by
  have htext : "\x7b\"kind\":\"perform-input\"\x7d" =
      (Json.obj (members .performInput)).text := by
    decide
  rw [inputMessage, htext, Json.bytes]

theorem resultMessage_bytes (v : Json) :
    resultMessage v.bytes = (Json.obj (members (.outputResult v))).bytes := by
  have htext : resultPrelude ++ v.text ++ "\x7d" =
      (Json.obj (members (.outputResult v))).text := by
    refine String.toList_inj.mp ?_
    simp only [String.toList_append, Json.text, String.toList_ofList]
    rfl
  rw [Json.bytes, Json.bytes, ← htext]
  simp only [resultMessage, String.toUTF8_eq_toByteArray, String.toByteArray_append]

theorem decode_members {m : Incoming} (hm : m.Documented) :
    decode (Json.obj m.members).bytes = .ok m := by
  have hextends : Extends m [] m.members := ⟨by simp, by simp, by simp, by simp⟩
  exact decode_document hm hextends

theorem decode_inputMessage : decode inputMessage = .ok .performInput := by
  rw [inputMessage_eq]
  exact decode_members trivial

theorem decode_resultMessage {v : Json} (h : v.Kept 126) :
    decode (resultMessage v.bytes) = .ok (.outputResult v) := by
  rw [resultMessage_bytes]
  exact decode_members h

theorem size_inputMessage : inputMessage.size = 24 := by decide +kernel

theorem size_resultMessage (text : ByteArray) :
    (resultMessage text).size = text.size + 42 := by
  have hprelude : resultPrelude.toUTF8.size = 41 := by decide +kernel
  have hend : "\x7d".toUTF8.size = 1 := by decide +kernel
  rw [resultMessage, ByteArray.size_append, ByteArray.size_append, hprelude, hend]
  omega

theorem size_inputMessage_le (text : ByteArray) :
    inputMessage.size ≤ (resultMessage text).size := by
  rw [size_inputMessage, size_resultMessage]
  omega

end Incoming

end Resumable
