import Resumable.Config.Host
import Resumable.Proofs.Config.Documents

namespace Resumable

open Toml Environment

namespace HostConfig

variable {env : Environment} {long : Bool} {text name : String}
  {entries e : TomlEntries} {g : String → String} {fields : List String} {v : Toml}
  {c : HostConfig} {get : String → Option Toml}

def mapText (g : String → String) (c : HostConfig) : HostConfig :=
  { c with
    corePath := c.corePath.map g
    network := { c.network with userAgent := g c.network.userAgent }
    dbPath := c.dbPath.map g }

def mapLookup (g : String → String) (get : String → Option Toml) :
    String → Option Toml :=
  fun name => (get name).map (Toml.mapText g)

theorem find_zip_mapItems {items : List Toml} :
    ((fields.zip (mapItems g items)).find? (·.1 == name)).map (·.2) =
      (((fields.zip items).find? (·.1 == name)).map (·.2)).map (Toml.mapText g) := by
  rw [TomlEntries.mapItems_eq, List.zip_map_right, List.find?_map, Option.map_map,
    Option.map_map]
  rfl

theorem section_mapText :
    (v.mapText g).section? fields = (v.section? fields).map (mapLookup g) := by
  cases v with
  | table kind e =>
      rw [Toml.mapText, Toml.section?, Toml.section?, Option.map_some]
      congr 1
      funext name
      exact TomlEntries.get?_mapEntries
  | array items =>
      rw [Toml.mapText, Toml.section?, Toml.section?, Option.map_some]
      congr 1
      funext name
      exact find_zip_mapItems
  | tables rows =>
      rw [Toml.mapText, Toml.section?, Toml.section?, Option.map_some]
      congr 1
      funext name
      exact find_zip_mapItems
  | _ => rfl

theorem text_mapLookup :
    text? (mapLookup g get) name = (text? get name).map (Option.map g) := by
  rw [text?, text?, mapLookup]
  cases get name with
  | none => rfl
  | some v => cases v <;> rfl

theorem isEmpty_mapText : (v.mapText g).isEmpty = v.isEmpty := by
  cases v with
  | table kind e => cases e <;> rfl
  | array items => cases items <;> rfl
  | _ => rfl

theorem setting_mapText (hv : ∀ s, v ≠ .string s) :
    (v.mapText g).setting = v.setting := by
  cases v with
  | string s => exact absurd rfl (hv s)
  | table kind e =>
      match e with
      | [] => rfl
      | [(name, w)] =>
          simp only [Toml.mapText, mapEntries, Toml.setting, isEmpty_mapText]
      | _ :: _ :: _ => rfl
  | _ => rfl

theorem asNat_mapText {limit n : Nat} (h : v.setting.asNat? limit = some n) :
    (v.mapText g).setting.asNat? limit = some n := by
  rw [setting_mapText]
  · exact h
  · rintro s rfl
    cases h

theorem ofJson_mapText (hwide : g "wide" = "wide") (hsafe : g "safe" = "safe")
    {p : PairEncoding} (h : PairEncoding.ofJson? v.setting = some p) :
    PairEncoding.ofJson? (v.mapText g).setting = some p := by
  by_cases hstring : ∃ s, v = .string s
  · obtain ⟨s, rfl⟩ := hstring
    change PairEncoding.ofName? s = some p at h
    change PairEncoding.ofName? (g s) = some p
    have hs : g s = s := by
      rw [PairEncoding.ofName?] at h
      split at h
      · next heq => rw [heq, hwide]
      split at h
      · next heq => rw [heq, hsafe]
      · cases h
    rw [hs]
    exact h
  · rw [setting_mapText fun s hs => hstring ⟨s, hs⟩]
    exact h

theorem field_mapLookup {α : Type} {read : Json → Option α} {absent a : α}
    (hread : ∀ v a, read (Toml.setting v) = some a →
      read (v.mapText g).setting = some a)
    (h : RuntimeConfig.field? (fun name => (get name).map Toml.setting) name read
      absent = some a) :
    RuntimeConfig.field? (fun name => (mapLookup g get name).map Toml.setting) name
      read absent = some a := by
  rw [RuntimeConfig.field?] at h ⊢
  rw [mapLookup]
  cases hv : get name with
  | none =>
      rw [hv] at h
      exact h
  | some v =>
      rw [hv] at h
      exact hread v a h

theorem ofLookup_mapLookup (hwide : g "wide" = "wide") (hsafe : g "safe" = "safe")
    {largest : Nat} {r : RuntimeConfig}
    (h : RuntimeConfig.ofLookup? largest (fun name => (get name).map Toml.setting) =
      some r) : RuntimeConfig.ofLookup? largest
        (fun name => (mapLookup g get name).map Toml.setting) = some r := by
  rw [RuntimeConfig.ofLookup?] at h
  obtain ⟨flush, hflush, h⟩ := Option.bind_eq_some_iff.mp h
  obtain ⟨encoding, hencoding, h⟩ := Option.bind_eq_some_iff.mp h
  obtain ⟨addr, haddr, h⟩ := Option.bind_eq_some_iff.mp h
  obtain ⟨dataEnd, hend, h⟩ := Option.bind_eq_some_iff.mp h
  obtain ⟨message, hmessage, h⟩ := Option.bind_eq_some_iff.mp h
  obtain ⟨most, hmost, h⟩ := Option.bind_eq_some_iff.mp h
  cases h
  rw [RuntimeConfig.ofLookup?]
  simp only [field_mapLookup (fun _ _ => asNat_mapText) hflush,
    field_mapLookup (fun _ _ => ofJson_mapText hwide hsafe) hencoding,
    field_mapLookup (fun _ _ => asNat_mapText) haddr,
    field_mapLookup (fun _ _ => asNat_mapText) hend,
    field_mapLookup (fun _ _ => asNat_mapText) hmessage,
    field_mapLookup (fun _ _ => asNat_mapText) hmost]
  rfl

theorem network_mapLookup (hagent : g "corehost/0.0.0" = "corehost/0.0.0")
    {n : NetworkConfig} (h : network? get = some n) :
    network? (mapLookup g get) = some { n with userAgent := g n.userAgent } := by
  rw [network?] at h ⊢
  rw [text_mapLookup]
  obtain ⟨agent, hread, h⟩ := Option.bind_eq_some_iff.mp h
  have hdefault : (agent.map g).getD "corehost/0.0.0" =
      g (agent.getD "corehost/0.0.0") := by
    cases agent with
    | none => exact hagent.symm
    | some s => rfl
  rw [hread]
  cases hv : get "timeout_seconds" with
  | none =>
      rw [hv] at h
      cases h
      simp only [bind, Option.map_some, Option.bind_some, mapLookup, hv,
        Option.map_none, pure, hdefault]
  | some v =>
      rw [hv] at h
      obtain ⟨timeout, htimeout, h⟩ := Option.bind_eq_some_iff.mp h
      cases h
      simp only [bind, Option.map_some, Option.bind_some, mapLookup, hv, pure,
        hdefault, asNat_mapText htimeout]

theorem section_expands {α : Type} {read : (String → Option Toml) → Option α} {a b : α}
    (h : HostConfig.section? e name fields read = some a)
    (hread : ∀ get, read get = some a → read (mapLookup g get) = some b) :
    HostConfig.section? (mapEntries g e) name fields read = some b := by
  rw [HostConfig.section?] at h ⊢
  rw [TomlEntries.get?_mapEntries]
  cases hv : e.get? name with
  | none =>
      rw [hv] at h
      exact hread _ h
  | some v =>
      rw [hv] at h
      obtain ⟨get, hget, h⟩ := Option.bind_eq_some_iff.mp h
      change ((v.mapText g).section? fields).bind read = some b
      rw [section_mapText, hget]
      exact hread get h

theorem ofEntries_mapEntries (hagent : g "corehost/0.0.0" = "corehost/0.0.0")
    (hwide : g "wide" = "wide") (hsafe : g "safe" = "safe")
    (h : ofEntries? e = some c) : ofEntries? (mapEntries g e) = some (c.mapText g) := by
  rw [ofEntries?] at h
  obtain ⟨core, hcore, h⟩ := Option.bind_eq_some_iff.mp h
  obtain ⟨runtime, hruntime, h⟩ := Option.bind_eq_some_iff.mp h
  obtain ⟨network, hnetwork, h⟩ := Option.bind_eq_some_iff.mp h
  obtain ⟨db, hdb, h⟩ := Option.bind_eq_some_iff.mp h
  cases h
  have htext : ∀ {name o get}, text? get name = some o →
      text? (mapLookup g get) name = some (o.map g) := by
    intro name o get h
    rw [text_mapLookup, h]
    rfl
  rw [ofEntries?]
  simp only [section_expands hcore fun _ => htext,
    section_expands hruntime fun _ => ofLookup_mapLookup hwide hsafe,
    section_expands hnetwork fun _ => network_mapLookup hagent,
    section_expands hdb fun _ => htext]
  rfl

theorem fromUTF8_toUTF8 (text : String) : String.fromUTF8? text.toUTF8 = some text := by
  rw [String.toUTF8_eq_toByteArray, String.fromUTF8?, dif_pos text.isValidUTF8]
  exact congrArg some (String.toByteArray_inj.mp rfl)

theorem load_text (env : Environment) (text : String) :
    load env (some (.ok text.toUTF8)) =
      match (Toml.document? (env.expand text)).bind ofEntries? with
      | none => .error .parse
      | some c => .ok (some c) := by
  rw [load, fromUTF8_toUTF8]
  rfl

theorem expand_eq_self (ht : '$' ∉ text.toList) : env.expand text = text := by
  rw [expand, expandChars_eq_self ht, String.ofList_toList]

/-- Where every placeholder has a plain name and a plain value, and none is in a key,
a configuration is what is read first and has its texts expanded afterwards. No value
changes anything else, nor makes a valid file invalid. -/
theorem load_expanded (hsober : Sober env long text.toList)
    (hread : Toml.document? text = some entries)
    (hkeys : ∀ key, entries.HasKey key → env.expand key = key) :
    Toml.document? (env.expand text) = some (mapEntries env.expand entries) ∧
      (load env (some (.ok text.toUTF8)) =
        match ofEntries? (mapEntries env.expand entries) with
        | none => .error .parse
        | some c => .ok (some c)) ∧
      ∀ c, ofEntries? entries = some c →
        load env (some (.ok text.toUTF8)) = .ok (some (c.mapText env.expand)) := by
  have hexpand := Toml.document_expands hsober hread hkeys
  refine ⟨hexpand, ?_, ?_⟩
  · rw [load_text, hexpand]
    rfl
  · intro c hc
    have hsame : ∀ s : String, '$' ∉ s.toList → env.expand s = s := fun s =>
      expand_eq_self
    have hmapped :=
      ofEntries_mapEntries (hsame _ (by decide)) (hsame _ (by decide))
        (hsame _ (by decide)) hc
    rw [load_text, hexpand, Option.bind_some, hmapped]

def coreFile : String := "[core]\npath = \"$\x7bX\x7d\"\n"

def coreEntries : TomlEntries :=
  [("core", .table .defined [("path", .string "$\x7bX\x7d")])]

def corePrelude : List Char :=
  ['[', 'c', 'o', 'r', 'e', ']', '\n', 'p', 'a', 't', 'h', ' ', '=', ' ', '"']

theorem coreFile_toList : coreFile.toList = corePrelude ++ '$' :: '\x7b' ::
      (['X'] ++ '\x7d' :: ['"', '\n']) := by
  decide

theorem coreFile_read : Toml.document? coreFile = some coreEntries := by
  rw [document_eq, coreFile_toList]
  rfl

theorem coreEntries_keep {key : String} (hkey : coreEntries.HasKey key) :
    env.expand key = key := by
  have hone : ∀ {name : String} {v : Toml} {key w},
      TomlEntries.get? [(name, v)] key = some w → key = name ∧ w = v := by
    intro name v key w h
    rw [TomlEntries.get?_cons] at h
    split at h
    · next heq =>
        cases h
        exact ⟨heq.symm, rfl⟩
    · cases h
  have hname : key = "core" ∨ key = "path" := by
    rcases hkey with h | ⟨step, v, h, hv⟩
    · obtain ⟨v, hv⟩ := Option.isSome_iff_exists.mp h
      exact .inl (hone hv).1
    · obtain ⟨-, rfl⟩ := hone h
      rcases TomlEntries.hasKey_table.mp hv with h | ⟨step, v, h, hv⟩
      · obtain ⟨v, hv⟩ := Option.isSome_iff_exists.mp h
        exact .inr (hone hv).1
      · obtain ⟨-, rfl⟩ := hone h
        cases hv
  rcases hname with rfl | rfl <;>
  exact expand_eq_self (by decide)

theorem expand_coreFile {value : List Char} (hvalue : env.value ['X'] = value) :
    env.expand coreFile = String.ofList (corePrelude ++ (value ++ ['"', '\n'])) := by
  rw [expand, coreFile_toList, expandChars_append (by decide),
    expandChars_placeholder (by simp), expandChars_eq_self (by decide), hvalue]

/-- A path without anything in it that could be taken for something else. -/
def plainPath : Environment := [("X", "/core.wasm")]

theorem plainPath_sober : Sober plainPath true coreFile.toList := by
  have hplaceholder :
      Fits plainPath true ('$' :: '\x7b' :: (['X'] ++ '\x7d' :: ['"', '\n'])) := by
    apply Fits.placeholder (List.forall_mem_singleton.mpr (by decide))
    · have hvalue : plainPath.value ['X'] =
          ['/', 'c', 'o', 'r', 'e', '.', 'w', 'a', 's', 'm'] := by decide
      rw [hvalue]
      exact ⟨List.all_eq_true.mp (by decide),
        fun _ => ⟨by decide, by rintro c ⟨⟩; decide⟩⟩
    · exact .of_free (by decide)
  rw [coreFile_toList]
  exact .of_fits (.append (by decide) hplaceholder) (by decide)

theorem plainPath_loaded : Sober plainPath true coreFile.toList ∧
    load plainPath (some (.ok coreFile.toUTF8)) =
    .ok (some { corePath := some "/core.wasm" }) := by
  obtain ⟨-, -, hload⟩ := load_expanded plainPath_sober coreFile_read fun _ =>
    coreEntries_keep
  refine ⟨plainPath_sober, ?_⟩
  have hpath : plainPath.expand "$\x7bX\x7d" = "/core.wasm" := by
    have htext : "$\x7bX\x7d".toList = '$' :: '\x7b' :: (['X'] ++ ['\x7d']) := by decide
    rw [expand, htext, expandChars_placeholder (by simp), expandChars_nil]
    rfl
  have hagent : plainPath.expand "corehost/0.0.0" = "corehost/0.0.0" :=
    expand_eq_self (by decide)
  rw [hload { corePath := some "$\x7bX\x7d" } rfl]
  simp only [HostConfig.mapText, Option.map_some, Option.map_none, hpath, hagent]

/-- A path that ends the string it is put in and goes on with a section of its own. -/
def quotedPath : Environment := [("X", "a\"\n[network]\ntimeout_seconds = 1\n#")]

/-- A path with a backslash, which begins an escape that does not exist. -/
def backslashPath : Environment := [("X", "C:\\cores")]

theorem quotedPath_value : quotedPath.value ['X'] =
    ['a', '"', '\n', '[', 'n', 'e', 't', 'w', 'o', 'r', 'k', ']', '\n', 't', 'i', 'm',
      'e', 'o', 'u', 't', '_', 's', 'e', 'c', 'o', 'n', 'd', 's', ' ', '=', ' ', '1',
      '\n', '#'] := by
  decide

/-- With a quote in its value a variable that is named in the path of the core sets
the timeout too, and with a backslash it makes the file invalid. -/
theorem value_leaves_string :
    Toml.document? coreFile = some coreEntries ∧
    (∃ c, ofEntries? (mapEntries quotedPath.expand coreEntries) = some c ∧
      c.network.timeoutSeconds = 30) ∧
    (∃ c, load quotedPath (some (.ok coreFile.toUTF8)) = .ok (some c) ∧
      c.corePath = some "a" ∧ c.network.timeoutSeconds = 1) ∧
    (∃ c, ofEntries? (mapEntries backslashPath.expand coreEntries) = some c) ∧
    load backslashPath (some (.ok coreFile.toUTF8)) = .error .parse := by
  refine ⟨coreFile_read, ⟨_, rfl, rfl⟩, ?_, ⟨_, rfl⟩, ?_⟩
  · rw [load_text, expand_coreFile quotedPath_value, document_eq, String.toList_ofList]
    exact ⟨_, rfl, rfl, rfl⟩
  · have hvalue : backslashPath.value ['X'] =
        ['C', ':', '\\', 'c', 'o', 'r', 'e', 's'] := by decide
    rw [load_text, expand_coreFile hvalue, document_eq, String.toList_ofList]
    rfl

end HostConfig

end Resumable
