import Resumable.Toml.Value

namespace Resumable

namespace Toml

mutual

/-- Change every text of a value; names stay as they are. -/
def mapText (g : String → String) : Toml → Toml
  | .string text => .string (g text)
  | .integer n => .integer n
  | .float text => .float text
  | .boolean b => .boolean b
  | .datetime text => .datetime text
  | .array items => .array (mapItems g items)
  | .table kind entries => .table kind (mapEntries g entries)
  | .tables rows => .tables (mapItems g rows)

def mapItems (g : String → String) : List Toml → List Toml
  | [] => []
  | v :: rest => mapText g v :: mapItems g rest

def mapEntries (g : String → String) : List (String × Toml) → List (String × Toml)
  | [] => []
  | (name, v) :: rest => (name, mapText g v) :: mapEntries g rest

end

/-- A name that can be come to from a value by looking up names in its tables. -/
inductive HasKey (key : String) : Toml → Prop where
  | name {kind : TableKind} {e : TomlEntries} (h : (e.get? key).isSome) :
      HasKey key (.table kind e)
  | field {kind : TableKind} {e : TomlEntries} {step : String} {v : Toml}
      (h : e.get? step = some v) (hv : HasKey key v) : HasKey key (.table kind e)
  | item {items : List Toml} {v : Toml} (h : v ∈ items) (hv : HasKey key v) :
      HasKey key (.array items)
  | row {rows : List Toml} {v : Toml} (h : v ∈ rows) (hv : HasKey key v) :
      HasKey key (.tables rows)

end Toml

open Toml

namespace TomlEntries

variable {e e' : TomlEntries} {key name step : String} {v w : Toml}
  {path : List String} {rows : List Toml} {g : String → String} {kind : TableKind}
  {takes : Bool} {f : TomlEntries → Option TomlEntries} {P : String → Prop}

def HasKey (e : TomlEntries) (key : String) : Prop :=
  (e.get? key).isSome ∨ ∃ step v, e.get? step = some v ∧ Toml.HasKey key v

theorem hasKey_table : Toml.HasKey key (.table kind e) ↔ HasKey e key := by
  constructor
  · intro h
    cases h with
    | name h => exact .inl h
    | field h hv => exact .inr ⟨_, _, h, hv⟩
  · rintro (h | ⟨step, v, h, hv⟩)
    · exact .name h
    · exact .field h hv

theorem get?_append : get? (e ++ [(step, v)]) key =
    (e.get? key).or (if step = key then some v else none) := by
  unfold get?
  rw [List.find?_append]
  cases e.find? (·.1 == key) with
  | some _ => rfl
  | none =>
      by_cases h : step = key
      · simp [h]
      · simp [h]

theorem get?_cons :
    get? ((name, v) :: e) key = if name = key then some v else get? e key := by
  unfold get?
  by_cases h : name = key
  · simp [h]
  · simp [h]

theorem get?_replace :
    get? (e.replace step v) key = if key = step then (e.get? key).map (fun _ => v)
      else e.get? key := by
  induction e with
  | nil => simp [get?, replace]
  | cons entry e ih =>
      obtain ⟨name, w⟩ := entry
      have hcons : replace ((name, w) :: e) step v =
          (if name = step then (step, v) else (name, w)) :: replace e step v := by
        simp [replace]
      rw [hcons]
      by_cases hname : name = step
      · subst hname
        rw [if_pos rfl, get?_cons, get?_cons, ih]
        by_cases hkey : key = name
        · simp [hkey]
        · simp [hkey, Ne.symm hkey]
      · rw [if_neg hname, get?_cons, get?_cons, ih]
        by_cases hkey : key = step
        · subst hkey
          simp [hname]
        · simp [hkey]

theorem hasKey_append (hnew : e.get? step = none)
    (h : HasKey e key ∨ key = step ∨ v.HasKey key) : HasKey (e ++ [(step, v)]) key := by
  have hstep : get? (e ++ [(step, v)]) step = some v := by
    rw [get?_append, hnew]
    simp
  have hold : ∀ {k w}, get? e k = some w → get? (e ++ [(step, v)]) k = some w := by
    intro k w hk
    rw [get?_append, hk]
    rfl
  rcases h with (h | ⟨k, w, hk, hw⟩) | rfl | hv
  · obtain ⟨w, hw⟩ := Option.isSome_iff_exists.mp h
    exact .inl (by rw [hold hw]; rfl)
  · exact .inr ⟨k, w, hold hk, hw⟩
  · exact .inl (by rw [hstep]; rfl)
  · exact .inr ⟨step, v, hstep, hv⟩

theorem hasKey_replace (hold : e.get? step = some w)
    (hgrow : ∀ key, w.HasKey key → v.HasKey key)
    (h : HasKey e key ∨ key = step ∨ v.HasKey key) : HasKey (e.replace step v) key := by
  have hstep : get? (e.replace step v) step = some v := by
    rw [get?_replace, if_pos rfl, hold]
    rfl
  rcases h with (h | ⟨k, u, hk, hu⟩) | rfl | hv
  · left
    rw [get?_replace]
    split
    · simpa using h
    · exact h
  · by_cases hsame : k = step
    · subst hsame
      rw [hold] at hk
      cases hk
      exact .inr ⟨k, v, hstep, hgrow key hu⟩
    · exact .inr ⟨k, u, by rw [get?_replace, if_neg hsame, hk], hu⟩
  · exact .inl (by rw [hstep]; rfl)
  · exact .inr ⟨step, v, hstep, hv⟩

/-- A change keeps the names of the entries that it changes, and brings some with it. -/
def Grows (P : String → Prop) (f : TomlEntries → Option TomlEntries) : Prop :=
  ∀ e e', f e = some e' → ∀ key, HasKey e key ∨ P key → HasKey e' key

theorem Grows.into_new (hf : Grows P f) (hnew : e.get? step = none)
    (h : (f []).map (fun inner => e ++ [(step, .table kind inner)]) = some e')
    (hkey : HasKey e key ∨ key = step ∨ P key) : HasKey e' key := by
  obtain ⟨inner, hinner, rfl⟩ := Option.map_eq_some_iff.mp h
  apply hasKey_append hnew
  rcases hkey with hkey | hkey | hkey
  · exact .inl hkey
  · exact .inr (.inl hkey)
  · exact .inr (.inr (hasKey_table.mpr (hf [] inner hinner key (.inr hkey))))

theorem Grows.into_table (hf : Grows P f) {inner : TomlEntries} {kind' : TableKind}
    (hold : e.get? step = some (.table kind inner))
    (h : (f inner).map (fun inner => e.replace step (.table kind' inner)) = some e')
    (hkey : HasKey e key ∨ key = step ∨ P key) : HasKey e' key := by
  obtain ⟨inner', hinner, rfl⟩ := Option.map_eq_some_iff.mp h
  apply hasKey_replace hold
  · intro k hk
    exact hasKey_table.mpr (hf inner inner' hinner k (.inl (hasKey_table.mp hk)))
  · rcases hkey with hkey | hkey | hkey
    · exact .inl hkey
    · exact .inr (.inl hkey)
    · exact .inr (.inr (hasKey_table.mpr (hf inner inner' hinner key (.inr hkey))))

theorem Grows.last_row (hf : Grows P f) (h : modifyLastRow rows f = some v)
    (hkey : Toml.HasKey key (.tables rows) ∨ P key) : v.HasKey key := by
  unfold modifyLastRow at h
  split at h
  · next kind inner hlast =>
      obtain ⟨inner', hinner, rfl⟩ := Option.map_eq_some_iff.mp h
      have hrow : Toml.table kind inner' ∈ rows.dropLast ++ [.table kind inner'] :=
        List.mem_append_right _ (List.mem_singleton_self _)
      rcases hkey with hkey | hkey
      · cases hkey with
        | @row _ w hw hwkey =>
            obtain ⟨front, rfl⟩ := List.getLast?_eq_some_iff.mp hlast
            rw [List.mem_append, List.mem_singleton] at hw
            rcases hw with hw | rfl
            · exact .row (List.mem_append_left _ (by simpa using hw)) hwkey
            · exact .row hrow
                (hasKey_table.mpr
                  (hf inner inner' hinner key (.inl (hasKey_table.mp hwkey))))
      · exact .row hrow (hasKey_table.mpr (hf inner inner' hinner key (.inr hkey)))
  · cases h

theorem Grows.into_rows (hf : Grows P f) (hold : e.get? step = some (.tables rows))
    (h : (modifyLastRow rows f).map (fun v => e.replace step v) = some e')
    (hkey : HasKey e key ∨ key = step ∨ P key) : HasKey e' key := by
  obtain ⟨v, hv, rfl⟩ := Option.map_eq_some_iff.mp h
  apply hasKey_replace hold
  · intro k hk
    exact hf.last_row hv (.inl hk)
  · rcases hkey with hkey | hkey | hkey
    · exact .inl hkey
    · exact .inr (.inl hkey)
    · exact .inr (.inr (hf.last_row hv (.inr hkey)))

theorem grows_addDotted :
    Grows (fun key => key ∈ path ∨ key = name ∨ v.HasKey key)
      (addDotted name v path takes) := by
  induction path generalizing takes with
  | nil =>
      intro e e' h key hkey
      rw [addDotted] at h
      split at h
      · next hfree =>
          cases h
          rw [Bool.and_eq_true] at hfree
          apply hasKey_append (Option.isNone_iff_eq_none.mp hfree.2)
          simpa using hkey
      · cases h
  | cons step path ih =>
      intro e e' h key hkey
      have hkey' : HasKey e key ∨ key = step ∨ key ∈ path ∨ key = name ∨
          v.HasKey key := by
        simpa [or_assoc] using hkey
      rw [addDotted] at h
      split at h
      · next hnew => exact ih.into_new hnew h hkey'
      · next hold => exact ih.into_table hold h hkey'
      · next hold => exact ih.into_table hold h hkey'
      · next hold => exact ih.into_rows hold h hkey'
      · cases h

theorem grows_modifyAt (hf : Grows P f) :
    Grows (fun key => key ∈ path ∨ P key) (modifyAt f path) := by
  induction path with
  | nil =>
      intro e e' h key hkey
      exact hf e e' h key (by simpa using hkey)
  | cons step path ih =>
      intro e e' h key hkey
      have hkey' : HasKey e key ∨ key = step ∨ key ∈ path ∨ P key := by
        simpa [or_assoc] using hkey
      rw [modifyAt] at h
      split at h
      · next hnew => exact ih.into_new hnew h hkey'
      · cases h
      · next hold => exact ih.into_table hold h hkey'
      · next hold => exact ih.into_rows hold h hkey'
      · cases h

theorem grows_define : Grows (· = name) (define name) := by
  intro e e' h key hkey
  have hkey' : ∀ v : Toml, HasKey e key ∨ key = name ∨ v.HasKey key := fun v =>
    hkey.imp_right .inl
  rw [define] at h
  split at h
  · next hnew =>
      cases h
      exact hasKey_append hnew (hkey' _)
  · next hold =>
      cases h
      exact hasKey_replace hold (fun k hk => hasKey_table.mpr (hasKey_table.mp hk))
        (hkey' _)
  · cases h

theorem grows_addRow : Grows (· = name) (addRow name) := by
  intro e e' h key hkey
  have hkey' : ∀ v : Toml, HasKey e key ∨ key = name ∨ v.HasKey key := fun v =>
    hkey.imp_right .inl
  rw [addRow] at h
  split at h
  · next hnew =>
      cases h
      exact hasKey_append hnew (hkey' _)
  · next hold =>
      cases h
      apply hasKey_replace hold _ (hkey' _)
      intro k hk
      cases hk with
      | row hw hwkey => exact .row (List.mem_append_left _ hw) hwkey
  · cases h

theorem mapItems_eq : mapItems g rows = rows.map (mapText g) := by
  induction rows with
  | nil => rfl
  | cons v rows ih => rw [mapItems, ih, List.map_cons]

theorem mapEntries_eq :
    mapEntries g e = e.map fun entry => (entry.1, entry.2.mapText g) := by
  induction e with
  | nil => rfl
  | cons entry e ih => rw [mapEntries, ih, List.map_cons]

theorem mapEntries_append :
    mapEntries g (e ++ e') = mapEntries g e ++ mapEntries g e' := by
  simp [mapEntries_eq]

theorem get?_mapEntries : get? (mapEntries g e) key = (get? e key).map (mapText g) := by
  induction e with
  | nil => rfl
  | cons entry e ih =>
      rw [mapEntries, get?_cons, get?_cons, ih]
      split <;> rfl

theorem mapEntries_replace :
    mapEntries g (e.replace step v) = replace (mapEntries g e) step (v.mapText g) := by
  rw [mapEntries_eq, mapEntries_eq, replace, replace, List.map_map, List.map_map]
  apply List.map_congr_left
  intro entry _
  dsimp only [Function.comp_apply]
  split <;> rfl

/-- Changing texts before is changing them afterwards. -/
def Natural (g : String → String) (f f' : TomlEntries → Option TomlEntries) : Prop :=
  ∀ e : TomlEntries, f' (mapEntries g e) = (f e).map (mapEntries g)

variable {f' : TomlEntries → Option TomlEntries}

theorem Natural.eq_some (hf : Natural g f f') (h : f e = some e') :
    f' (mapEntries g e) = some (mapEntries g e') := by
  rw [hf, h]
  rfl

theorem Natural.into_new (hf : Natural g f f') :
    (f' []).map (fun inner => mapEntries g e ++ [(step, .table kind inner)]) =
      ((f []).map fun inner => e ++ [(step, .table kind inner)]).map
        (mapEntries g) := by
  have hnil : f' [] = (f []).map (mapEntries g) := hf []
  rw [hnil, Option.map_map, Option.map_map]
  congr 1
  funext inner
  simp [mapEntries_append, mapEntries, mapText]

theorem Natural.into_table (hf : Natural g f f') {inner : TomlEntries} :
    (f' (mapEntries g inner)).map (fun inner => replace (mapEntries g e) step
      (.table kind inner)) =
        ((f inner).map fun inner => e.replace step (.table kind inner)).map
          (mapEntries g) := by
  rw [hf, Option.map_map, Option.map_map]
  congr 1
  funext inner
  simp [mapEntries_replace, mapText]

theorem Natural.last_row (hf : Natural g f f') :
    modifyLastRow (mapItems g rows) f' = (modifyLastRow rows f).map (mapText g) := by
  unfold modifyLastRow
  rw [mapItems_eq, List.getLast?_map]
  cases hlast : rows.getLast? with
  | none => rfl
  | some v =>
      cases v with
      | table kind inner =>
          simp only [Option.map_some, mapText, hf inner, Option.map_map]
          congr 1
          funext inner
          simp [mapText, mapItems_eq, List.map_dropLast]
      | _ => rfl

theorem Natural.into_rows (hf : Natural g f f') :
    (modifyLastRow (mapItems g rows) f').map
      (fun v => replace (mapEntries g e) step v) =
      ((modifyLastRow rows f).map fun v => e.replace step v).map (mapEntries g) := by
  rw [hf.last_row, Option.map_map, Option.map_map]
  congr 1
  funext v
  exact mapEntries_replace.symm

theorem natural_addDotted :
    Natural g (addDotted name v path takes)
      (addDotted name (v.mapText g) path takes) := by
  induction path generalizing takes with
  | nil =>
      intro e
      rw [addDotted, addDotted, get?_mapEntries, Option.isNone_map]
      split
      · simp [mapEntries_append, mapEntries]
      · rfl
  | cons step path ih =>
      intro e
      rw [addDotted, addDotted, get?_mapEntries]
      cases e.get? step with
      | none => exact ih.into_new
      | some w =>
          cases w with
          | table kind inner =>
              cases kind with
              | dotted => exact ih.into_table
              | implied => exact ih.into_table
              | defined => rfl
              | inline => rfl
          | tables rows => exact ih.into_rows
          | _ => rfl

theorem natural_modifyAt (hf : Natural g f f') :
    Natural g (modifyAt f path) (modifyAt f' path) := by
  induction path with
  | nil => exact hf
  | cons step path ih =>
      intro e
      rw [modifyAt, modifyAt, get?_mapEntries]
      cases e.get? step with
      | none => exact ih.into_new
      | some w =>
          cases w with
          | table kind inner =>
              cases kind with
              | inline => rfl
              | _ => exact ih.into_table
          | tables rows => exact ih.into_rows
          | _ => rfl

theorem natural_define : Natural g (define name) (define name) := by
  intro e
  rw [define, define, get?_mapEntries]
  cases e.get? name with
  | none => simp [mapEntries_append, mapEntries, mapText]
  | some w =>
      cases w with
      | table kind inner =>
          cases kind with
          | implied => simp [mapText, mapEntries_replace]
          | _ => rfl
      | _ => rfl

theorem natural_addRow : Natural g (addRow name) (addRow name) := by
  intro e
  rw [addRow, addRow, get?_mapEntries]
  cases e.get? name with
  | none => simp [mapEntries_append, mapEntries, mapItems, mapText]
  | some w =>
      cases w with
      | tables rows => simp [mapText, mapItems_eq, mapEntries_replace, mapEntries]
      | _ => rfl

end TomlEntries

end Resumable
