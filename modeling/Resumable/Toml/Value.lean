namespace Resumable

inductive TableKind where
  /-- Defined by a header of its own, or one of an array of tables. -/
  | defined
  /-- Made on the way to a deeper table. -/
  | implied
  /-- Made by a dotted key. -/
  | dotted
  | inline
  deriving DecidableEq, Repr

inductive Toml where
  | string (text : String)
  | integer (n : Int)
  | float (text : String)
  | boolean (b : Bool)
  | datetime (text : String)
  | array (items : List Toml)
  | table (kind : TableKind) (entries : List (String × Toml))
  | tables (rows : List Toml)

abbrev TomlEntries := List (String × Toml)

namespace TomlEntries

def get? (e : TomlEntries) (key : String) : Option Toml :=
  (e.find? (·.1 == key)).map (·.2)

def replace (e : TomlEntries) (key : String) (value : Toml) : TomlEntries :=
  e.map fun entry => if entry.1 == key then (key, value) else entry

def modifyLastRow (rows : List Toml) (f : TomlEntries → Option TomlEntries) :
    Option Toml :=
  match rows.getLast? with
  | some (.table kind entries) =>
      (f entries).map fun entries => .tables (rows.dropLast ++ [.table kind entries])
  | _ => none

/-- Add a value under a dotted key: through `path` to a table that takes `key`.
`takes` says whether the table reached so far takes keys. -/
def addDotted (key : String) (value : Toml) :
    List String → Bool → TomlEntries → Option TomlEntries
  | [], takes, e =>
      if takes && (e.get? key).isNone then some (e ++ [(key, value)]) else none
  | step :: path, _, e =>
      match e.get? step with
      | none =>
          (addDotted key value path true []).map fun inner =>
            e ++ [(step, .table .dotted inner)]
      | some (.table .dotted inner) =>
          (addDotted key value path true inner).map fun inner =>
            e.replace step (.table .dotted inner)
      | some (.table .implied inner) =>
          (addDotted key value path false inner).map fun inner =>
            e.replace step (.table .implied inner)
      | some (.tables rows) =>
          (modifyLastRow rows (addDotted key value path false)).map fun v =>
            e.replace step v
      | some _ => none

/-- Go along the names of a header, making tables where there are none, and change
what is there. -/
def modifyAt (f : TomlEntries → Option TomlEntries) :
    List String → TomlEntries → Option TomlEntries
  | [], e => f e
  | step :: path, e =>
      match e.get? step with
      | none =>
          (modifyAt f path []).map fun inner => e ++ [(step, .table .implied inner)]
      | some (.table .inline _) => none
      | some (.table kind inner) =>
          (modifyAt f path inner).map fun inner => e.replace step (.table kind inner)
      | some (.tables rows) =>
          (modifyLastRow rows (modifyAt f path)).map fun v => e.replace step v
      | some _ => none

def define (key : String) (e : TomlEntries) : Option TomlEntries :=
  match e.get? key with
  | none => some (e ++ [(key, .table .defined [])])
  | some (.table .implied inner) => some (e.replace key (.table .defined inner))
  | some _ => none

def addRow (key : String) (e : TomlEntries) : Option TomlEntries :=
  match e.get? key with
  | none => some (e ++ [(key, .tables [.table .defined []])])
  | some (.tables rows) => some (e.replace key (.tables (rows ++ [.table .defined []])))
  | some _ => none

end TomlEntries

end Resumable
