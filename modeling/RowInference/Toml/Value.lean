/-! # TOML documents

A document is a tree of tables. A table remembers how it came to be, because that decides whether a later line may
add to it: a table may be opened by a header once, dotted keys may only add to tables made by dotted keys, and an
inline table is complete where it stands.
-/

namespace RowInference.Toml

/-- How a table came to be. -/
inductive Origin where
  /-- By a header of its own. -/
  | header
  /-- As part of a longer header. -/
  | implied
  /-- As part of a dotted key. -/
  | dotted
  /-- As an inline table. -/
  | closed
deriving DecidableEq, Repr

/-- A TOML value. Floats and dates are kept as they are written. -/
inductive Value where
  | string (text : String)
  | integer (value : Int)
  | float (text : String)
  | boolean (value : Bool)
  | datetime (text : String)
  | array (items : List Value)
  | table (origin : Origin) (entries : List (String × Value))
  /-- The tables of an array of tables, each opened by a header. -/
  | tables (items : List (List (String × Value)))

/-- The keys of a table with their values. -/
abbrev Entries := List (String × Value)

namespace Entries

def replace (key : String) (value : Value) (entries : Entries) : Entries :=
  entries.map fun entry => if entry.1 = key then (key, value) else entry

def add? (key : String) (value : Value) (entries : Entries) : Option Entries :=
  match entries.lookup key with
  | none => some (entries ++ [(key, value)])
  | some _ => none

/-- Add a value under a dotted key: `path` leads to the table, which has to be made by dotted keys itself. -/
def insert? (key : String) (value : Value) : List String → Entries → Option Entries
  | [], entries => entries.add? key value
  | step :: path, entries =>
    match entries.lookup step with
    | none => do
      let inner ← insert? key value path []
      some (entries ++ [(step, .table .dotted inner)])
    | some (.table .dotted inner) => do
      let inner ← insert? key value path inner
      some (entries.replace step (.table .dotted inner))
    | some (.table .implied inner) =>
      if path.isEmpty then none
      else do
        let inner ← insert? key value path inner
        some (entries.replace step (.table .implied inner))
    | some (.tables items) =>
      match path.isEmpty, items.reverse with
      | false, last :: before => do
        let last ← insert? key value path last
        some (entries.replace step (.tables (last :: before).reverse))
      | _, _ => none
    | some _ => none

/-- Change the table that a header's path leads to, and make the tables on the way that are not there yet. A step
to an array of tables goes to its last table. -/
def modify? (change : Entries → Option Entries) : List String → Entries → Option Entries
  | [], entries => change entries
  | step :: path, entries =>
    match entries.lookup step with
    | none => do
      let inner ← modify? change path []
      some (entries ++ [(step, .table .implied inner)])
    | some (.table .closed _) => none
    | some (.table origin inner) => do
      let inner ← modify? change path inner
      some (entries.replace step (.table origin inner))
    | some (.tables items) =>
      match items.reverse with
      | last :: before => do
        let last ← modify? change path last
        some (entries.replace step (.tables (last :: before).reverse))
      | [] => none
    | some _ => none

/-- Open a table under a key by a header. -/
def openTable? (key : String) (entries : Entries) : Option Entries :=
  match entries.lookup key with
  | none => some (entries ++ [(key, .table .header [])])
  | some (.table .implied inner) => some (entries.replace key (.table .header inner))
  | some _ => none

/-- Open another table of an array of tables under a key. -/
def openNext? (key : String) (entries : Entries) : Option Entries :=
  match entries.lookup key with
  | none => some (entries ++ [(key, .tables [[]])])
  | some (.tables items) => some (entries.replace key (.tables (items ++ [[]])))
  | some _ => none

end Entries

structure Document where
  root : Entries := []
  header : List String := []

namespace Document

def insert? (document : Document) (path : List String) (key : String) (value : Value) : Option Document := do
  let root ← document.root.modify? (fun entries => entries.insert? key value path) document.header
  some { document with root }

def openTable? (document : Document) (path : List String) (key : String) : Option Document := do
  let root ← document.root.modify? (fun entries => entries.openTable? key) path
  some ⟨root, path ++ [key]⟩

def openNext? (document : Document) (path : List String) (key : String) : Option Document := do
  let root ← document.root.modify? (fun entries => entries.openNext? key) path
  some ⟨root, path ++ [key]⟩

end Document

end RowInference.Toml
