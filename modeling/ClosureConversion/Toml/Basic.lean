/-! # Configuration documents -/

set_option autoImplicit false

namespace ClosureConversion

/-- How a table came to be. -/
inductive TableOrigin where
  /-- Named by a header. -/
  | header
  /-- Passed on the way to a table that a header names. -/
  | implied
  /-- Made by dotted keys. -/
  | dotted
  /-- Written between braces. -/
  | braces
  deriving Repr, DecidableEq

/-- A value. Floats and dates are read, but what they say is not kept. -/
inductive Toml where
  | string (value : String)
  | integer (value : Int)
  | float
  | moment
  | boolean (value : Bool)
  | array (items : List Toml)
  | table (origin : TableOrigin) (entries : List (String × Toml))
  /-- Tables under one header in double brackets; the last one can still grow. -/
  | tables (earlier : List Toml) (last : List (String × Toml))

namespace Toml

abbrev Entries := List (String × Toml)

def lookup? (name : String) (es : Entries) : Option Toml := (es.find? (·.1 == name)).map Prod.snd

/-- Change what `name` stands for. -/
def alter (name : String) (f : Option Toml → Option Toml) : Entries → Option Entries
  | [] => do return [(name, ← f none)]
  | e :: es =>
    if e.1 = name then do return (name, ← f (some e.2)) :: es
    else do return e :: (← alter name f es)

/-- Define `name` in the table that a dotted key leads to. -/
def assign (name : String) (value : Toml) : List String → Entries → Option Entries
  | [], es => alter name (fun old => if old.isSome then none else some value) es
  | k :: ks, es =>
    alter k (fun
      | none => (assign name value ks []).map (.table .dotted)
      | some (.table .dotted inner) => (assign name value ks inner).map (.table .dotted)
      | some (.table .implied inner) =>
        if ks.isEmpty then none else (assign name value ks inner).map (.table .implied)
      | some (.tables earlier last) =>
        if ks.isEmpty then none else (assign name value ks last).map (.tables earlier)
      | some _ => none) es

/-- Open what a header leads to; `f` says what becomes of it. -/
def openAt (f : Option Toml → Option Toml) : List String → Entries → Option Entries
  | [], _ => none
  | [k], es => alter k f es
  | k :: ks, es =>
    alter k (fun
      | none => (openAt f ks []).map (.table .implied)
      | some (.table .braces _) => none
      | some (.table origin inner) => (openAt f ks inner).map (.table origin)
      | some (.tables earlier last) => (openAt f ks last).map (.tables earlier)
      | some _ => none) es

/-- A table is named by one header at most. -/
def openTable : Option Toml → Option Toml
  | none => some (.table .header [])
  | some (.table .implied es) => some (.table .header es)
  | some _ => none

def openItem : Option Toml → Option Toml
  | none => some (.tables [] [])
  | some (.tables earlier last) => some (.tables (earlier ++ [.table .header last]) [])
  | some _ => none

/-- Change the table that the last header opened. -/
def within (f : Entries → Option Entries) : List String → Entries → Option Entries
  | [], es => f es
  | k :: ks, es =>
    alter k (fun
      | some (.table origin inner) => (within f ks inner).map (.table origin)
      | some (.tables earlier last) => (within f ks last).map (.tables earlier)
      | _ => none) es

/-- One statement of a document. -/
inductive Statement where
  | table (path : List String)
  | item (path : List String)
  | pair (path : List String) (name : String) (value : Toml)

/-- A document as far as it is read, with the header in force. -/
structure Document where
  entries : Entries := []
  header : List String := []

namespace Document

def extend? (d : Document) : Statement → Option Document
  | .table path => do return { entries := ← openAt openTable path d.entries, header := path }
  | .item path => do return { entries := ← openAt openItem path d.entries, header := path }
  | .pair path name value => do
    return { d with entries := ← within (assign name value path) d.header d.entries }

end Document

/-- The parts of a value, found by place in an array and by name in a table. A moment counts as
a table without named parts. -/
def parts? : Toml → Option (Nat → String → Option Toml)
  | .table _ es => some fun _ name => lookup? name es
  | .array items => some fun i _ => items[i]?
  | .tables earlier last => some fun i _ => (earlier ++ [.table .header last])[i]?
  | .moment => some fun _ _ => none
  | _ => none

end Toml

end ClosureConversion
