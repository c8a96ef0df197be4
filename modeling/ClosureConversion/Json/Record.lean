import ClosureConversion.Json.Basic

/-! # Reading records and variants out of JSON -/

set_option autoImplicit false

namespace ClosureConversion.Json

/-- How the parts of a variant may be written: in an object only, or also in an array. -/
inductive Strictness where
  | strict
  | lenient
  deriving Repr, DecidableEq

/-- A value inside `j`. -/
abbrev Within (j : Json) := { x : Json // sizeOf x < sizeOf j }

theorem Within.sizeOf_lt {j : Json} (x : Within j) : sizeOf x.val < sizeOf j := x.property

def Within.trans {j : Json} (x : Within j) (y : Within x.val) : Within j :=
  ⟨y.val, Nat.lt_trans y.property x.property⟩

/-- The items of an array. -/
def items? : (j : Json) → Option (List (Within j))
  | .arr items => some (items.attach.map fun x =>
      ⟨x.val, by have := List.sizeOf_lt_of_mem x.property; simp; omega⟩)
  | _ => none

theorem sizeOf_snd_lt {fields : List (String × Json)} {f : String × Json} (h : f ∈ fields) :
    sizeOf f.2 < sizeOf (Json.obj fields) := by
  have := List.sizeOf_lt_of_mem h
  obtain ⟨k, v⟩ := f
  simp only [Prod.mk.sizeOf_spec, Json.obj.sizeOf_spec] at this ⊢
  omega

/-- The fields of an object. -/
def fields? : (j : Json) → Option (List (String × Within j))
  | .obj fields => some (fields.attach.map fun x =>
      (x.val.1, ⟨x.val.2, sizeOf_snd_lt x.property⟩))
  | _ => none

/-- The name of a variant, with its content if there is one. -/
def variant? (j : Json) : Option (String × Option (Within j)) :=
  match j with
  | .str name => some (name, none)
  | j =>
    match j.fields? with
    | some [(name, content)] => some (name, some content)
    | _ => none

/-- The fields of a record found in `j`. -/
structure Record (j : Json) where
  fields : List (String × Within j)
  /-- The record was written as an array. -/
  isArray : Bool

/-- Read `j` as a record with these fields. A field of the record is written at most once,
an array has no more items than there are fields. -/
def record? (names : List String) (j : Json) : Option (Record j) :=
  match j.items? with
  | some items => if items.length ≤ names.length then some ⟨names.zip items, true⟩ else none
  | none =>
    match j.fields? with
    | some fields =>
      if names.all fun n => (fields.filter (·.1 == n)).length ≤ 1 then some ⟨fields, false⟩ else none
    | none => none

namespace Record

variable {j : Json} {α : Type}

def find? (r : Record j) (name : String) : Option (Within j) :=
  (r.fields.find? (·.1 == name)).map Prod.snd

/-- A field that must be there. -/
def required (r : Record j) (name : String) (f : Within j → Option α) : Option α :=
  (r.find? name).bind f

/-- A field that stands for `d` when it is missing. -/
def orDefault (r : Record j) (name : String) (d : α) (f : Within j → Option α) : Option α :=
  match r.find? name with
  | some x => f x
  | none => some d

/-- A field that may be missing or `null`. -/
def optional (r : Record j) (name : String) (f : Within j → Option α) : Option (Option α) :=
  match r.find? name with
  | some x => if x.val.isNull then some none else (f x).map some
  | none => some none

/-- A field that may be `null` and that an object may leave out. -/
def nullable (r : Record j) (name : String) (f : Within j → Option α) : Option (Option α) :=
  if r.isArray && (r.find? name).isNone then none else r.optional name f

/-- View a record found inside a value as found in the whole. -/
def lift {x : Within j} (r : Record x.val) : Record j :=
  ⟨r.fields.map fun f => (f.1, x.trans f.2), r.isArray⟩

end Record

namespace Within

variable {j : Json} {α : Type}

def items? (x : Within j) : Option (List (Within j)) :=
  (Json.items? x.val).map fun ys => ys.map x.trans

def fields? (x : Within j) : Option (List (String × Within j)) :=
  (Json.fields? x.val).map fun ys => ys.map fun f => (f.1, x.trans f.2)

def record? (names : List String) (x : Within j) : Option (Record j) :=
  (Json.record? names x.val).map Record.lift

/-- The fields of a variant's content. -/
def struct? (s : Strictness) (names : List String) (x : Within j) : Option (Record j) :=
  match s, x.val with
  | .strict, .arr _ => none
  | _, _ => x.record? names

/-- An array whose items are all read by `f`. -/
def list? (f : Within j → Option α) (x : Within j) : Option (List α) :=
  x.items?.bind fun items => items.mapM f

/-- `null` for a missing value. -/
def option? (f : Within j → Option α) (x : Within j) : Option (Option α) :=
  if x.val.isNull then some none else (f x).map some

end Within

/-! ## Plain values -/

def string? : Json → Option String
  | .str s => some s
  | _ => none

def bool? : Json → Option Bool
  | .bool b => some b
  | _ => none

def integer? : Json → Option Int
  | .num (.int i) => some i
  | _ => none

def int64? (j : Json) : Option Int64 :=
  j.integer?.bind fun i =>
    if Int64.minValue.toInt ≤ i ∧ i ≤ Int64.maxValue.toInt then some (Int64.ofInt i) else none

def uint32? (j : Json) : Option UInt32 :=
  j.integer?.bind fun i =>
    if 0 ≤ i ∧ i < 4294967296 then some (UInt32.ofNat i.toNat) else none

/-- An index, as wide as a machine word. -/
def index? (j : Json) : Option Nat :=
  j.integer?.bind fun i => if 0 ≤ i ∧ i < 18446744073709551616 then some i.toNat else none

/-- An integer stands for the float next to it. -/
def float? : Json → Option Float
  | .num (.float x) => some x
  | .num (.int i) =>
    some (if i < 0 then -i.natAbs.toUInt64.toFloat else i.natAbs.toUInt64.toFloat)
  | _ => none

def listOf? {α : Type} (f : Json → Option α) : Json → Option (List α)
  | .arr items => items.mapM f
  | _ => none

def strings? : Json → Option (List String) := listOf? string?

/-- A name of an enumeration, bare or with the content `null`. -/
def enum? (j : Json) : Option String :=
  match j.variant? with
  | some (name, none) => some name
  | some (name, some content) => if content.val.isNull then some name else none
  | none => none

end ClosureConversion.Json
