/-! # JSON values -/

set_option autoImplicit false

namespace ClosureConversion

inductive Number where
  | int (value : Int)
  | float (value : Float)

inductive Json where
  | null
  | bool (value : Bool)
  | num (value : Number)
  | str (value : String)
  | arr (items : List Json)
  | obj (fields : List (String × Json))
  | unreadable

instance : Inhabited Json := ⟨.null⟩

namespace Json

def int (i : Int) : Json := .num (.int i)

def nat (n : Nat) : Json := .int (Int.ofNat n)

def ofFloat (x : Float) : Json := if x.isFinite then .num (.float x) else .null

def strings (ss : List String) : Json := .arr (ss.map .str)

/-- `null` for a missing value. -/
def option {α : Type} (f : α → Json) : Option α → Json
  | some a => f a
  | none => .null

def isNull : Json → Bool
  | .null => true
  | _ => false

/-- Of several entries for one name the last counts. -/
def lastFields (fields : List (String × Json)) : List (String × Json) :=
  fields.foldr (fun f rest => if rest.any (·.1 == f.1) then rest else f :: rest) []

mutual

/-- In every object, keep for each name the field written last. -/
def collapse : Json → Json
  | .arr items => .arr (collapseAll items)
  | .obj fields => .obj (lastFields (collapseFields fields))
  | j => j

def collapseAll : List Json → List Json
  | [] => []
  | j :: js => j.collapse :: collapseAll js

def collapseFields : List (String × Json) → List (String × Json)
  | [] => []
  | (k, j) :: rest => (k, j.collapse) :: collapseFields rest

end

mutual

/-- No part is unreadable. -/
def isReadable : Json → Bool
  | .arr items => allReadable items
  | .obj fields => allFieldsReadable fields
  | .unreadable => false
  | _ => true

def allReadable : List Json → Bool
  | [] => true
  | j :: js => j.isReadable && allReadable js

def allFieldsReadable : List (String × Json) → Bool
  | [] => true
  | (_, j) :: rest => j.isReadable && allFieldsReadable rest

end

def field? (j : Json) (name : String) : Option Json :=
  match j with
  | .obj fields => (fields.find? (·.1 == name)).map Prod.snd
  | _ => none

end Json

end ClosureConversion
