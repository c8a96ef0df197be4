import ClosureConversion.Ty.Basic
import ClosureConversion.Json.Record

/-! # Types as JSON -/

set_option autoImplicit false

namespace ClosureConversion

mutual

def Ty.toJson : Ty → Json
  | .none => .str "None"
  | .bool => .str "Bool"
  | .int => .str "Int"
  | .bigInt => .str "BigInt"
  | .float => .str "Float"
  | .str => .str "Str"
  | .bytes => .str "Bytes"
  | .list t => .obj [("List", t.toJson)]
  | .dict k v => .obj [("Dict", .arr [k.toJson, v.toJson])]
  | .set t => .obj [("Set", t.toJson)]
  | .tuple ts => .obj [("Tuple", .arr (Ty.allToJson ts))]
  | .record name => .obj [("Instance", .str name)]
  | .function s => .obj [("Function", s.toJson)]
  | .closure w s => .obj [("Closure", .obj [("wrapper", .str w), ("signature", s.toJson)])]
  | .union ts => .obj [("Union", .arr (Ty.allToJson ts))]
  | .unknown => .str "Unknown"

def Signature.toJson : Signature → Json
  | ⟨params, result, fallible⟩ =>
    .obj [("params", .arr (Ty.allToJson params)), ("return_type", result.toJson),
      ("fallible", .bool fallible)]

def Ty.allToJson : List Ty → List Json
  | [] => []
  | t :: ts => t.toJson :: Ty.allToJson ts

end

/-- The type without parts that has this name. -/
def Ty.plain? (name : String) : Option Ty :=
  match name with
  | "None" => some .none
  | "Bool" => some .bool
  | "Int" => some .int
  | "BigInt" => some .bigInt
  | "Float" => some .float
  | "Str" => some .str
  | "Bytes" => some .bytes
  | "Unknown" => some .unknown
  | _ => .none

mutual

def Ty.ofJson? (j : Json) : Option Ty :=
  match j.variant? with
  | .none => .none
  | some (name, .none) => Ty.plain? name
  | some (name, some x) =>
    match name with
    | "List" => (Ty.ofJson? x.val).map .list
    | "Set" => (Ty.ofJson? x.val).map .set
    | "Dict" =>
      match x.items? with
      | some [k, v] => do return .dict (← Ty.ofJson? k.val) (← Ty.ofJson? v.val)
      | _ => .none
    | "Tuple" => (x.list? fun y => Ty.ofJson? y.val).map .tuple
    | "Union" => (x.list? fun y => Ty.ofJson? y.val).map .union
    | "Instance" => x.val.string?.map .record
    | "Function" => (Signature.ofJson? x.val).map .function
    | "Closure" => do
      let r ← x.record? ["wrapper", "signature"]
      return .closure (← r.required "wrapper" (·.val.string?))
        (← r.required "signature" fun y => Signature.ofJson? y.val)
    | name => if x.val.isNull then Ty.plain? name else .none
termination_by sizeOf j
decreasing_by all_goals exact Json.Within.sizeOf_lt _

def Signature.ofJson? (j : Json) : Option Signature := do
  let r ← j.record? ["params", "return_type", "fallible"]
  return { params := ← r.required "params" fun x => x.list? fun y => Ty.ofJson? y.val
           result := ← r.required "return_type" fun x => Ty.ofJson? x.val
           fallible := ← r.required "fallible" (·.val.bool?) }
termination_by sizeOf j
decreasing_by all_goals exact Json.Within.sizeOf_lt _

end

end ClosureConversion
