import ClosureConversion.Ty.Basic

/-! # Spelling types -/

set_option autoImplicit false

namespace ClosureConversion

/-- Target spelling of the tagged union that carries any data. -/
def dynamicValue : String := "runtime.Value"

namespace Ty

mutual

def target : Ty → String
  | .none => "void"
  | .bool => "bool"
  | .int => "i64"
  | .bigInt => "runtime.BigInt"
  | .float => "f64"
  | .str | .bytes => "[]const u8"
  | .list t => "*runtime.List(" ++ t.target ++ ")"
  | .dict k v => "*runtime.Dict(" ++ k.target ++ ", " ++ v.target ++ ")"
  | .set t => "*runtime.Set(" ++ t.target ++ ")"
  | .tuple ts => "struct \x7b " ++ ", ".intercalate (targets ts) ++ " \x7d"
  | .record name => "*" ++ name
  | .function ⟨params, result, fallible⟩ =>
    "*const fn (" ++ ", ".intercalate (targets params) ++ ") "
      ++ (if fallible then "anyerror!" else "") ++ result.target
  | .closure wrapper _ => wrapper
  | .union _ | .unknown => dynamicValue

def targets : List Ty → List String
  | [] => []
  | t :: ts => t.target :: targets ts

end

mutual

def display : Ty → String
  | .none => "None"
  | .bool => "bool"
  | .int => "int"
  | .bigInt => "bigint"
  | .float => "float"
  | .str => "str"
  | .bytes => "bytes"
  | .list t => "list[" ++ t.display ++ "]"
  | .dict k v => "dict[" ++ k.display ++ ", " ++ v.display ++ "]"
  | .set t => "set[" ++ t.display ++ "]"
  | .tuple ts => "tuple[" ++ ", ".intercalate (displays ts) ++ "]"
  | .record name => name
  | .function ⟨_, result, _⟩ => "function -> " ++ result.display
  | .closure wrapper _ => "closure " ++ wrapper
  | .union ts => " | ".intercalate (displays ts)
  | .unknown => "unknown"

def displays : List Ty → List String
  | [] => []
  | t :: ts => t.display :: displays ts

end

/-- Spelling of the type in a declaration without a value; `none` becomes an optional
dynamic value. -/
def slot : Ty → String
  | .unknown | .union _ => dynamicValue
  | .none => "?" ++ dynamicValue
  | t => t.target

end Ty

end ClosureConversion
