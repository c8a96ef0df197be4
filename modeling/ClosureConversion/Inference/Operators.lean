import ClosureConversion.Tree.Basic
import ClosureConversion.Ty.Order

/-! # Types of operators, builtins and methods -/

set_option autoImplicit false

namespace ClosureConversion

def Constant.type : Constant → Ty
  | .none => .none
  | .bool _ => .bool
  | .int _ => .int
  | .float _ => .float
  | .str _ => .str

namespace Ty

def isIntegral : Ty → Bool
  | .int | .bool => true
  | _ => false

/-- Numeric promotion. An unknown operand defers to a known number, which keeps
`n * fact(n - 1)` an integer while the recursive call has no type yet. -/
def numeric (l r : Ty) : Ty :=
  if l.isUnknown && (r.isNumeric || r.isUnknown) then r
  else if r.isUnknown && (l.isNumeric || l.isUnknown) then l
  else if l = .float || r = .float then .float
  else if l = .bigInt || r = .bigInt then .bigInt
  else if l.isIntegral && r.isIntegral then .int
  else .unknown

/-- Result of a builtin that does not look at its arguments. -/
def fixedBuiltin? : String → Option Ty
  | "len" | "int" | "ord" | "hash" => some .int
  | "float" => some .float
  | "str" | "repr" | "chr" | "input" => some .str
  | "bool" | "isinstance" | "callable" => some .bool
  | "print" => some .none
  | _ => Option.none

/-- Result of a builtin for arguments of these types. -/
def builtin (name : String) (args : List Ty) : Ty :=
  let first := args.headD .unknown
  match name with
  | "abs" => first
  | "range" => .list .int
  | "list" | "sorted" | "reversed" => .list first.element
  | "set" => .set first.element
  | "tuple" => .tuple []
  | "dict" => .dict .unknown .unknown
  | "min" | "max" => if args.length = 1 then first.element else joinAll args
  | "sum" => if first.element.isUnknown then .int else first.element
  | "enumerate" => .list (.tuple [.int, first.element])
  | "zip" => .list (.tuple (args.map element))
  | _ => .unknown

/-- Methods that are called for their effect. -/
def effectMethods : List String :=
  ["append", "extend", "insert", "clear", "sort", "reverse", "add", "update", "discard", "remove"]

def strMethod? : String → Option Ty
  | "upper" | "lower" | "strip" | "lstrip" | "rstrip" | "replace" | "join" | "format" | "title"
  | "capitalize" => some .str
  | "split" | "splitlines" => some (.list .str)
  | "startswith" | "endswith" | "isdigit" | "isalpha" => some .bool
  | "find" | "count" | "index" => some .int
  | _ => Option.none

def listMethod? (elem : Ty) : String → Option Ty
  | "pop" => some elem
  | "index" | "count" => some .int
  | "copy" => some (.list elem)
  | _ => Option.none

def setMethod? (elem : Ty) : String → Option Ty
  | "copy" => some (.set elem)
  | _ => Option.none

def dictMethod? (key value : Ty) : String → Option Ty
  | "copy" => some (.dict key value)
  | "get" | "pop" | "setdefault" => some value
  | "keys" => some (.list key)
  | "values" => some (.list value)
  | "items" => some (.list (.tuple [key, value]))
  | _ => Option.none

/-- Result of a method for a receiver of this type. -/
def method (receiver : Ty) (name : String) : Ty :=
  let own := match receiver with
    | .str => strMethod? name
    | .list t => listMethod? t name
    | .set t => setMethod? t name
    | .dict k v => dictMethod? k v name
    | _ => Option.none
  own.getD (if effectMethods.contains name then .none else .unknown)

/-- Type of the entry at a constant position of a tuple; negative positions count from the
end. -/
def tupleEntry (ts : List Ty) (i : Int) : Ty :=
  let i := if i < 0 then ts.length + i else i
  if i < 0 then .unknown else ts.getD i.toNat .unknown

/-- Type of an indexed value. -/
def subscript (container : Ty) (index : Expr) : Ty :=
  match container, index with
  | .list t, _ => t
  | .dict _ v, _ => v
  | .str, _ => .str
  | .bytes, _ => .int
  | .tuple ts, .constant (.int i) => tupleEntry ts i.toInt
  | .tuple ts, _ => joinAll ts
  | _, _ => .unknown

end Ty

/-- Result type of a binary operator. -/
def BinOp.type (op : BinOp) (l r : Ty) : Ty :=
  match op with
  | .div => .float
  | .add =>
    if l = .str || r = .str then .str
    else match l, r with
      | .list a, .list b => .list (a.join b)
      | _, _ => l.numeric r
  | .mult =>
    if l = .str || r = .str then .str
    else match l, r with
      | .list _, _ => l
      | _, .list _ => r
      | _, _ => l.numeric r
  | .bitAnd | .bitOr | .bitXor | .lShift | .rShift =>
    match l with
    | .set _ => l
    | _ => .int
  | _ => l.numeric r

end ClosureConversion
