import ClosureConversion.Decimal.Notation
import ClosureConversion.Text.Literal
import ClosureConversion.Tree.Basic
import ClosureConversion.Ty.Spelling

/-! # Spelling values and operators -/

set_option autoImplicit false

namespace ClosureConversion

namespace Code

def commas (items : List String) : String := ", ".intercalate items

/-- An anonymous tuple. -/
def tuple (items : List String) : String :=
  if items.isEmpty then ".\x7b\x7d" else s!".\x7b {commas items} \x7d"

def float (x : Float) : String :=
  if x.isNaN then "std.math.nan(f64)"
  else if x.isInf then (if x > 0.0 then "std.math.inf(f64)" else "-std.math.inf(f64)")
  else Decimal.code.writeFloat x

def constant : Constant → String
  | .none => "null"
  | .bool b => if b then "true" else "false"
  | .int i => toString i.toInt
  | .float x => float x
  | .str s => Text.quote s

/-- An integer used where a float is wanted. -/
def widened (int : String) : String := s!"@as(f64, @floatFromInt({int}))"

/-- One comparison; strings are compared by their contents. -/
def comparison (op : CmpOp) (l r : String) (strings : Bool) : String :=
  match op with
  | .eq => if strings then s!"std.mem.eql(u8, {l}, {r})" else s!"{l} == {r}"
  | .notEq => if strings then s!"!std.mem.eql(u8, {l}, {r})" else s!"{l} != {r}"
  | .is => s!"{l} == {r}"
  | .isNot => s!"{l} != {r}"
  | .lt => s!"{l} < {r}"
  | .ltE => s!"{l} <= {r}"
  | .gt => s!"{l} > {r}"
  | .gtE => s!"{l} >= {r}"
  | .in => s!"runtime.contains({r}, {l})"
  | .notIn => s!"!runtime.contains({r}, {l})"

def unary (op : UnaryOp) (operand : String) : String :=
  match op with
  | .neg => s!"-{operand}"
  | .pos => operand
  | .not => s!"!{operand}"
  | .invert => s!"~{operand}"

/-- Placeholder for a value of this type in a format text. -/
def placeholder : Ty → String
  | .str => "\x7bs\x7d"
  | .int | .bigInt | .float => "\x7bd\x7d"
  | _ => "\x7bany\x7d"

/-- The type written in a declaration with a value, where one is needed. -/
def declaredType? (ty : Ty) (isMutable : Bool) : Option String :=
  match ty with
  | .unknown => if isMutable then some dynamicValue else none
  | .none => some s!"?{dynamicValue}"
  | .closure _ _ | .tuple _ | .function _ => none
  | ty => some ty.target

/-- What follows the identifier in a declaration with a value. -/
def declarationRest (ty : Ty) (isMutable : Bool) (value : String) : String :=
  match declaredType? ty isMutable with
  | some spelled => s!": {spelled} = {value};"
  | none => s!" = {value};"

/-- Header of a declaration. -/
def keyword (isMutable : Bool) : String := if isMutable then "var" else "const"

end Code

/-- Operands that are written in parentheses. -/
def Expr.isCompound : Expr → Bool
  | .binary .. | .boolean .. | .compare .. | .ifElse .. | .unary .. => true
  | _ => false

end ClosureConversion
