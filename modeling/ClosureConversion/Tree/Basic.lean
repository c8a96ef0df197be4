import ClosureConversion.Ty.Basic
import ClosureConversion.Report.Diagnostic

/-! # Program trees -/

set_option autoImplicit false

namespace ClosureConversion

inductive BinOp where
  | add | sub | mult | div | floorDiv | mod | pow | bitAnd | bitOr | bitXor | lShift | rShift
  deriving Repr, DecidableEq

inductive UnaryOp where
  | neg | pos | not | invert
  deriving Repr, DecidableEq

inductive BoolOp where
  | and | or
  deriving Repr, DecidableEq

inductive CmpOp where
  | eq | notEq | lt | ltE | gt | gtE | in | notIn | is | isNot
  deriving Repr, DecidableEq

inductive Constant where
  | none
  | bool (value : Bool)
  | int (value : Int64)
  | float (value : Float)
  | str (value : String)

mutual

inductive Expr where
  | name (name : String)
  | constant (value : Constant)
  | binary (op : BinOp) (left right : Expr)
  | unary (op : UnaryOp) (operand : Expr)
  | boolean (op : BoolOp) (values : List Expr)
  /-- Chained comparison: each operator stands before the comparator of its place. -/
  | compare (left : Expr) (ops : List CmpOp) (comparators : List Expr)
  | call (callee : Expr) (args : List Expr) (keywords : List Keyword)
  | attribute (value : Expr) (attr : String)
  | subscript (value index : Expr)
  | list (elems : List Expr)
  | tuple (elems : List Expr)
  | set (elems : List Expr)
  | dict (keys values : List Expr)
  | ifElse (test body orelse : Expr)
  | lambda (params : List Param) (body : Expr)
  | listComp (elt : Expr) (generators : List Generator)
  | setComp (elt : Expr) (generators : List Generator)
  | generatorExp (elt : Expr) (generators : List Generator)
  | dictComp (key value : Expr) (generators : List Generator)
  | format (parts : List FormatPart)
  | starred (value : Expr)

inductive Target where
  | name (name : String)
  /-- Destructuring. -/
  | tuple (parts : List Target)
  | attribute (value : Expr) (attr : String)
  | subscript (value index : Expr)
  | starred (target : Target)

/-- Formal parameter. -/
structure Param where
  name : String
  /-- The type that the program declares. -/
  declared : Option Ty := none
  default : Option Expr := none

/-- Keyword argument; without a name it spreads a mapping. -/
structure Keyword where
  arg : Option String
  value : Expr

/-- `for target in iter if …` in a comprehension. -/
structure Generator where
  target : Target
  iter : Expr
  ifs : List Expr := []

/-- Part of an interpolated string. -/
inductive FormatPart where
  | literal (text : String)
  | interpolation (value : Expr)

end

instance : Inhabited Expr := ⟨.constant .none⟩

/-- `with context as target`. -/
structure WithItem where
  context : Expr
  target : Option Target := none

mutual

inductive Stmt where
  | assign (target : Target) (value : Expr) (declared : Option Ty)
  | augAssign (target : Target) (op : BinOp) (value : Expr)
  | expr (value : Expr)
  | ret (value : Option Expr)
  | ifElse (test : Expr) (body orelse : List Stmt)
  | whileLoop (test : Expr) (body : List Stmt)
  | forLoop (target : Target) (iter : Expr) (body : List Stmt)
  | breakLoop
  | continueLoop
  | pass
  | raise (exception : Option Expr)
  | assert (test : Expr) (message : Option Expr)
  | tryExcept (body : List Stmt) (handlers : List Handler) (orelse finalbody : List Stmt)
  | withItems (items : List WithItem) (body : List Stmt)
  | functionDef (function : Function)
  | nonlocal (names : List String)
  | global (names : List String)
  | delete (targets : List Target)

/-- `except kind as name`; without a kind it catches everything. -/
structure Handler where
  kind : Option Expr := none
  name : Option String := none
  body : List Stmt

structure Function where
  name : String
  params : List Param := []
  /-- Collector of further positional arguments. -/
  vararg : Option Param := none
  /-- Collector of further keyword arguments. -/
  kwarg : Option Param := none
  declaredResult : Option Ty := none
  body : List Stmt := []
  decorators : List Expr := []
  span : Span := {}

end

instance : Inhabited Stmt := ⟨.pass⟩

structure GlobalVar where
  name : String
  ty : Ty

structure Module where
  name : String
  globals : List GlobalVar := []
  functions : List Function := []

namespace Expr

/-- The name, if this is a plain name. -/
def name? : Expr → Option String
  | .name n => some n
  | _ => none

def isStarred : Expr → Bool
  | .starred _ => true
  | _ => false

end Expr

/-- Names of all formals, the collectors last. -/
def Function.formals (f : Function) : List String :=
  f.params.map Param.name ++ (f.vararg.map Param.name).toList ++ (f.kwarg.map Param.name).toList

def Function.hasFormal (f : Function) (name : String) : Bool := f.formals.contains name

/-- The expressions interpolated into a string, in order. -/
def interpolations (parts : List FormatPart) : List Expr :=
  parts.filterMap fun
    | .interpolation e => some e
    | .literal _ => none

end ClosureConversion
