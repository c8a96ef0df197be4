import ClosureConversion.Tree.Basic

/-! # Building program trees -/

set_option autoImplicit false

namespace ClosureConversion

namespace Expr

def int (value : Int64) : Expr := .constant (.int value)

def float (value : Float) : Expr := .constant (.float value)

def string (value : String) : Expr := .constant (.str value)

def bool (value : Bool) : Expr := .constant (.bool value)

def noneLiteral : Expr := .constant .none

def add (left right : Expr) : Expr := .binary .add left right

def sub (left right : Expr) : Expr := .binary .sub left right

def mul (left right : Expr) : Expr := .binary .mult left right

/-- A comparison with one operator. -/
def compareWith (left : Expr) (op : CmpOp) (right : Expr) : Expr := .compare left [op] [right]

/-- A call without keyword arguments. -/
def apply (callee : Expr) (args : List Expr) : Expr := .call callee args []

def callName (callee : String) (args : List Expr) : Expr := (Expr.name callee).apply args

def callMethod (receiver : Expr) (method : String) (args : List Expr) : Expr :=
  (receiver.attribute method).apply args

def dictOf (entries : List (Expr × Expr)) : Expr :=
  .dict (entries.map Prod.fst) (entries.map Prod.snd)

/-- A comprehension with one generator over a plain name. -/
def listOver (elt : Expr) (target : String) (iter : Expr) (ifs : List Expr) : Expr :=
  .listComp elt [⟨.name target, iter, ifs⟩]

end Expr

namespace Param

def named (name : String) : Param := { name }

def typed (name : String) (ty : Ty) : Param := { name, declared := some ty }

end Param

def Expr.lambdaOf (params : List String) (body : Expr) : Expr :=
  .lambda (params.map Param.named) body

namespace Stmt

def assignName (name : String) (value : Expr) (declared : Option Ty := none) : Stmt :=
  .assign (.name name) value declared

def augAssignName (name : String) (op : BinOp) (value : Expr) : Stmt :=
  .augAssign (.name name) op value

def forName (name : String) (iter : Expr) (body : List Stmt) : Stmt :=
  .forLoop (.name name) iter body

end Stmt

namespace Function

/-- A function of untyped parameters. -/
def untyped (name : String) (params : List String) (body : List Stmt) : Function :=
  { name, params := params.map Param.named, body }

/-- A function with a declared result. -/
def typed (name : String) (params : List Param) (result : Ty) (body : List Stmt) : Function :=
  { name, params, declaredResult := some result, body }

end Function

end ClosureConversion
