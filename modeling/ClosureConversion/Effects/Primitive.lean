import ClosureConversion.Options
import ClosureConversion.Tree.Basic

/-! # Failing constructs -/

set_option autoImplicit false

namespace ClosureConversion

/-- Builtins that fail on bad input. -/
def failingBuiltins : List String :=
  ["int", "float", "open", "next", "input", "divmod", "getattr"]

/-- Builtins that allocate their result; the helper for such a builtin takes the allocator. -/
def allocatingBuiltins : List String :=
  ["str", "repr", "list", "dict", "set", "sorted", "reversed", "enumerate", "zip", "map",
    "filter", "format", "range"]

/-- Methods that fail when an element or a key is missing. -/
def failingMethods : List String := ["pop", "index", "remove"]

/-- Methods that grow their receiver or build a new value. -/
def allocatingMethods : List String :=
  ["append", "extend", "insert", "add", "update", "setdefault", "copy", "upper", "lower",
    "replace", "join", "split", "format", "title", "capitalize", "splitlines", "keys", "values",
    "items"]

def builtinAllocates (name : String) : Bool := allocatingBuiltins.contains name

def builtinFails (o : Options) (name : String) : Bool :=
  failingBuiltins.contains name || (o.allocationFails && builtinAllocates name)

def methodFails (o : Options) (name : String) : Bool :=
  failingMethods.contains name || (o.allocationFails && allocatingMethods.contains name)

/-- A number written out that is not zero. -/
def Expr.isNonzeroLiteral : Expr → Bool
  | .constant (.int n) => n != 0
  | .constant (.float x) => x != 0.0
  | _ => false

/-- Division and remainder fail unless the divisor is a literal other than zero. -/
def divisionFails (op : BinOp) (divisor : Expr) : Bool :=
  match op with
  | .div | .floorDiv | .mod => !divisor.isNonzeroLiteral
  | _ => false

/-- Indexing fails for mappings and for values of unknown shape. -/
def subscriptFails : Ty → Bool
  | .dict _ _ | .unknown | .union _ => true
  | _ => false

/-- Values that `+` and `*` build anew. -/
def Ty.isBuilt : Ty → Bool
  | .str | .list _ => true
  | _ => false

def concatFails (o : Options) (op : BinOp) (l r : Ty) : Bool :=
  match op with
  | .add | .mult => o.allocationFails && (l.isBuilt || r.isBuilt)
  | _ => false

end ClosureConversion
