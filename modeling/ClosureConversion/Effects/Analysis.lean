import ClosureConversion.Effects.Primitive
import ClosureConversion.Inference.Table

/-! # Effect analysis -/

set_option autoImplicit false

namespace ClosureConversion

namespace Effects

/-- What an analysis looks up. -/
structure Setting where
  scope : Scope
  oracle : Oracle
  options : Options

def Setting.exprType (w : Setting) (e : Expr) : Ty := w.oracle.exprType e w.scope

/-- A function bound by a body. -/
inductive LocalFunction where
  | function (body : List Stmt)
  | lambda (body : Expr)

/-- Whether a local function can fail; `none` for names that are no local functions. -/
abbrev Calls := String → Option Bool

/-- A call of a plain name that is no local function. -/
def outerCallFails (w : Setting) (name : String) (call : Expr) : Bool :=
  let constructs := w.options.allocationFails && w.exprType call == .record name
  let named := w.oracle.isFallible name || builtinFails w.options name || constructs
  match w.scope.lookup name with
  | some b => if b.ty.isCallable || b.isClosureLike then b.ty.callFails else named
  | none => named

/-! ## Expressions and statements, given what local functions do -/

mutual

def expr (w : Setting) (calls : Calls) : Expr → Bool
  | .name _ => false
  | .constant _ => false
  | .lambda _ _ => false
  | .binary op l r =>
    expr w calls l || expr w calls r || divisionFails op r ||
      concatFails w.options op (w.exprType l) (w.exprType r)
  | .unary _ e => expr w calls e
  | .boolean _ es => exprs w calls es
  | .compare l _ es => expr w calls l || exprs w calls es
  | .call f args kws =>
    exprs w calls args || keywords w calls kws ||
      match f with
      | .name n => (calls n).getD (outerCallFails w n (.call (.name n) args kws))
      | .attribute e method => expr w calls e || methodFails w.options method
      | f => expr w calls f
  | .attribute e _ => expr w calls e
  | .subscript e i => expr w calls e || expr w calls i || subscriptFails (w.exprType e)
  | .tuple es => exprs w calls es
  | .list es => exprs w calls es || w.options.allocationFails
  | .set es => exprs w calls es || w.options.allocationFails
  | .dict ks vs => exprs w calls ks || exprs w calls vs || w.options.allocationFails
  | .ifElse t b e => expr w calls t || expr w calls b || expr w calls e
  | .listComp e gs => generators w calls gs || expr w calls e || w.options.allocationFails
  | .setComp e gs => generators w calls gs || expr w calls e || w.options.allocationFails
  | .generatorExp e gs => generators w calls gs || expr w calls e || w.options.allocationFails
  | .dictComp k v gs =>
    generators w calls gs || expr w calls k || expr w calls v || w.options.allocationFails
  | .format ps => parts w calls ps || w.options.allocationFails
  | .starred e => expr w calls e

def exprs (w : Setting) (calls : Calls) : List Expr → Bool
  | [] => false
  | e :: es => expr w calls e || exprs w calls es

def keywords (w : Setting) (calls : Calls) : List Keyword → Bool
  | [] => false
  | ⟨_, e⟩ :: ks => expr w calls e || keywords w calls ks

def generators (w : Setting) (calls : Calls) : List Generator → Bool
  | [] => false
  | ⟨_, iter, ifs⟩ :: gs => expr w calls iter || exprs w calls ifs || generators w calls gs

def parts (w : Setting) (calls : Calls) : List FormatPart → Bool
  | [] => false
  | .literal _ :: ps => parts w calls ps
  | .interpolation e :: ps => expr w calls e || parts w calls ps

end

mutual

/-- Storing to a target. -/
def target (w : Setting) (calls : Calls) : Target → Bool
  | .name _ => false
  | .tuple ts => targets w calls ts
  | .starred t => target w calls t
  | .attribute e _ => expr w calls e
  | .subscript e i =>
    expr w calls e || expr w calls i ||
      match w.exprType e with
      | .dict _ _ => w.options.allocationFails
      | ty => ty.isUnknown

def targets (w : Setting) (calls : Calls) : List Target → Bool
  | [] => false
  | t :: ts => target w calls t || targets w calls ts

end

/-- The type of the name that an augmented assignment updates. -/
def updatedType (w : Setting) : Target → Ty
  | .name n =>
    match w.scope.lookup n with
    | some b => b.ty
    | none => .unknown
  | _ => .unknown

mutual

def stmt (w : Setting) (calls : Calls) : Stmt → Bool
  | .raise _ => true
  | .assert _ _ => true
  | .assign t v _ => expr w calls v || target w calls t
  | .augAssign t op v =>
    expr w calls v || target w calls t || divisionFails op v ||
      concatFails w.options op (updatedType w t) (w.exprType v)
  | .expr e => expr w calls e
  | .ret none => false
  | .ret (some e) => expr w calls e
  | .ifElse t b e => expr w calls t || stmts w calls b || stmts w calls e
  | .whileLoop t b => expr w calls t || stmts w calls b
  | .forLoop _ i b => expr w calls i || stmts w calls b
  | .breakLoop => false
  | .continueLoop => false
  | .pass => false
  -- errors that no handler takes are raised again
  | .tryExcept b hs e f =>
    (stmts w calls b && !hs.any fun h => h.kind.isNone) || handlers w calls hs ||
      stmts w calls e || stmts w calls f
  | .withItems ws b => ws.any (fun item => expr w calls item.context) || stmts w calls b
  | .functionDef _ => false
  | .nonlocal _ => false
  | .global _ => false
  | .delete ts => targets w calls ts

def stmts (w : Setting) (calls : Calls) : List Stmt → Bool
  | [] => false
  | s :: ss => stmt w calls s || stmts w calls ss

def handlers (w : Setting) (calls : Calls) : List Handler → Bool
  | [] => false
  | ⟨_, _, body⟩ :: hs => stmts w calls body || handlers w calls hs

end

/-! ## Local functions -/

mutual

/-- Add the functions and named lambdas of a statement; of several with one name the last
counts. -/
def bound : Stmt → NameMap LocalFunction → NameMap LocalFunction
  | .functionDef f, m => m.insert f.name (.function f.body)
  | .assign (.name n) (.lambda _ e) _, m => m.insert n (.lambda e)
  | .ifElse _ b e, m => boundAll e (boundAll b m)
  | .whileLoop _ b, m => boundAll b m
  | .forLoop _ _ b, m => boundAll b m
  | .withItems _ b, m => boundAll b m
  | .tryExcept b hs e f, m => boundAll f (boundAll e (boundHandlers hs (boundAll b m)))
  | _, m => m

def boundAll : List Stmt → NameMap LocalFunction → NameMap LocalFunction
  | [], m => m
  | s :: ss, m => boundAll ss (bound s m)

def boundHandlers : List Handler → NameMap LocalFunction → NameMap LocalFunction
  | [], m => m
  | ⟨_, _, body⟩ :: hs, m => boundHandlers hs (boundAll body m)

end

mutual

/-- Names of the functions and named lambdas in a statement, those of nested functions
included. -/
def names : Stmt → List String
  | .functionDef ⟨name, _, _, _, _, body, _, _⟩ => name :: namesAll body
  | .assign (.name n) (.lambda _ _) _ => [n]
  | .ifElse _ b e => namesAll b ++ namesAll e
  | .whileLoop _ b => namesAll b
  | .forLoop _ _ b => namesAll b
  | .withItems _ b => namesAll b
  | .tryExcept b hs e f => namesAll b ++ namesHandlers hs ++ namesAll e ++ namesAll f
  | _ => []

def namesAll : List Stmt → List String
  | [] => []
  | s :: ss => names s ++ namesAll ss

def namesHandlers : List Handler → List String
  | [] => []
  | ⟨_, _, body⟩ :: hs => namesAll body ++ namesHandlers hs

end

/-- Whether the local function called `name` can fail. Names outside `unvisited` are being
looked at already. A nested body's own functions hide those around it. -/
def callFails (w : Setting) (unvisited : List String) (env : NameMap LocalFunction)
    (name : String) : Option Bool :=
  match env.get? name with
  | none => none
  | some f =>
    if name ∈ unvisited then
      match f with
      | .lambda e => some (expr w (fun n => callFails w (without unvisited name) env n) e)
      | .function body =>
        let inner := (boundAll body .empty).orElse env
        some (stmts w (fun n => callFails w (without unvisited name) inner n) body)
    else
      some false
termination_by unvisited.length
decreasing_by
  all_goals exact length_without_lt ‹name ∈ unvisited›

end Effects

/-- Whether a body can fail in a scope. -/
def mayFail (body : List Stmt) (scope : Scope) (oracle : Oracle) (options : Options) : Bool :=
  let w : Effects.Setting := { scope, oracle, options }
  Effects.stmts w (Effects.callFails w (Effects.namesAll body) (Effects.boundAll body .empty)) body

end ClosureConversion
