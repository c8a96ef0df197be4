import ClosureConversion.Inference.Table
import ClosureConversion.Scope.Events

/-! # Body plans -/

set_option autoImplicit false

namespace ClosureConversion

structure BodyPlan where
  /-- Identifiers that are stored to after their declaration. -/
  mutable : List String := []
  /-- Names first bound inside a block, with their types. -/
  hoisted : List (String × Ty) := []
  /-- Join of the types of all returned values; `none` if nothing is returned. -/
  returnType : Option Ty := none
  deriving DecidableEq

namespace BodyPlan

def isMutable (p : BodyPlan) (ident : String) : Bool := p.mutable.contains ident

def markMutable (p : BodyPlan) (ident : String) : BodyPlan :=
  { p with mutable := pushNew p.mutable ident }

/-- The first type seen for a hoisted name counts. -/
def hoist (p : BodyPlan) (name : String) (ty : Ty) : BodyPlan :=
  if p.hoisted.any (·.1 == name) then p else { p with hoisted := p.hoisted ++ [(name, ty)] }

def returns (p : BodyPlan) (ty : Ty) : BodyPlan :=
  { p with returnType := some (match p.returnType with
      | some prev => prev.join ty
      | none => ty) }

end BodyPlan

/-- What an assignment or a definition does about a plain name. -/
inductive Decision where
  | declares (name ident : String)
  /-- The variable that there is takes the value. -/
  | stores (name : String)
  /-- The name was declared global, and its variable is not the function's. -/
  | global (name : String)
  deriving DecidableEq

mutual

/-- How many decisions about plain names a statement asks for, those of nested functions apart. -/
def Stmt.choices : Stmt → Nat
  | .assign t _ _ => t.names.length
  | .augAssign (.name _) _ _ => 1
  | .ifElse _ b e => Stmt.allChoices b + Stmt.allChoices e
  | .whileLoop _ b => Stmt.allChoices b
  | .forLoop _ _ b => Stmt.allChoices b
  | .tryExcept b hs e f =>
    Stmt.allChoices b + Handler.choices hs + Stmt.allChoices e + Stmt.allChoices f
  | .withItems _ b => Stmt.allChoices b
  | .functionDef _ => 1
  | _ => 0

def Stmt.allChoices : List Stmt → Nat
  | [] => 0
  | s :: ss => s.choices + Stmt.allChoices ss

def Handler.choices : List Handler → Nat
  | [] => 0
  | ⟨_, _, body⟩ :: hs => Stmt.allChoices body + Handler.choices hs

end

structure Planner where
  scope : Scope
  /-- How many blocks of the body are open. -/
  depth : Nat := 0
  /-- Names declared global so far. -/
  globals : List String := []
  plan : BodyPlan := {}
  /-- Decisions made so far, the latest first. -/
  decisions : List Decision := []
  journal : Journal := []

/-- The binding of a name in the innermost function that is no field of an environment. -/
def Scope.isOwnVariable (s : Scope) (name : String) : Bool :=
  match s.lookupInFunction name with
  | some b => b.kind != .captured
  | none => false

namespace Planner

def tell (p : Planner) (events : List Event) : Planner :=
  { p with journal := p.journal.record events }

def decided (p : Planner) (d : Decision) : Planner := { p with decisions := d :: p.decisions }

def declareAs (p : Planner) (name ident : String) (b : Binding) : Planner :=
  { p with scope := p.scope.declareAs name ident b }.tell [.declared name ident b.ty]

/-- Declare a name that lives in the innermost block. -/
def declareFresh (p : Planner) (name : String) (ty : Ty) (kind : BindingKind) (form : SlotForm) :
    Planner :=
  let ident := p.scope.freshIdent name
  p.declareAs name ident { ty, kind, slot := ⟨ident, form⟩ }

def enter (p : Planner) : Planner :=
  { p with scope := p.scope.pushBlock, depth := p.depth + 1 }

def leave (p : Planner) : Planner :=
  let p := { p with depth := p.depth - 1 }
  match p.scope.pop with
  | .ok left => { p with scope := left.scope }.tell left.events
  | .error _ => p

/-- Assign to a plain name. -/
def assignName (p : Planner) (name : String) (ty : Ty) (source : Option String) : Planner :=
  if p.globals.contains name then p.decided (.global name)
  else
    let a := Assignment.plan p.scope name ty
    let p := p.tell (p.scope.resolveEvents name ty)
    let commit (p : Planner) : Planner :=
      { p with scope := a.commit p.scope false source }.tell a.commitEvents
    match a.resolution with
    | .fresh =>
      if 0 < p.depth then
        -- hoisted, so that it is there when the assignment is written
        { p.decided (.stores name) with
          plan := (p.plan.hoist name ty).markMutable a.ident
          scope := p.scope.declareInFunction name a.ident
            { ty, slot := ⟨a.ident, .hoisted⟩, isMutable := true } }
      else commit (p.decided (.declares name a.ident))
    | .reuse =>
      let p := p.decided (.stores name)
      commit (if p.scope.isOwnVariable name then { p with plan := p.plan.markMutable a.ident }
        else p)
    | .shadow ident => commit (p.decided (.declares name ident))

mutual

def assign (ty : Ty) (source : Option String) : Target → Planner → Planner
  | .name n, p => p.assignName n ty source
  | .tuple parts, p => assignParts ty 0 parts p
  | .starred t, p => assign (.list ty.element) none t p
  | .attribute _ _, p => p
  | .subscript _ _, p => p

def assignParts (ty : Ty) (i : Nat) : List Target → Planner → Planner
  | [], p => p
  | t :: ts, p => assignParts ty (i + 1) ts (assign (ty.part i) none t p)

end

mutual

/-- Bind the targets of a loop or a `with`, which live in the innermost block. -/
def bindPayload (ty : Ty) : Target → Planner → Planner
  | .name n, p => p.declareFresh n ty .local .payload
  | .tuple parts, p => bindPayloads ty 0 parts p
  | .starred _, p => p
  | .attribute _ _, p => p
  | .subscript _ _, p => p

def bindPayloads (ty : Ty) (i : Nat) : List Target → Planner → Planner
  | [], p => p
  | t :: ts, p => bindPayloads ty (i + 1) ts (bindPayload (ty.part i) t p)

end

/-- An augmented assignment to a plain name. -/
def augAssignName (o : Oracle) (name : String) (op : BinOp) (value : Expr) (p : Planner) :
    Planner :=
  if p.globals.contains name then p.decided (.global name)
  else
    let ty := o.exprType (.binary op (.name name) value) p.scope
    let p := p.tell (p.scope.resolveEvents name ty)
    match p.scope.resolve name ty with
    | .shadow _ => p.assignName name ty none
    | _ =>
      let p := p.decided (.stores name)
      if p.scope.isOwnVariable name then
        { p with plan := p.plan.markMutable (p.scope.ident name) }
      else p

/-- A nested function that writes a variable of this body makes it mutable. -/
def writtenThrough (p : Planner) (name : String) : Planner :=
  if p.scope.isOwnVariable name then
    { p with plan := p.plan.markMutable (p.scope.ident name)
             scope := p.scope.setMutable name }
  else p

def function (p : Planner) (f : Function) : Planner :=
  let u := Usage.ofFunction f
  let p := p.tell [.analyzed f.name f.formals f.body]
  let p := (u.nonlocals ++ u.nestedWrites).foldl writtenThrough p
  let p := p.decided (.declares f.name (p.scope.freshIdent f.name))
  p.declareFresh f.name .unknown .closure (.declared false)

def withItem (o : Oracle) (p : Planner) (item : WithItem) : Planner :=
  match item.target with
  | some t => bindPayload (o.exprType item.context p.scope) t p
  | none => p

/-- Bind the variable of a handler. -/
def bindHandler (name : Option String) (p : Planner) : Planner :=
  match name with
  | some n => p.declareFresh n .unknown .local .payload
  | none => p

mutual

def stmt (o : Oracle) : Stmt → Planner → Planner
  | .assign t v declared, p =>
    assign (declared.getD (o.exprType v p.scope)) v.name? t p
  | .augAssign (.name n) op v, p => p.augAssignName o n op v
  | .augAssign _ _ _, p => p
  | .ret (some v), p => { p with plan := p.plan.returns (o.exprType v p.scope) }
  | .ret none, p => p
  | .ifElse _ b [], p => (stmts o b p.enter).leave
  | .ifElse _ b e, p => (stmts o e (stmts o b p.enter).leave.enter).leave
  | .whileLoop _ b, p => (stmts o b p.enter).leave
  | .forLoop t i b, p =>
    let elem := (o.exprType i p.scope).element
    (stmts o b (bindPayload elem t p.enter)).leave
  | .tryExcept b hs e f, p =>
    let p := handlers o hs (stmts o b p.enter).leave
    (stmts o f (stmts o e p.enter).leave.enter).leave
  | .withItems items b, p => (stmts o b (items.foldl (withItem o) p.enter)).leave
  | .functionDef f, p => p.function f
  | .global names, p => { p with globals := p.globals ++ names }
  | .expr _, p => p
  | .breakLoop, p => p
  | .continueLoop, p => p
  | .pass, p => p
  | .raise _, p => p
  | .assert _ _, p => p
  | .nonlocal _, p => p
  | .delete _, p => p

def stmts (o : Oracle) : List Stmt → Planner → Planner
  | [], p => p
  | s :: ss, p => stmts o ss (stmt o s p)

def handlers (o : Oracle) : List Handler → Planner → Planner
  | [], p => p
  | ⟨_, name, body⟩ :: hs, p => handlers o hs (stmts o body (bindHandler name p.enter)).leave

end

end Planner

/-- The planner after a body that runs in the innermost function of `scope`. -/
def planBody (body : List Stmt) (scope : Scope) (oracle : Oracle) : Planner :=
  Planner.stmts oracle body { scope }

end ClosureConversion
