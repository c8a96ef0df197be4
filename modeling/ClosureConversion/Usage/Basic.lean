import ClosureConversion.NameMap
import ClosureConversion.Tree.Basic

/-! # Usage -/

set_option autoImplicit false

namespace ClosureConversion

structure Usage where
  /-- Names read anywhere in the body, in the order of their first reads. -/
  reads : List String := []
  /-- Names that the body binds, apart from formals and names declared to live outside. -/
  assigned : List String := []
  /-- How often each name is written. -/
  assignCounts : NameMap Nat := .empty
  /-- Containers that are changed in place. -/
  mutated : List String := []
  nonlocals : List String := []
  globals : List String := []
  /-- Free names that nested functions write. -/
  nestedWrites : List String := []
  /-- Names that are called, or passed as arguments of a call. -/
  calls : List String := []
  selfRecursive : Bool := false

namespace Usage

/-! ## Queries -/

def isRead (u : Usage) (name : String) : Bool := u.reads.contains name

def isAssigned (u : Usage) (name : String) : Bool := u.assigned.contains name

def isNonlocal (u : Usage) (name : String) : Bool := u.nonlocals.contains name

def isGlobal (u : Usage) (name : String) : Bool := u.globals.contains name

/-- The body, or one nested in it, writes this name, which is bound outside. -/
def writesThrough (u : Usage) (name : String) : Bool :=
  u.isNonlocal name || u.nestedWrites.contains name

def assignCount (u : Usage) (name : String) : Nat := (u.assignCounts.get? name).getD 0

/-- The formal is bound again somewhere in the body. -/
def rebindsFormal (u : Usage) (formal : String) : Bool := 0 < u.assignCount formal

/-! ## Single occurrences, with the names that comprehensions around them hide -/

def read (hidden : List String) (name : String) (u : Usage) : Usage :=
  if hidden.contains name then u else { u with reads := pushNew u.reads name }

def called (hidden : List String) (name : String) (u : Usage) : Usage :=
  if hidden.contains name then u else { u with calls := pushNew u.calls name }

def mutate (hidden : List String) (name : String) (u : Usage) : Usage :=
  if hidden.contains name then u else { u with mutated := pushNew u.mutated name }

def bind (name : String) (u : Usage) : Usage :=
  { u with assigned := pushNew u.assigned name
           assignCounts := u.assignCounts.insert name (u.assignCount name + 1) }

/-- A nested function writes this name, which is free in it. -/
def writeThrough (hidden : List String) (name : String) (u : Usage) : Usage :=
  if hidden.contains name then u
  else { u.read hidden name with nestedWrites := pushNew u.nestedWrites name }

/-- The free names of a nested function become names of the body around it. -/
def absorb (u : Usage) (hidden : List String) (inner : Usage) (formals : List String) : Usage :=
  let own (n : String) : Bool := formals.contains n || inner.isAssigned n || inner.isGlobal n
  let free (names : List String) : List String := names.filter (!own ·)
  let u := (free inner.reads).foldl (fun u n => u.read hidden n) u
  let u := (free inner.calls).foldl (fun u n => u.called hidden n) u
  let u := (inner.nonlocals ++ inner.nestedWrites).foldl (fun u n => u.writeThrough hidden n) u
  (free inner.mutated).foldl (fun u n => u.mutate hidden n) u

/-- Close a body: formals and names declared to live outside are no local bindings, though
their writes stay counted, and the body is recursive if it calls a function of its own name
that it does not bind itself. -/
def close (ownName : String) (formals : List String) (u : Usage) : Usage :=
  let assigned := u.assigned.filter fun n =>
    !(u.nonlocals ++ u.globals).contains n && !formals.contains n
  let nestedWrites := u.nestedWrites.filter fun n => !assigned.contains n && !formals.contains n
  let rebindsSelf := assigned.contains ownName || formals.contains ownName ||
    u.globals.contains ownName
  { u with assigned, nestedWrites, selfRecursive := !rebindsSelf && u.calls.contains ownName }

end Usage

/-- Methods that change their receiver in place. -/
def mutatingMethods : List String :=
  ["append", "extend", "insert", "pop", "remove", "clear", "sort", "reverse", "add", "discard",
    "update", "setdefault"]

/-! ## Names bound by targets -/

mutual

/-- Plain names in a target, in order. -/
def Target.names : Target → List String
  | .name n => [n]
  | .tuple parts => Target.allNames parts
  | .attribute _ _ => []
  | .subscript _ _ => []
  | .starred t => t.names

def Target.allNames : List Target → List String
  | [] => []
  | t :: ts => t.names ++ Target.allNames ts

end

/-- Names bound by the generators of a comprehension. -/
def Generator.names (gs : List Generator) : List String := gs.flatMap fun g => g.target.names

/-! ## Expressions -/

/-- The occurrence in callee position itself: a called name, or a receiver changed in place. -/
def Usage.callee (hidden : List String) (callee : Expr) (u : Usage) : Usage :=
  match callee with
  | .name n => u.called hidden n
  | .attribute (.name receiver) method =>
    if mutatingMethods.contains method then u.mutate hidden receiver else u
  | _ => u

/-- A function passed along stays callable. -/
def Usage.argument (hidden : List String) (arg : Expr) (u : Usage) : Usage :=
  match arg with
  | .name n => u.called hidden n
  | _ => u

mutual

def Usage.expr (hidden : List String) : Expr → Usage → Usage
  | .name n, u => u.read hidden n
  | .constant _, u => u
  | .binary _ l r, u => Usage.expr hidden r (Usage.expr hidden l u)
  | .unary _ e, u => Usage.expr hidden e u
  | .boolean _ es, u => Usage.exprs hidden es u
  | .compare l _ es, u => Usage.exprs hidden es (Usage.expr hidden l u)
  | .call f args kws, u =>
    Usage.keywords hidden kws
      (Usage.arguments hidden args ((Usage.expr hidden f u).callee hidden f))
  | .attribute e _, u => Usage.expr hidden e u
  | .subscript e i, u => Usage.expr hidden i (Usage.expr hidden e u)
  | .list es, u => Usage.exprs hidden es u
  | .tuple es, u => Usage.exprs hidden es u
  | .set es, u => Usage.exprs hidden es u
  | .dict ks vs, u => Usage.exprs hidden vs (Usage.exprs hidden ks u)
  | .ifElse t b e, u => Usage.expr hidden e (Usage.expr hidden b (Usage.expr hidden t u))
  | .lambda ps b, u =>
    let formals := ps.map Param.name
    let inner := (Usage.expr [] b {}).close "<lambda>" formals
    (Usage.defaults hidden ps u).absorb hidden inner formals
  | .listComp e gs, u =>
    Usage.expr (hidden ++ Generator.names gs) e (Usage.generators hidden gs u)
  | .setComp e gs, u =>
    Usage.expr (hidden ++ Generator.names gs) e (Usage.generators hidden gs u)
  | .generatorExp e gs, u =>
    Usage.expr (hidden ++ Generator.names gs) e (Usage.generators hidden gs u)
  | .dictComp k v gs, u =>
    let inside := hidden ++ Generator.names gs
    Usage.expr inside v (Usage.expr inside k (Usage.generators hidden gs u))
  | .format parts, u => Usage.parts hidden parts u
  | .starred e, u => Usage.expr hidden e u

def Usage.exprs (hidden : List String) : List Expr → Usage → Usage
  | [], u => u
  | e :: es, u => Usage.exprs hidden es (Usage.expr hidden e u)

def Usage.arguments (hidden : List String) : List Expr → Usage → Usage
  | [], u => u
  | e :: es, u => Usage.arguments hidden es (Usage.expr hidden e (u.argument hidden e))

def Usage.keywords (hidden : List String) : List Keyword → Usage → Usage
  | [], u => u
  | ⟨_, e⟩ :: ks, u => Usage.keywords hidden ks (Usage.expr hidden e u)

def Usage.defaults (hidden : List String) : List Param → Usage → Usage
  | [], u => u
  | ⟨_, _, some e⟩ :: ps, u => Usage.defaults hidden ps (Usage.expr hidden e u)
  | ⟨_, _, none⟩ :: ps, u => Usage.defaults hidden ps u

/-- Each target is hidden from its own conditions and from the generators after it. -/
def Usage.generators (hidden : List String) : List Generator → Usage → Usage
  | [], u => u
  | ⟨target, iter, ifs⟩ :: gs, u =>
    let inside := hidden ++ target.names
    Usage.generators inside gs (Usage.exprs inside ifs (Usage.expr hidden iter u))

def Usage.parts (hidden : List String) : List FormatPart → Usage → Usage
  | [], u => u
  | .literal _ :: ps, u => Usage.parts hidden ps u
  | .interpolation e :: ps, u => Usage.parts hidden ps (Usage.expr hidden e u)

end

/-! ## Statements -/

/-- The occurrence of a container whose part is stored to. -/
def Usage.container (value : Expr) (u : Usage) : Usage :=
  match value with
  | .name n => u.mutate [] n
  | _ => u

mutual

def Usage.store : Target → Usage → Usage
  | .name n, u => u.bind n
  | .tuple ts, u => Usage.stores ts u
  | .starred t, u => Usage.store t u
  | .attribute e _, u => (Usage.expr [] e u).container e
  | .subscript e i, u => (Usage.expr [] i (Usage.expr [] e u)).container e

def Usage.stores : List Target → Usage → Usage
  | [], u => u
  | t :: ts, u => Usage.stores ts (Usage.store t u)

end

def Usage.optional : Option Expr → Usage → Usage
  | none, u => u
  | some e, u => Usage.expr [] e u

def Usage.withItems : List WithItem → Usage → Usage
  | [], u => u
  | ⟨context, none⟩ :: ws, u => Usage.withItems ws (Usage.expr [] context u)
  | ⟨context, some t⟩ :: ws, u => Usage.withItems ws (Usage.store t (Usage.expr [] context u))

mutual

def Usage.stmt : Stmt → Usage → Usage
  | .assign t v _, u => Usage.store t (Usage.expr [] v u)
  | .augAssign t _ v, u =>
    let u := match t with
      | .name n => u.read [] n
      | _ => u
    Usage.store t (Usage.expr [] v u)
  | .expr e, u => Usage.expr [] e u
  | .ret v, u => Usage.optional v u
  | .ifElse t b e, u => Usage.stmts e (Usage.stmts b (Usage.expr [] t u))
  | .whileLoop t b, u => Usage.stmts b (Usage.expr [] t u)
  | .forLoop t i b, u => Usage.stmts b (Usage.store t (Usage.expr [] i u))
  | .breakLoop, u => u
  | .continueLoop, u => u
  | .pass, u => u
  | .raise e, u => Usage.optional e u
  | .assert t m, u => Usage.optional m (Usage.expr [] t u)
  | .tryExcept b hs e f, u => Usage.stmts f (Usage.stmts e (Usage.handlers hs (Usage.stmts b u)))
  | .withItems ws b, u => Usage.stmts b (Usage.withItems ws u)
  | .functionDef f, u => Usage.function f u
  | .nonlocal ns, u => { u with nonlocals := ns.foldl pushNew u.nonlocals }
  | .global ns, u => { u with globals := ns.foldl pushNew u.globals }
  | .delete ts, u => Usage.stores ts u

def Usage.stmts : List Stmt → Usage → Usage
  | [], u => u
  | s :: ss, u => Usage.stmts ss (Usage.stmt s u)

def Usage.handlers : List Handler → Usage → Usage
  | [], u => u
  | ⟨kind, name, body⟩ :: hs, u =>
    let u := Usage.optional kind u
    let u := match name with
      | some n => u.bind n
      | none => u
    Usage.handlers hs (Usage.stmts body u)

/-- A nested definition binds its name; its decorators and defaults belong to the body around
it, its free names are absorbed. -/
def Usage.function : Function → Usage → Usage
  | ⟨name, params, vararg, kwarg, declaredResult, body, decorators, span⟩, u =>
    let formals := Function.formals
      ⟨name, params, vararg, kwarg, declaredResult, [], decorators, span⟩
    let inner := (Usage.stmts body {}).close name formals
    ((Usage.defaults [] params (Usage.exprs [] decorators u)).bind name).absorb [] inner formals

end

namespace Usage

/-- Usage of a body with a name and formals of its own. -/
def ofBody (ownName : String) (formals : List String) (body : List Stmt) : Usage :=
  (Usage.stmts body {}).close ownName formals

def ofFunction (f : Function) : Usage := ofBody f.name f.formals f.body

end Usage

end ClosureConversion
