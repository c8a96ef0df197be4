import ClosureConversion.Usage.Basic

/-! # Usage of the scopes inside a body -/

set_option autoImplicit false

namespace ClosureConversion

namespace Usage

mutual

def inExpr : Expr → List (String × Usage)
  | .name _ => []
  | .constant _ => []
  | .binary _ l r => inExpr l ++ inExpr r
  | .unary _ e => inExpr e
  | .boolean _ es => inExprs es
  | .compare l _ es => inExpr l ++ inExprs es
  | .call f args kws => inExpr f ++ inExprs args ++ inKeywords kws
  | .attribute e _ => inExpr e
  | .subscript e i => inExpr e ++ inExpr i
  | .list es => inExprs es
  | .tuple es => inExprs es
  | .set es => inExprs es
  | .dict ks vs => inExprs ks ++ inExprs vs
  | .ifElse t b e => inExpr t ++ inExpr b ++ inExpr e
  | .lambda ps b =>
    inDefaults ps ++ inExpr b ++
      [("<lambda>", (Usage.expr [] b {}).close "<lambda>" (ps.map Param.name))]
  | .listComp e gs => inGenerators gs ++ inExpr e
  | .setComp e gs => inGenerators gs ++ inExpr e
  | .generatorExp e gs => inGenerators gs ++ inExpr e
  | .dictComp k v gs => inGenerators gs ++ inExpr k ++ inExpr v
  | .format ps => inParts ps
  | .starred e => inExpr e

def inExprs : List Expr → List (String × Usage)
  | [] => []
  | e :: es => inExpr e ++ inExprs es

def inKeywords : List Keyword → List (String × Usage)
  | [] => []
  | ⟨_, e⟩ :: ks => inExpr e ++ inKeywords ks

def inDefaults : List Param → List (String × Usage)
  | [] => []
  | ⟨_, _, some e⟩ :: ps => inExpr e ++ inDefaults ps
  | ⟨_, _, none⟩ :: ps => inDefaults ps

def inGenerators : List Generator → List (String × Usage)
  | [] => []
  | ⟨_, iter, ifs⟩ :: gs => inExpr iter ++ inExprs ifs ++ inGenerators gs

def inParts : List FormatPart → List (String × Usage)
  | [] => []
  | .literal _ :: ps => inParts ps
  | .interpolation e :: ps => inExpr e ++ inParts ps

end

mutual

def inTarget : Target → List (String × Usage)
  | .name _ => []
  | .tuple ts => inTargets ts
  | .starred t => inTarget t
  | .attribute e _ => inExpr e
  | .subscript e i => inExpr e ++ inExpr i

def inTargets : List Target → List (String × Usage)
  | [] => []
  | t :: ts => inTarget t ++ inTargets ts

end

def inOptional : Option Expr → List (String × Usage)
  | none => []
  | some e => inExpr e

def inWithItem (w : WithItem) : List (String × Usage) :=
  inExpr w.context ++ (w.target.map inTarget).getD []

mutual

def inStmt : Stmt → List (String × Usage)
  | .assign t v _ => inExpr v ++ inTarget t
  | .augAssign t _ v => inExpr v ++ inTarget t
  | .expr e => inExpr e
  | .ret v => inOptional v
  | .ifElse t b e => inExpr t ++ inStmts b ++ inStmts e
  | .whileLoop t b => inExpr t ++ inStmts b
  | .forLoop t i b => inExpr i ++ inTarget t ++ inStmts b
  | .breakLoop => []
  | .continueLoop => []
  | .pass => []
  | .raise e => inOptional e
  | .assert t m => inExpr t ++ inOptional m
  | .tryExcept b hs e f => inStmts b ++ inHandlers hs ++ inStmts e ++ inStmts f
  | .withItems ws b => ws.flatMap inWithItem ++ inStmts b
  | .functionDef f => inFunction f
  | .nonlocal _ => []
  | .global _ => []
  | .delete ts => inTargets ts

def inStmts : List Stmt → List (String × Usage)
  | [] => []
  | s :: ss => inStmt s ++ inStmts ss

def inHandlers : List Handler → List (String × Usage)
  | [] => []
  | ⟨kind, _, body⟩ :: hs => inOptional kind ++ inStmts body ++ inHandlers hs

def inFunction : Function → List (String × Usage)
  | ⟨name, params, vararg, kwarg, declaredResult, body, decorators, span⟩ =>
    let formals := Function.formals
      ⟨name, params, vararg, kwarg, declaredResult, [], decorators, span⟩
    inExprs decorators ++ inDefaults params ++ inStmts body ++ [(name, Usage.ofBody name formals body)]

end

/-- The scopes of a body, itself last. -/
def inBody (ownName : String) (formals : List String) (body : List Stmt) : List (String × Usage) :=
  inStmts body ++ [(ownName, Usage.ofBody ownName formals body)]

end Usage

end ClosureConversion
