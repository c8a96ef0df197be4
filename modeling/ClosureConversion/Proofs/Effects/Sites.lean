import ClosureConversion.Effects.Analysis
import ClosureConversion.Emit.Context

/-! # The places that effect analysis judges -/

set_option autoImplicit false

namespace ClosureConversion

/-- An operation of a program, and whether effect analysis sees it fail. -/
structure Site where
  operation : Operation
  seen : Bool

/-- Whether an operation can fail at all with these options. What depends on types, bindings or
the run of the program always can. -/
def Operation.canFail (o : Options) : Operation → Bool
  | .binary op _ right => divisionFails op right || concatFails o op .str .str
  | .method name => methodFails o name
  | .extend _ => methodFails o "extend"
  | .allocation => o.allocationFails
  | .index _ _ | .named _ | .computed _ | .entry _ | .part | .raised | .rethrown => true

theorem canFail_of_divisionFails {o : Options} {op : BinOp} {left right : Expr}
    (h : divisionFails op right = true) : (Operation.binary op left right).canFail o = true := by
  simp [Operation.canFail, h]

theorem canFail_of_concatFails {o : Options} {op : BinOp} {left right : Expr} {lt rt : Ty}
    (h : concatFails o op lt rt = true) : (Operation.binary op left right).canFail o = true := by
  cases op <;> simp_all [Operation.canFail, concatFails, Ty.isBuilt]

namespace Effects

/-! ## Sites -/

mutual

def exprSites (w : Setting) (calls : Calls) : Expr → List Site
  | .name _ => []
  | .constant _ => []
  | .lambda _ _ => []
  | .binary op l r =>
    exprSites w calls l ++ exprSites w calls r ++
      [⟨.binary op l r,
        divisionFails op r || concatFails w.options op (w.exprType l) (w.exprType r)⟩]
  | .unary _ e => exprSites w calls e
  | .boolean _ es => exprsSites w calls es
  | .compare l _ es => exprSites w calls l ++ exprsSites w calls es
  | .call f args kws =>
    exprsSites w calls args ++ keywordsSites w calls kws ++
      match f with
      | .name n => [⟨.named n, (calls n).getD (outerCallFails w n (.call (.name n) args kws))⟩]
      | .attribute e method =>
        exprSites w calls e ++ [⟨.method method, methodFails w.options method⟩]
      | f => exprSites w calls f ++ [⟨.computed f, false⟩]
  | .attribute e _ => exprSites w calls e
  | .subscript e i =>
    exprSites w calls e ++ exprSites w calls i ++ [⟨.index e i, subscriptFails (w.exprType e)⟩]
  | .tuple es => exprsSites w calls es
  | .list es => exprsSites w calls es ++ [⟨.allocation, w.options.allocationFails⟩]
  | .set es => exprsSites w calls es ++ [⟨.allocation, w.options.allocationFails⟩]
  | .dict ks vs =>
    exprsSites w calls ks ++ exprsSites w calls vs ++ [⟨.allocation, w.options.allocationFails⟩]
  | .ifElse t b e => exprSites w calls t ++ exprSites w calls b ++ exprSites w calls e
  | .listComp e gs | .setComp e gs | .generatorExp e gs =>
    generatorsSites w calls gs ++ exprSites w calls e ++
      [⟨.allocation, w.options.allocationFails⟩]
  | .dictComp k v gs =>
    generatorsSites w calls gs ++ exprSites w calls k ++ exprSites w calls v ++
      [⟨.allocation, w.options.allocationFails⟩]
  | .format ps => partsSites w calls ps ++ [⟨.allocation, w.options.allocationFails⟩]
  | .starred e => exprSites w calls e

def exprsSites (w : Setting) (calls : Calls) : List Expr → List Site
  | [] => []
  | e :: es => exprSites w calls e ++ exprsSites w calls es

def keywordsSites (w : Setting) (calls : Calls) : List Keyword → List Site
  | [] => []
  | ⟨_, e⟩ :: ks => exprSites w calls e ++ keywordsSites w calls ks

def generatorsSites (w : Setting) (calls : Calls) : List Generator → List Site
  | [] => []
  | ⟨_, iter, ifs⟩ :: gs =>
    exprSites w calls iter ++ exprsSites w calls ifs ++ generatorsSites w calls gs

def partsSites (w : Setting) (calls : Calls) : List FormatPart → List Site
  | [] => []
  | .literal _ :: ps => partsSites w calls ps
  | .interpolation e :: ps => exprSites w calls e ++ partsSites w calls ps

end

/-- Storing to an entry of a container, or deleting it, as the analysis sees it. -/
def entryFails (w : Setting) (container : Expr) : Bool :=
  match w.exprType container with
  | .dict _ _ => w.options.allocationFails
  | ty => ty.isUnknown

mutual

/-- The sites of storing to a target. Nothing is asked about a value that is taken apart. -/
def targetSites (w : Setting) (calls : Calls) : Target → List Site
  | .name _ => []
  | .tuple ts => ⟨.part, false⟩ :: targetsSites w calls ts
  | .starred t => targetSites w calls t
  | .attribute e _ => exprSites w calls e
  | .subscript e i => exprSites w calls e ++ exprSites w calls i ++ [⟨.entry e, entryFails w e⟩]

def targetsSites (w : Setting) (calls : Calls) : List Target → List Site
  | [] => []
  | t :: ts => targetSites w calls t ++ targetsSites w calls ts

end

/-- The place that an augmented assignment reads before it stores to it. -/
def readSites (t : Target) (op : BinOp) (v : Expr) (seen : Bool) : List Site :=
  match t with
  | .name n => [⟨.binary op (.name n) v, seen⟩, ⟨.extend n, seen⟩]
  | .attribute e attr => [⟨.binary op (.attribute e attr) v, seen⟩]
  | .subscript e i => [⟨.binary op (.subscript e i) v, seen⟩, ⟨.index e i, false⟩]
  | .tuple _ | .starred _ => [⟨.part, seen⟩]

mutual

def stmtSites (w : Setting) (calls : Calls) : Stmt → List Site
  | .raise _ => [⟨.raised, true⟩]
  | .assert t _ => exprSites w calls t ++ [⟨.raised, true⟩]
  | .assign t v _ => exprSites w calls v ++ targetSites w calls t
  | .augAssign t op v =>
    exprSites w calls v ++ targetSites w calls t ++
      readSites t op v (divisionFails op v ||
        concatFails w.options op (updatedType w t) (w.exprType v))
  | .expr e => exprSites w calls e
  | .ret none => []
  | .ret (some e) => exprSites w calls e
  | .ifElse t b e => exprSites w calls t ++ stmtsSites w calls b ++ stmtsSites w calls e
  | .whileLoop t b => exprSites w calls t ++ stmtsSites w calls b
  | .forLoop _ i b => exprSites w calls i ++ stmtsSites w calls b
  | .breakLoop => []
  | .continueLoop => []
  | .pass => []
  | .tryExcept b hs e f =>
    (if hs.any fun h => h.kind.isNone then [] else stmtsSites w calls b) ++
      handlersSites w calls hs ++ stmtsSites w calls e ++ stmtsSites w calls f
  | .withItems ws b =>
    (ws.flatMap fun item => exprSites w calls item.context) ++ stmtsSites w calls b
  | .functionDef f => (exprsSites w calls f.decorators).map fun s => ⟨s.operation, false⟩
  | .nonlocal _ => []
  | .global _ => []
  | .delete ts => targetsSites w calls ts

def stmtsSites (w : Setting) (calls : Calls) : List Stmt → List Site
  | [] => []
  | s :: ss => stmtSites w calls s ++ stmtsSites w calls ss

def handlersSites (w : Setting) (calls : Calls) : List Handler → List Site
  | [] => []
  | ⟨_, _, body⟩ :: hs => stmtsSites w calls body ++ handlersSites w calls hs

end

/-! ## Verdicts -/

variable {w : Setting} {calls : Calls}

mutual

theorem expr_eq_any : ∀ e : Expr, expr w calls e = (exprSites w calls e).any Site.seen
  | .name _ | .constant _ | .lambda _ _ => rfl
  | .binary op l r => by
    simp only [expr, exprSites, List.any_append, List.any_cons, List.any_nil, Bool.or_false,
      expr_eq_any l, expr_eq_any r, Bool.or_assoc]
  | .unary _ e | .attribute e _ | .starred e => by simp only [expr, exprSites, expr_eq_any e]
  | .boolean _ es | .tuple es => by simp only [expr, exprSites, exprs_eq_any es]
  | .compare l _ es => by
    simp only [expr, exprSites, List.any_append, expr_eq_any l, exprs_eq_any es]
  | .call f args kws => by
    have hcallee := expr_eq_any f
    cases f with
    | name n =>
      simp only [expr, exprSites, List.any_append, List.any_cons, List.any_nil, Bool.or_false,
        exprs_eq_any args, keywords_eq_any kws]
    | «attribute» e method =>
      rw [expr, exprSites] at hcallee
      simp only [expr, exprSites, List.any_append, List.any_cons, List.any_nil, Bool.or_false,
        exprs_eq_any args, keywords_eq_any kws, hcallee]
    | _ =>
      rw [expr, exprSites, hcallee]
      simp only [List.any_append, List.any_cons, List.any_nil, Bool.or_false,
        exprs_eq_any args, keywords_eq_any kws]
      all_goals nofun
  | .subscript e i => by
    simp only [expr, exprSites, List.any_append, List.any_cons, List.any_nil, Bool.or_false,
      expr_eq_any e, expr_eq_any i]
  | .list es | .set es => by
    simp only [expr, exprSites, List.any_append, List.any_cons, List.any_nil, Bool.or_false,
      exprs_eq_any es]
  | .dict ks vs => by
    simp only [expr, exprSites, List.any_append, List.any_cons, List.any_nil, Bool.or_false,
      exprs_eq_any ks, exprs_eq_any vs]
  | .ifElse t b e => by
    simp only [expr, exprSites, List.any_append, expr_eq_any t, expr_eq_any b, expr_eq_any e]
  | .listComp e gs | .setComp e gs | .generatorExp e gs => by
    simp only [expr, exprSites, List.any_append, List.any_cons, List.any_nil, Bool.or_false,
      expr_eq_any e, generators_eq_any gs]
  | .dictComp k v gs => by
    simp only [expr, exprSites, List.any_append, List.any_cons, List.any_nil, Bool.or_false,
      expr_eq_any k, expr_eq_any v, generators_eq_any gs]
  | .format ps => by
    simp only [expr, exprSites, List.any_append, List.any_cons, List.any_nil, Bool.or_false,
      parts_eq_any ps]

theorem exprs_eq_any : ∀ es : List Expr, exprs w calls es = (exprsSites w calls es).any Site.seen
  | [] => rfl
  | e :: es => by simp only [exprs, exprsSites, List.any_append, expr_eq_any e, exprs_eq_any es]

theorem keywords_eq_any :
    ∀ ks : List Keyword, keywords w calls ks = (keywordsSites w calls ks).any Site.seen
  | [] => rfl
  | ⟨_, e⟩ :: ks => by
    simp only [keywords, keywordsSites, List.any_append, expr_eq_any e, keywords_eq_any ks]

theorem generators_eq_any :
    ∀ gs : List Generator, generators w calls gs = (generatorsSites w calls gs).any Site.seen
  | [] => rfl
  | ⟨_, iter, ifs⟩ :: gs => by
    simp only [generators, generatorsSites, List.any_append, expr_eq_any iter, exprs_eq_any ifs,
      generators_eq_any gs]

theorem parts_eq_any :
    ∀ ps : List FormatPart, parts w calls ps = (partsSites w calls ps).any Site.seen
  | [] => rfl
  | .literal _ :: ps => by simp only [parts, partsSites, parts_eq_any ps]
  | .interpolation e :: ps => by
    simp only [parts, partsSites, List.any_append, expr_eq_any e, parts_eq_any ps]

end

mutual

theorem target_eq_any : ∀ t : Target, target w calls t = (targetSites w calls t).any Site.seen
  | .name _ => rfl
  | .tuple ts => by
    simp only [target, targetSites, List.any_cons, Bool.false_or, targets_eq_any ts]
  | .starred t => by simp only [target, targetSites, target_eq_any t]
  | .attribute e _ => by simp only [target, targetSites, expr_eq_any e]
  | .subscript e i => by
    simp only [target, targetSites, List.any_append, List.any_cons, List.any_nil, Bool.or_false,
      expr_eq_any e, expr_eq_any i]
    rfl

theorem targets_eq_any :
    ∀ ts : List Target, targets w calls ts = (targetsSites w calls ts).any Site.seen
  | [] => rfl
  | t :: ts => by
    simp only [targets, targetsSites, List.any_append, target_eq_any t, targets_eq_any ts]

end

theorem readSites_any (t : Target) (op : BinOp) (v : Expr) (seen : Bool) :
    (readSites t op v seen).any Site.seen = seen := by
  cases t <;> simp [readSites]

mutual

theorem stmt_eq_any : ∀ s : Stmt, stmt w calls s = (stmtSites w calls s).any Site.seen
  | .raise _ => rfl
  | .assert t _ => by simp [stmt, stmtSites]
  | .assign t v _ => by
    simp only [stmt, stmtSites, List.any_append, expr_eq_any v, target_eq_any t]
  | .augAssign t op v => by
    simp only [stmt, stmtSites, List.any_append, expr_eq_any v, target_eq_any t, readSites_any,
      Bool.or_assoc]
  | .expr e | .ret (some e) => by simp only [stmt, stmtSites, expr_eq_any e]
  | .ret none | .breakLoop | .continueLoop | .pass | .nonlocal _ | .global _ => rfl
  | .ifElse t b e => by
    simp only [stmt, stmtSites, List.any_append, expr_eq_any t, stmts_eq_any b, stmts_eq_any e]
  | .whileLoop t b => by
    simp only [stmt, stmtSites, List.any_append, expr_eq_any t, stmts_eq_any b]
  | .forLoop _ i b => by
    simp only [stmt, stmtSites, List.any_append, expr_eq_any i, stmts_eq_any b]
  | .tryExcept b hs e f => by
    simp only [stmt, stmtSites, List.any_append, stmts_eq_any b, handlers_eq_any hs,
      stmts_eq_any e, stmts_eq_any f]
    cases hs.any fun h => h.kind.isNone <;> simp
  | .withItems ws b => by
    simp only [stmt, stmtSites, List.any_append, List.any_flatMap, expr_eq_any, stmts_eq_any b]
  | .functionDef f => by simp [stmt, stmtSites]
  | .delete ts => by simp only [stmt, stmtSites, targets_eq_any ts]

/-- **The analysis of statements is the disjunction of its verdicts.** -/
theorem stmts_eq_any : ∀ ss : List Stmt, stmts w calls ss = (stmtsSites w calls ss).any Site.seen
  | [] => rfl
  | s :: ss => by simp only [stmts, stmtsSites, List.any_append, stmt_eq_any s, stmts_eq_any ss]

theorem handlers_eq_any :
    ∀ hs : List Handler, handlers w calls hs = (handlersSites w calls hs).any Site.seen
  | [] => rfl
  | ⟨_, _, body⟩ :: hs => by
    simp only [handlers, handlersSites, List.any_append, stmts_eq_any body, handlers_eq_any hs]

end

end Effects

/-- The sites of a body in a scope. -/
def bodySites (body : List Stmt) (scope : Scope) (oracle : Oracle) (options : Options) :
    List Site :=
  let w : Effects.Setting := { scope, oracle, options }
  Effects.stmtsSites w
    (Effects.callFails w (Effects.namesAll body) (Effects.boundAll body .empty)) body

/-- **A body may fail exactly if one of its sites is seen to fail.** -/
theorem mayFail_eq_any (body : List Stmt) (scope : Scope) (oracle : Oracle) (options : Options) :
    mayFail body scope oracle options = (bodySites body scope oracle options).any Site.seen :=
  Effects.stmts_eq_any body

end ClosureConversion
