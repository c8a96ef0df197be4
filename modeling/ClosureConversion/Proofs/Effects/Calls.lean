import ClosureConversion.Effects.Analysis

/-! # Calls that effect analysis sees -/

set_option autoImplicit false

namespace ClosureConversion

/-! ## Calls in a body -/

mutual

/-- The expression calls `n` itself; the body of a lambda is not part of it. -/
def Expr.invokes (n : String) : Expr → Bool
  | .name _ | .constant _ | .lambda _ _ => false
  | .binary _ l r => l.invokes n || r.invokes n
  | .unary _ e | .attribute e _ | .starred e => e.invokes n
  | .boolean _ es | .tuple es | .list es | .set es => Expr.anyInvokes n es
  | .compare l _ es => l.invokes n || Expr.anyInvokes n es
  | .call f args kws =>
    Expr.anyInvokes n args || Keyword.anyInvokes n kws ||
      match f with
      | .name m => m == n
      | f => f.invokes n
  | .subscript e i => e.invokes n || i.invokes n
  | .dict ks vs => Expr.anyInvokes n ks || Expr.anyInvokes n vs
  | .ifElse t b e => t.invokes n || b.invokes n || e.invokes n
  | .listComp e gs | .setComp e gs | .generatorExp e gs => Generator.anyInvokes n gs || e.invokes n
  | .dictComp k v gs => Generator.anyInvokes n gs || k.invokes n || v.invokes n
  | .format ps => FormatPart.anyInvokes n ps

def Expr.anyInvokes (n : String) : List Expr → Bool
  | [] => false
  | e :: es => e.invokes n || Expr.anyInvokes n es

def Keyword.anyInvokes (n : String) : List Keyword → Bool
  | [] => false
  | ⟨_, e⟩ :: ks => e.invokes n || Keyword.anyInvokes n ks

def Generator.anyInvokes (n : String) : List Generator → Bool
  | [] => false
  | ⟨_, iter, ifs⟩ :: gs => iter.invokes n || Expr.anyInvokes n ifs || Generator.anyInvokes n gs

def FormatPart.anyInvokes (n : String) : List FormatPart → Bool
  | [] => false
  | .literal _ :: ps => FormatPart.anyInvokes n ps
  | .interpolation e :: ps => e.invokes n || FormatPart.anyInvokes n ps

end

mutual

/-- Storing to the target does. -/
def Target.invokes (n : String) : Target → Bool
  | .name _ => false
  | .tuple ts => Target.anyInvokes n ts
  | .starred t => t.invokes n
  | .attribute e _ => e.invokes n
  | .subscript e i => e.invokes n || i.invokes n

def Target.anyInvokes (n : String) : List Target → Bool
  | [] => false
  | t :: ts => t.invokes n || Target.anyInvokes n ts

end

mutual

/-- The statement calls `n` where no bare handler takes the error; the bodies of nested functions
are not part of it. -/
def Stmt.invokes (n : String) : Stmt → Bool
  | .raise v | .ret v => v.any (Expr.invokes n)
  | .assert t m => t.invokes n || m.any (Expr.invokes n)
  | .assign t v _ | .augAssign t _ v => v.invokes n || t.invokes n
  | .expr e => e.invokes n
  | .ifElse t b e => t.invokes n || Stmt.anyInvokes n b || Stmt.anyInvokes n e
  | .whileLoop t b => t.invokes n || Stmt.anyInvokes n b
  | .forLoop _ i b => i.invokes n || Stmt.anyInvokes n b
  | .breakLoop | .continueLoop | .pass | .functionDef _ | .nonlocal _ | .global _ => false
  | .tryExcept b hs e f =>
    (Stmt.anyInvokes n b && !hs.any fun h => h.kind.isNone) || Handler.anyInvokes n hs ||
      Stmt.anyInvokes n e || Stmt.anyInvokes n f
  | .withItems ws b => ws.any (fun item => item.context.invokes n) || Stmt.anyInvokes n b
  | .delete ts => Target.anyInvokes n ts

def Stmt.anyInvokes (n : String) : List Stmt → Bool
  | [] => false
  | s :: ss => s.invokes n || Stmt.anyInvokes n ss

def Handler.anyInvokes (n : String) : List Handler → Bool
  | [] => false
  | ⟨_, _, body⟩ :: hs => Stmt.anyInvokes n body || Handler.anyInvokes n hs

end

/-! ## What the analysis makes of them -/

theorem Expr.invokes_call {n : String} {f : Expr} {args : List Expr} {kws : List Keyword} :
    (Expr.call f args kws).invokes n = true ↔ Expr.anyInvokes n args = true ∨
      Keyword.anyInvokes n kws = true ∨ f = .name n ∨ f.invokes n = true := by
  cases f <;> simp [Expr.invokes, or_assoc]

namespace Effects

variable {w : Setting} {calls : Calls} {n : String}

/-- Calls of `n` fail. -/
def Invoked (w : Setting) (calls : Calls) (n : String) : Prop :=
  ∀ args kws, (calls n).getD (outerCallFails w n (.call (.name n) args kws)) = true

/-- A call fails where one of its parts does. -/
theorem expr_call {f : Expr} {args : List Expr} {kws : List Keyword}
    (h : exprs w calls args = true ∨ keywords w calls kws = true ∨ expr w calls f = true) :
    expr w calls (.call f args kws) = true := by
  cases f <;> rcases h with h | h | h <;> simp_all [expr]

mutual

/-- An expression that calls a failing function fails. -/
theorem expr_of_invokes (hcall : Invoked w calls n) :
    ∀ e : Expr, e.invokes n = true → expr w calls e = true
  | .name _, h | .constant _, h | .lambda _ _, h => by cases h
  | .binary op l r, h => by
    have hl := expr_of_invokes hcall l
    have hr := expr_of_invokes hcall r
    simp only [Expr.invokes, Bool.or_eq_true] at h
    grind [expr]
  | .unary op e, h => expr_of_invokes hcall e h
  | .attribute e _, h => expr_of_invokes hcall e h
  | .starred e, h => expr_of_invokes hcall e h
  | .boolean op es, h => exprs_of_invokes hcall es h
  | .tuple es, h => exprs_of_invokes hcall es h
  | .list es, h => by
    have hes := exprs_of_invokes hcall es h
    simp [expr, hes]
  | .set es, h => by
    have hes := exprs_of_invokes hcall es h
    simp [expr, hes]
  | .compare l ops es, h => by
    have hl := expr_of_invokes hcall l
    have hes := exprs_of_invokes hcall es
    simp only [Expr.invokes, Bool.or_eq_true] at h
    grind [expr]
  | .call f args kws, h => by
    rcases Expr.invokes_call.mp h with hargs | hkws | rfl | hf
    · exact expr_call (.inl (exprs_of_invokes hcall args hargs))
    · exact expr_call (.inr (.inl (keywords_of_invokes hcall kws hkws)))
    · rw [expr, hcall args kws, Bool.or_true]
    · exact expr_call (.inr (.inr (expr_of_invokes hcall f hf)))
  | .subscript e i, h => by
    have he := expr_of_invokes hcall e
    have hi := expr_of_invokes hcall i
    simp only [Expr.invokes, Bool.or_eq_true] at h
    grind [expr]
  | .dict ks vs, h => by
    have hks := exprs_of_invokes hcall ks
    have hvs := exprs_of_invokes hcall vs
    simp only [Expr.invokes, Bool.or_eq_true] at h
    grind [expr]
  | .ifElse t b e, h => by
    have ht := expr_of_invokes hcall t
    have hb := expr_of_invokes hcall b
    have he := expr_of_invokes hcall e
    simp only [Expr.invokes, Bool.or_eq_true] at h
    grind [expr]
  | .listComp e gs, h => by
    have hgs := generators_of_invokes hcall gs
    have he := expr_of_invokes hcall e
    simp only [Expr.invokes, Bool.or_eq_true] at h
    grind [expr]
  | .setComp e gs, h => by
    have hgs := generators_of_invokes hcall gs
    have he := expr_of_invokes hcall e
    simp only [Expr.invokes, Bool.or_eq_true] at h
    grind [expr]
  | .generatorExp e gs, h => by
    have hgs := generators_of_invokes hcall gs
    have he := expr_of_invokes hcall e
    simp only [Expr.invokes, Bool.or_eq_true] at h
    grind [expr]
  | .dictComp k v gs, h => by
    have hgs := generators_of_invokes hcall gs
    have hk := expr_of_invokes hcall k
    have hv := expr_of_invokes hcall v
    simp only [Expr.invokes, Bool.or_eq_true] at h
    grind [expr]
  | .format ps, h => by
    have hps := parts_of_invokes hcall ps h
    simp [expr, hps]

theorem exprs_of_invokes (hcall : Invoked w calls n) :
    ∀ es : List Expr, Expr.anyInvokes n es = true → exprs w calls es = true
  | [], h => by cases h
  | e :: es, h => by
    have he := expr_of_invokes hcall e
    have hes := exprs_of_invokes hcall es
    simp only [Expr.anyInvokes, Bool.or_eq_true] at h
    grind [exprs]

theorem keywords_of_invokes (hcall : Invoked w calls n) :
    ∀ ks : List Keyword, Keyword.anyInvokes n ks = true → keywords w calls ks = true
  | [], h => by cases h
  | ⟨_, e⟩ :: ks, h => by
    have he := expr_of_invokes hcall e
    have hks := keywords_of_invokes hcall ks
    simp only [Keyword.anyInvokes, Bool.or_eq_true] at h
    grind [keywords]

theorem generators_of_invokes (hcall : Invoked w calls n) :
    ∀ gs : List Generator, Generator.anyInvokes n gs = true → generators w calls gs = true
  | [], h => by cases h
  | ⟨_, iter, ifs⟩ :: gs, h => by
    have hiter := expr_of_invokes hcall iter
    have hifs := exprs_of_invokes hcall ifs
    have hgs := generators_of_invokes hcall gs
    simp only [Generator.anyInvokes, Bool.or_eq_true] at h
    grind [generators]

theorem parts_of_invokes (hcall : Invoked w calls n) :
    ∀ ps : List FormatPart, FormatPart.anyInvokes n ps = true → parts w calls ps = true
  | [], h => by cases h
  | .literal _ :: ps, h => parts_of_invokes hcall ps h
  | .interpolation e :: ps, h => by
    have he := expr_of_invokes hcall e
    have hps := parts_of_invokes hcall ps
    simp only [FormatPart.anyInvokes, Bool.or_eq_true] at h
    grind [parts]

end

mutual

theorem target_of_invokes (hcall : Invoked w calls n) :
    ∀ t : Target, t.invokes n = true → target w calls t = true
  | .name _, h => by cases h
  | .tuple ts, h => targets_of_invokes hcall ts h
  | .starred t, h => target_of_invokes hcall t h
  | .attribute e _, h => expr_of_invokes hcall e h
  | .subscript e i, h => by
    have he := expr_of_invokes hcall e
    have hi := expr_of_invokes hcall i
    simp only [Target.invokes, Bool.or_eq_true] at h
    grind [target]

theorem targets_of_invokes (hcall : Invoked w calls n) :
    ∀ ts : List Target, Target.anyInvokes n ts = true → targets w calls ts = true
  | [], h => by cases h
  | t :: ts, h => by
    have ht := target_of_invokes hcall t
    have hts := targets_of_invokes hcall ts
    simp only [Target.anyInvokes, Bool.or_eq_true] at h
    grind [targets]

end

mutual

theorem stmt_of_invokes (hcall : Invoked w calls n) :
    ∀ t : Stmt, t.invokes n = true → stmt w calls t = true
  | .raise _, _ | .assert _ _, _ => rfl
  | .ret none, h => by cases h
  | .ret (some e), h => expr_of_invokes hcall e h
  | .assign t v _, h => by
    have ht := target_of_invokes hcall t
    have hv := expr_of_invokes hcall v
    simp only [Stmt.invokes, Bool.or_eq_true] at h
    grind [stmt]
  | .augAssign t op v, h => by
    have ht := target_of_invokes hcall t
    have hv := expr_of_invokes hcall v
    simp only [Stmt.invokes, Bool.or_eq_true] at h
    grind [stmt]
  | .expr e, h => expr_of_invokes hcall e h
  | .ifElse t b e, h => by
    have ht := expr_of_invokes hcall t
    have hb := stmts_of_invokes hcall b
    have he := stmts_of_invokes hcall e
    simp only [Stmt.invokes, Bool.or_eq_true] at h
    grind [stmt]
  | .whileLoop t b, h => by
    have ht := expr_of_invokes hcall t
    have hb := stmts_of_invokes hcall b
    simp only [Stmt.invokes, Bool.or_eq_true] at h
    grind [stmt]
  | .forLoop t i b, h => by
    have hi := expr_of_invokes hcall i
    have hb := stmts_of_invokes hcall b
    simp only [Stmt.invokes, Bool.or_eq_true] at h
    grind [stmt]
  | .breakLoop, h | .continueLoop, h | .pass, h | .functionDef _, h | .nonlocal _, h
  | .global _, h => by cases h
  | .tryExcept b hs e f, h => by
    have hb := stmts_of_invokes hcall b
    have hhs := handlers_of_invokes hcall hs
    have he := stmts_of_invokes hcall e
    have hf := stmts_of_invokes hcall f
    simp only [Stmt.invokes, Bool.or_eq_true, Bool.and_eq_true] at h
    grind [stmt]
  | .withItems ws b, h => by
    have hb := stmts_of_invokes hcall b
    have hitem := fun item : WithItem => expr_of_invokes hcall item.context
    simp only [Stmt.invokes, Bool.or_eq_true, List.any_eq_true] at h
    grind [stmt]
  | .delete ts, h => targets_of_invokes hcall ts h

theorem stmts_of_invokes (hcall : Invoked w calls n) :
    ∀ ts : List Stmt, Stmt.anyInvokes n ts = true → stmts w calls ts = true
  | [], h => by cases h
  | t :: ts, h => by
    have ht := stmt_of_invokes hcall t
    have hts := stmts_of_invokes hcall ts
    simp only [Stmt.anyInvokes, Bool.or_eq_true] at h
    grind [stmts]

theorem handlers_of_invokes (hcall : Invoked w calls n) :
    ∀ hs : List Handler, Handler.anyInvokes n hs = true → handlers w calls hs = true
  | [], h => by cases h
  | ⟨_, _, body⟩ :: hs, h => by
    have hbody := stmts_of_invokes hcall body
    have hhs := handlers_of_invokes hcall hs
    simp only [Handler.anyInvokes, Bool.or_eq_true] at h
    grind [handlers]

end

/-- **A body that calls a failing closure may fail.** The name must not be that of a function that
the body declares itself. -/
theorem mayFail_of_invokes {body : List Stmt} {s : Scope} {b : Binding} (oracle : Oracle)
    (options : Options) (hbody : Stmt.anyInvokes n body = true)
    (hlocal : (boundAll body .empty).get? n = none) (hlookup : s.lookup n = some b)
    (hclosure : b.isClosureLike = true) (hfails : b.ty.callFails = true) :
    mayFail body s oracle options = true := by
  refine stmts_of_invokes (fun args kws => ?_) body hbody
  have hnone : callFails ⟨s, oracle, options⟩ (namesAll body) (boundAll body .empty) n = none := by
    rw [callFails, hlocal]
  rw [hnone, Option.getD_none, outerCallFails]
  simp only [hlookup, hclosure, Bool.or_true, if_true, hfails]

end Effects

end ClosureConversion
