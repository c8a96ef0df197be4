import ClosureConversion.Conversion
import ClosureConversion.Proofs.Emit.Edits

/-! # Writing as a composed computation -/

set_option autoImplicit false

namespace ClosureConversion

namespace Emit

variable {α β : Type} {k : Latitude}

/-! ## How writing is put together -/

/-- Computations that are put together from edits and from steps on the prelude, by brackets and
by making closures. The latitude says which exits other than errors leave them. -/
inductive Composed : Latitude → {α : Type} → Emit α → Prop
  | annotates {k : Latitude} {α : Type} {x : Emit α} (h : Annotates x) : Composed k x
  | returning (value : Option String) : Composed .free (note (.exit (.result value)))
  | jumping {k : Latitude} (h : k ≠ .held false) (keyword : String) (out : Buffer) :
      Composed k (jump keyword out)
  | pushPrelude {k : Latitude} (text : String) : Composed k (Emit.pushPrelude text)
  | flushPrelude {k : Latitude} (out : Buffer) : Composed k (Emit.flushPrelude out)
  | bind {k : Latitude} {α β : Type} {x : Emit α} {f : α → Emit β} (hx : Composed k x)
      (hf : ∀ a, Composed k (f a)) : Composed k (x >>= f)
  | inFrame {k : Latitude} {α : Type} {kind : FrameKind} {x : Emit α} (hx : Composed k x) :
      Composed k (Emit.inFrame kind x)
  | isolated {k : Latitude} {α : Type} {x : Emit α} (hx : Composed k x) :
      Composed k (Emit.isolated x)
  | inFunction {k : Latitude} {α : Type} {state : FunctionState} {x : Emit α}
      (hx : Composed .free x) : Composed k (Emit.inFunction state x)
  | catching {k : Latitude} {α : Type} {target : CatchTarget} {x : Emit α} (hx : Composed k x) :
      Composed k (Emit.catching target x)
  | handling {k : Latitude} {α : Type} {payload : String} {x : Emit α} (hx : Composed k x) :
      Composed k (Emit.handling payload x)
  | looping {k : Latitude} {α : Type} {x : Emit α} (hx : Composed k.inLoop x) :
      Composed k (Emit.looping x)
  | settledParts {k : Latitude} {d : Draft} {body : Buffer → Emit Buffer}
      (h : ∀ assumed, Composed k (closureParts d assumed body)) :
      Composed k (Emit.settledParts d body)
  | synthesize {k : Latitude} {f : Function} {body : Buffer → Emit Buffer}
      {decorators : List (Emit String)} {discardUnused : Bool} {out : Buffer}
      (hparts : ∀ d, Composed k (Emit.isolated (Emit.settledParts d body)))
      (hbind : ∀ d ident signature,
        Composed k (bindInstance d ident signature decorators discardUnused out)) :
      Composed k (Emit.synthesize f body decorators discardUnused out)

/-- **Every composed computation is balanced.** -/
theorem Composed.balanced {x : Emit α} (h : Composed k x) : Balanced x := by
  induction h with
  | annotates h => exact h.balanced
  | returning value => exact noteAll_balanced _
  | jumping _ keyword out => exact current_edits.balanced.bind fun _ => (noteAll_balanced _).bind fun _ =>
      (Edits.pure _).balanced
  | pushPrelude text =>
    refine (noteAll_balanced _).bind fun _ => fun w c =>
      ⟨⟨.refl _, .refl _, .refl _, List.prefix_rfl, fun hlevel => ?_⟩, blameless_ok _⟩
    exact (Buffer.level_block _ _).trans hlevel
  | flushPrelude out => exact flushPrelude_balanced out
  | bind _ _ hx hf => exact hx.bind hf
  | inFrame _ hx => exact hx.inFrame _
  | isolated _ hx => exact hx.isolated
  | inFunction _ hx => exact hx.inFunction _
  | catching _ hx => exact hx.catching _
  | handling _ hx => exact hx.handling _
  | looping _ hx => exact hx.looping
  | settledParts _ h => exact .settledParts h
  | synthesize _ _ hparts hbind =>
    refine (prepare_edits _).balanced.bind fun ⟨d, ident⟩ => (hparts d).bind fun ⟨parts, _⟩ => ?_
    have hdeclare : Balanced (declareClosure d parts) :=
      (returnText_edits ..).balanced.bind fun result =>
        fun w c => ⟨Context.balanced_of_same (.refl _) (.refl _) rfl, blameless_ok _⟩
    refine hdeclare.bind fun signature => (hbind d ident signature).bind fun out => ?_
    exact fun w c => ⟨⟨.refl _, .refl _, .refl _, List.prefix_append .., id⟩, blameless_ok _⟩

/-- **Every composed computation is oblivious.** -/
theorem Composed.oblivious {x : Emit α} (h : Composed k x) : Oblivious x := by
  induction h with
  | annotates h => exact h.oblivious
  | returning _ => exact fun w c => rfl
  | jumping _ _ _ => exact fun w c => rfl
  | pushPrelude text => exact fun w c => rfl
  | flushPrelude out => exact flushPrelude_oblivious out
  | bind _ _ hx hf => exact hx.bind hf
  | inFrame _ hx => exact hx.inFrame _
  | isolated _ hx => exact hx.isolated
  | inFunction _ hx => exact hx.inFunction _
  | catching _ hx => exact hx.catching _
  | handling _ hx => exact hx.handling _
  | looping _ hx => exact hx.looping
  | settledParts _ h => exact .settledParts h
  | synthesize _ _ hparts hbind =>
    refine (prepare_edits _).oblivious.bind fun ⟨d, ident⟩ => (hparts d).bind fun ⟨parts, _⟩ => ?_
    have hdeclare : Oblivious (declareClosure d parts) :=
      (returnText_edits ..).oblivious.bind fun result => fun w c => rfl
    refine hdeclare.bind fun signature => (hbind d ident signature).bind fun out => ?_
    exact fun w c => rfl

/-- **Control leaves a composed computation as its latitude allows.** -/
theorem Composed.passes {x : Emit α} (h : Composed k x) : Passes k x := by
  induction h with
  | annotates h => exact fun w c => (h.passes w c).of_held
  | returning value =>
    refine noteAll_passes fun _ e he => ?_
    obtain rfl : e = _ := Note.exit.inj (List.mem_singleton.mp he)
    rfl
  | jumping h keyword out =>
    intro w c
    refine Context.passes_of_notes [.exit (.jump c.current.loops keyword)] rfl rfl rfl fun e he => ?_
    obtain rfl : e = _ := Note.exit.inj (List.mem_singleton.mp he)
    exact .inr ⟨rfl, h⟩
  | pushPrelude text =>
    exact fun w c => Context.passes_of_notes [.queued text] rfl rfl rfl fun e he => by
      cases List.mem_singleton.mp he
  | flushPrelude out =>
    intro w c
    unfold Emit.flushPrelude
    split <;> exact Context.passes_of_same rfl
  | bind _ _ hx hf => exact hx.bind hf
  | inFrame _ hx => exact hx.inFrame _
  | isolated _ hx => exact hx.isolated
  | inFunction _ _ => exact .inFunction _ _
  | catching _ hx => exact hx.catching _
  | handling _ hx => exact hx.handling _
  | looping _ hx => exact hx.looping
  | @settledParts _ d body _ h =>
    intro w c
    have hfirst := h none w c
    rcases settledParts_cases d body w c with heq | ⟨parts, c₁, hparts, heq⟩
    · rw [heq]
      exact hfirst
    · -- going back does not change the state of the function around
      rw [hparts] at hfirst
      rw [heq]
      exact hfirst.trans ((h (some true) w (rewound c c₁ d.qualname)).congr rfl rfl)
  | @synthesize k _ _ _ _ _ _ _ hparts hbind =>
    refine Passes.bind (fun w c => ((prepare_edits _).passes w c).of_held) fun ⟨d, ident⟩ => ?_
    refine (hparts d).bind fun ⟨parts, _⟩ => ?_
    have hdeclare : Passes k (declareClosure d parts) :=
      Passes.bind (fun w c => ((returnText_edits ..).passes w c).of_held) fun result =>
        fun w c => Context.passes_of_same rfl
    refine hdeclare.bind fun signature => (hbind d ident signature).bind fun out => ?_
    exact fun w c => Context.passes_of_same rfl

/-- Whatever is held back may also be let go. -/
theorem Composed.toFree {x : Emit α} (h : Composed k x) : Composed .free x := by
  induction h with
  | annotates h => exact .annotates h
  | returning value => exact .returning value
  | jumping _ keyword out => exact .jumping (by nofun) keyword out
  | pushPrelude text => exact .pushPrelude text
  | flushPrelude out => exact .flushPrelude out
  | bind _ _ hx hf => exact .bind hx hf
  | inFrame _ hx => exact .inFrame hx
  | isolated _ hx => exact .isolated hx
  | inFunction hx _ => exact .inFunction hx
  | catching _ hx => exact .catching hx
  | handling _ hx => exact .handling hx
  | looping _ hx => exact .looping hx
  | settledParts _ h => exact .settledParts h
  | synthesize _ _ hparts hbind => exact .synthesize hparts hbind

/-! ## Putting computations together -/

theorem Composed.edits {x : Emit α} (h : Edits x) : Composed k x := .annotates h.toAnnotates

theorem Composed.pure (a : α) : Composed k (pure a : Emit α) := .edits (.pure a)

theorem Composed.ite {p : Prop} [Decidable p] {x y : Emit α} (hx : Composed k x)
    (hy : Composed k y) : Composed k (if p then x else y) := by
  split
  · exact hx
  · exact hy

theorem typeOf_composed (e : Expr) : Composed k (typeOf e) := .edits (typeOf_edits e)

theorem options_composed : Composed k options := .edits options_edits

theorem fallibleIf_composed {op : Operation} (fails : Bool) (text : String) :
    Composed k (fallibleIf op fails text) :=
  .annotates (fallibleIf_annotates fails text)

theorem unsupported_composed (what : String) : Composed k (unsupported what : Emit α) :=
  .edits (unsupported_edits what)

/-- **Expressions and plain statements are composed if their parts are.** -/
theorem Composed.hereditary : LoopHereditary (fun _ => True) (fun _ => True) (Composed k) where
  pure := .pure
  bind := .bind
  met := ⟨{}, trivial⟩
  options hf := options_composed.bind fun o => hf o trivial
  typeOf := typeOf_composed
  scope := .edits scope_edits
  oracle := .edits oracle_edits
  isDeclaredGlobal n := .edits (isDeclaredGlobal_edits n)
  unsupported := unsupported_composed
  fallible text _ _ _ := .annotates (fallible_annotates text)
  errorExit error out _ _ _ := .annotates (errorExit_annotates error out)
  tell events := .edits (tell_edits events)
  temporary stem := .edits (temporary_edits stem)
  dropped _ := .annotates (note_annotates rfl)
  bindPayload n ty := .edits (bindPayload_edits n ty)
  bindCounter n start := .annotates (bindCounter_annotates n start)
  pushPrelude := .pushPrelude
  flushPrelude := .flushPrelude
  isolated := .isolated
  inBlock := .inFrame

/-! ## Closures -/

section Bodies

variable {body : Buffer → Emit Buffer}

theorem functionBody_composed (f : Function) (qualname : String) (formals : List Formal)
    (u : Usage) (h : ∀ out, Composed .free (body out)) :
    Composed k (functionBody f qualname formals u body) := by
  refine .bind (.edits (planFunction_edits ..)) fun ⟨state, formals⟩ => ?_
  refine .bind (.inFunction ?_) fun ⟨out, ended⟩ => .pure _
  refine .bind (.annotates (copyNotes_annotates formals)) fun _ => ?_
  refine .bind (Composed.hereditary.foldlM (fun out e _ => ?_) _) h
  exact .annotates (declareHoisted_annotates out e.1 e.2)

theorem closureParts_composed (d : Draft) (assumed : Option Bool)
    (h : ∀ out, Composed .free (body out)) : Composed k (closureParts d assumed body) := by
  refine .inFrame (.bind (.edits (enterClosure_edits d assumed)) fun e => ?_)
  exact (functionBody_composed _ _ _ _ h).bind fun _ => .pure _

theorem bindInstance_composed (d : Draft) (ident : String) (signature : Signature)
    {decorators : List (Emit String)} (discardUnused : Bool) (out : Buffer)
    (h : ∀ x ∈ decorators, Composed k x) :
    Composed k (bindInstance d ident signature decorators discardUnused out) := by
  refine (Composed.hereditary.decorate _ h).bind fun init => ?_
  refine (Composed.flushPrelude out).bind fun out => ?_
  refine .bind (.edits current_edits) fun state => .bind (.edits (isRead_edits _)) fun read => ?_
  exact .bind (.annotates (declareWrapper_annotates ..)) fun _ => .pure _

/-- **Making a closure is composed**, if its body and its decorators are. -/
theorem synthesize_composed (f : Function) {decorators : List (Emit String)}
    (discardUnused : Bool) (out : Buffer) (hbody : ∀ out, Composed .free (body out))
    (hdecorators : ∀ x ∈ decorators, Composed k x) :
    Composed k (synthesize f body decorators discardUnused out) := by
  refine .synthesize (fun d => .isolated (.settledParts fun assumed => ?_))
    fun d ident signature => ?_
  · exact closureParts_composed d assumed hbody
  · exact bindInstance_composed d ident signature discardUnused out hdecorators

end Bodies

/-! ## Expressions -/

theorem returnValue_composed (value : Expr) {text : Emit String} (out : Buffer)
    (h : Composed .free text) : Composed .free (returnValue value text out) := by
  refine (typeOf_composed value).bind fun ty => .bind (.edits ?_) fun _ => ?_
  · exact modifyCurrent_edits (fun _ => ⟨rfl, rfl, rfl, rfl, rfl, rfl⟩) fun _ => ⟨rfl, rfl⟩
  split
  · exact (Composed.returning none).bind fun _ => .pure _
  · refine h.bind fun text => (Composed.flushPrelude out).bind fun out => ?_
    exact (Composed.returning (some text)).bind fun _ => .pure _

theorem lambda_composed (params : List Param) (body : Expr) {text : Emit String}
    (h : Composed k text) : Composed k (lambda params body text) := by
  refine .bind (.edits current_edits) fun state => ?_
  refine (synthesize_composed _ false {} (fun out => returnValue_composed body out h.toFree)
    fun x hx => by cases hx).bind ?_
  rintro ⟨built, out⟩
  exact (Composed.pushPrelude _).bind fun _ => .pure _

/-- **Rendering an expression is composed.** -/
theorem Composed.rendering : RenderHereditary (Composed k) where
  toLoopHereditary := Composed.hereditary
  lambda params body h := lambda_composed params body h

theorem renderExpr_composed (e : Expr) : Composed k (renderExpr e) :=
  Composed.rendering.renderExpr e

theorem renderOperand_composed (e : Expr) : Composed k (renderOperand e) :=
  Composed.rendering.renderOperand e

theorem renderCondition_composed (e : Expr) : Composed k (renderCondition e) :=
  Composed.rendering.renderCondition e

/-! ## Assignments and deletions -/

mutual

theorem assignPart_composed : ∀ (t : Target) (access : String) (ty : Ty) (out : Buffer),
    Composed k (assignPart t access ty out)
  | .name n, access, ty, out => by
    rw [assignPart]
    refine .bind (.edits (isDeclaredGlobal_edits n)) fun isGlobal => .ite ?_ ?_
    · exact .bind (.edits (decided_edits _)) fun _ => .pure _
    · exact .bind (.edits (planAssignment_edits ..)) fun a => .annotates (bindName_annotates ..)
  | .tuple parts, access, ty, out => by
    rw [assignPart]
    exact .bind (.edits (temporary_edits "tuple")) fun tmp => assignParts_composed parts tmp ty 0 _
  | .attribute e _, access, _, out => by
    rw [assignPart]
    exact (renderOperand_composed e).bind fun _ => (Composed.flushPrelude out).bind fun _ =>
      .pure _
  | .subscript e i, access, _, out => by
    rw [assignPart]
    exact Composed.hereditary.store access out (renderOperand_composed e) (renderExpr_composed i)
      trivial
  | .starred _, _, _, _ => by
    rw [assignPart]
    exact unsupported_composed _

theorem assignParts_composed : ∀ (ts : List Target) (source : String) (ty : Ty) (i : Nat)
    (out : Buffer), Composed k (assignParts ts source ty i out)
  | [], _, _, _, _ => by
    rw [assignParts]
    exact .pure _
  | t :: ts, source, ty, i, out => by
    rw [assignParts]
    refine (Composed.hereditary.partAccess source ty i trivial).bind fun access => ?_
    refine (assignPart_composed t access _ out).bind fun out => ?_
    exact assignParts_composed ts source ty (i + 1) out

end

theorem assignName_composed (n : String) (value : Expr) (declared : Option Ty) (out : Buffer) :
    Composed k (assignName n value declared out) := by
  refine .bind (.edits (isDeclaredGlobal_edits n)) fun isGlobal => .ite ?_ ?_
  · refine .bind (.edits (decided_edits _)) fun _ => (renderExpr_composed value).bind fun v => ?_
    exact (Composed.flushPrelude out).bind fun _ => .pure _
  split
  · refine (lambda_composed _ _ (renderExpr_composed _)).bind fun built => ?_
    refine .bind (.edits (planAssignment_edits ..)) fun a => ?_
    exact (Composed.flushPrelude out).bind fun out => .annotates (bindName_annotates ..)
  · refine (typeOf_composed value).bind fun ty => ?_
    refine .bind (.edits (planAssignment_edits ..)) fun a => ?_
    refine .bind (.edits scope_edits) fun s => (Composed.rendering.render value _).bind fun text => ?_
    exact (Composed.flushPrelude out).bind fun out => .annotates (bindName_annotates ..)

theorem assign_composed (target : Target) (value : Expr) (declared : Option Ty) (out : Buffer) :
    Composed k (assign target value declared out) := by
  cases target with
  | name n => exact assignName_composed n value declared out
  | tuple parts =>
    refine (typeOf_composed value).bind fun ty => (renderExpr_composed value).bind fun text => ?_
    refine (Composed.flushPrelude out).bind fun out => ?_
    exact .bind (.edits (temporary_edits "tuple")) fun tmp => assignParts_composed parts tmp ty 0 _
  | «attribute» e attr =>
    refine (renderExpr_composed value).bind fun v => (renderOperand_composed e).bind fun o => ?_
    exact (Composed.flushPrelude out).bind fun _ => .pure _
  | subscript e i =>
    exact (renderExpr_composed value).bind fun v => Composed.hereditary.store v out
      (renderOperand_composed e) (renderExpr_composed i) trivial
  | starred t => exact unsupported_composed _

theorem updateName_composed (n : String) (op : BinOp) (value : Expr) (out : Buffer) :
    Composed k (updateName n op value out) := by
  refine (typeOf_composed _).bind fun ty => (typeOf_composed value).bind fun valueTy => ?_
  refine (Composed.hereditary.name n).bind fun ident => ?_
  refine .bind (.edits (isDeclaredGlobal_edits n)) fun isGlobal => ?_
  refine .bind (.edits scope_edits) fun s => ?_
  unfold writeUpdate
  split
  · refine (renderExpr_composed value).bind fun v => (Composed.flushPrelude out).bind fun out => ?_
    exact .annotates (updateLine_annotates ..)
  · refine (renderExpr_composed value).bind fun v => options_composed.bind fun o => ?_
    exact (fallibleIf_composed _ _).bind fun _ => (Composed.flushPrelude out).bind fun _ => .pure _
  · refine (renderExpr_composed _).bind fun v => (Composed.flushPrelude out).bind fun out => ?_
    exact .annotates (updateLine_annotates ..)

theorem augAssign_composed (target : Target) (op : BinOp) (value : Expr) (out : Buffer) :
    Composed k (augAssign target op value out) := by
  cases target with
  | name n =>
    refine .bind (.edits (isDeclaredGlobal_edits n)) fun isGlobal => ?_
    refine .ite (.bind (.edits (decided_edits _)) fun _ => updateName_composed n op value out) ?_
    refine (typeOf_composed _).bind fun ty => .bind (.edits (planAssignment_edits ..)) fun a => ?_
    split
    · refine (renderExpr_composed _).bind fun text => ?_
      exact (Composed.flushPrelude out).bind fun out => .annotates (bindName_annotates ..)
    · exact .bind (.edits (decided_edits _)) fun _ => updateName_composed n op value out
  | «attribute» e attr =>
    exact assign_composed (.attribute e attr) (.binary op (.attribute e attr) value) none out
  | subscript e i =>
    exact assign_composed (.subscript e i) (.binary op (.subscript e i) value) none out
  | tuple parts => exact unsupported_composed _
  | starred t => exact unsupported_composed _

mutual

theorem delete_composed : ∀ (t : Target) (out : Buffer), Composed k (delete t out)
  | .subscript e i, out => by
    exact Composed.hereditary.delete_subscript out (renderOperand_composed e)
      (renderExpr_composed i) trivial
  | .name n, out => by
    rw [delete]
    exact .bind (.edits (tell_edits _)) fun _ => .pure _
  | .tuple parts, out => by
    rw [delete]
    exact deleteAll_composed parts out
  | .attribute _ _, _ => by
    rw [delete]
    exact unsupported_composed _
  | .starred _, _ => by
    rw [delete]
    exact unsupported_composed _

theorem deleteAll_composed : ∀ (ts : List Target) (out : Buffer), Composed k (deleteAll ts out)
  | [], _ => by
    rw [deleteAll]
    exact .pure _
  | t :: ts, out => by
    rw [deleteAll]
    exact (delete_composed t out).bind fun out => deleteAll_composed ts out

end

/-! ## Single statements, given their bodies -/

section Bodies

variable {body : Buffer → Emit Buffer}

/-- All parts of a `try` statement are composed. -/
structure TryParts.Composed (k : Latitude) (p : TryParts) : Prop where
  body : ∀ out, Emit.Composed k (p.body out)
  handlers : ∀ payload out, Emit.Composed k (p.handlers payload out)
  orelse : ∀ x ∈ p.orelse, ∀ out, Emit.Composed k (x out)
  finally? : ∀ x ∈ p.finally?, ∀ out, Emit.Composed k (x out)

theorem guarded_composed {p : TryParts} (number : Nat) (target : CatchTarget) (text : String)
    (out : Buffer) (h : p.Composed k) : Composed k (guarded p number target text out) := by
  refine .bind (.edits (claimIdent_edits _)) fun payload => ?_
  refine .bind (.annotates (note_annotates rfl)) fun _ => ?_
  refine (h.handlers payload {}).handling.bind fun chain => ?_
  dsimp only
  split
  · exact .pure _
  · rename_i orelse horelse
    exact (Composed.hereditary.nested _ (h.orelse orelse horelse)).bind fun _ => .pure _

theorem tryBlock_composed {p : TryParts} (out : Buffer) (h : p.Composed k) :
    Composed k (tryBlock p out) := by
  refine .bind (.edits nextNumber_edits) fun n => .bind (.edits (claimIdent_edits _)) fun slot => ?_
  refine .bind (.catching (.inFrame (h.body {}))) fun text => ?_
  refine .ite ((guarded_composed n _ _ out h).bind fun out' => ?_)
    ((Composed.hereditary.unguarded _ out (fun n => .edits (undecided_edits n)) h.orelse).bind
      fun out' => ?_)
  all_goals
    split
    · rename_i finalbody hfinally
      exact Composed.hereditary.braced _ (h.finally? finalbody hfinally)
    · exact .pure _

end Bodies

/-! ## All statements -/

mutual

/-- **Lowering a statement is composed**, and so that `return`s and jumps leave it only where the
program says so. -/
theorem stmt_composed : ∀ (s : Stmt) (out : Buffer) {k : Latitude}, k.Permits (s.leaves ·) →
    Composed k (stmt s out)
  | .assign t v declared, out, _, _ => by
    rw [stmt]
    exact assign_composed t v declared out
  | .augAssign t op v, out, _, _ => by
    rw [stmt]
    exact augAssign_composed t op v out
  | .expr e, out, _, _ => by
    rw [stmt]
    exact Composed.hereditary.exprStmt out (renderExpr_composed e)
  | .ret none, out, _, h => by
    obtain rfl := Latitude.eq_free_of_permits h
    rw [stmt]
    exact (Composed.returning none).bind fun _ => .pure _
  | .ret (some v), out, _, h => by
    obtain rfl := Latitude.eq_free_of_permits h
    rw [stmt]
    exact returnValue_composed v out (renderExpr_composed v)
  | .ifElse test b e, out, _, h => by
    simp only [Stmt.leaves, Latitude.permits_or] at h
    rw [stmt]
    refine (renderCondition_composed test).bind fun t => ?_
    refine (Composed.flushPrelude out).bind fun out => ?_
    refine (Composed.hereditary.nested _ fun out => stmts_composed b out h.1).bind fun out => ?_
    exact elseTail_composed e out h.2
  | .whileLoop test b, out, _, h => by
    simp only [Stmt.leaves] at h
    rw [stmt]
    have hbody := fun out => stmts_composed b out (Latitude.inLoop_permits h)
    exact Composed.hereditary.whileLoop out (renderCondition_composed test)
      (fun out => .looping (Composed.hereditary.nested out hbody))
      fun out => .looping (.inFrame (hbody out))
  | .forLoop t i b, out, _, h => by
    simp only [Stmt.leaves] at h
    rw [stmt]
    exact Composed.hereditary.forLoop t b out (renderExpr_composed i) (Composed.rendering.argTexts i)
      fun out => .looping (stmts_composed b out (Latitude.inLoop_permits h))
  | .breakLoop, out, _, h | .continueLoop, out, _, h => by
    simp only [Stmt.leaves] at h
    rw [stmt]
    exact .jumping (Latitude.ne_held_of_permits h) _ out
  | .pass, out, _, _ => by
    rw [stmt]
    exact .pure _
  | .nonlocal _, out, _, _ => by
    rw [stmt]
    exact .pure _
  | .raise e, out, _, _ => by
    rw [stmt]
    exact .bind (.edits (raiseError_edits e)) fun error => .annotates (errorExit_annotates error out)
  | .assert test _, out, _, _ => by
    rw [stmt]
    exact Composed.hereditary.assertion out (renderCondition_composed test) trivial
  | .tryExcept b hs e f, out, _, h => by
    simp only [Stmt.leaves, Latitude.permits_or] at h
    obtain ⟨⟨⟨hbody, horelse⟩, hfinally⟩, hhandlers⟩ := h
    rw [stmt]
    refine .bind (.ite (unsupported_composed _) (.pure _)) fun _ =>
      tryBlock_composed out ⟨?_, ?_, ?_, ?_⟩
    · exact fun out => stmts_composed b out hbody
    · exact fun payload out => handlers_composed payload hs true out hhandlers
    · intro x hx out
      dsimp only at hx
      split at hx
      · cases hx
      · cases hx
        exact stmts_composed e out horelse
    · intro x hx out
      dsimp only at hx
      split at hx
      · cases hx
      · cases hx
        exact stmts_composed f out hfinally
  | .withItems items b, out, _, h => by
    simp only [Stmt.leaves] at h
    rw [stmt]
    exact Composed.hereditary.withBlock out (fun item _ => renderExpr_composed item.context)
      fun out => stmts_composed b out h
  | .functionDef f, out, _, _ => by
    rw [stmt]
    exact function_composed f out
  | .global names, out, _, _ => by
    rw [stmt]
    refine .bind (.edits (modifyCurrent_edits (fun _ => ?_) fun _ => ⟨rfl, rfl⟩)) fun _ => .pure _
    exact ⟨rfl, rfl, rfl, rfl, rfl, rfl⟩
  | .delete ts, out, _, _ => by
    rw [stmt]
    exact deleteAll_composed ts out

theorem stmts_composed : ∀ (ss : List Stmt) (out : Buffer) {k : Latitude},
    k.Permits (Stmt.anyLeaves · ss) → Composed k (stmts ss out)
  | [], out, _, _ => by
    rw [stmts]
    exact .pure _
  | s :: ss, out, _, h => by
    simp only [Stmt.anyLeaves, Latitude.permits_or] at h
    rw [stmts]
    exact (stmt_composed s out h.1).bind fun out => stmts_composed ss out h.2

theorem elseTail_composed : ∀ (ss : List Stmt) (out : Buffer) {k : Latitude},
    k.Permits (Stmt.anyLeaves · ss) → Composed k (elseTail ss out)
  | [], out, _, _ => by
    rw [elseTail]
    exact .pure _
  | s :: rest, out, k, h => by
    simp only [Stmt.anyLeaves, Latitude.permits_or] at h
    have hblock (hother : ∀ test b e, s = .ifElse test b e → rest = [] → False) :
        Composed k (elseTail (s :: rest) out) := by
      rw [elseTail]
      · refine (Composed.hereditary.nested _ fun out => ?_).bind fun _ => .pure _
        exact (stmt_composed s out h.1).bind fun out => stmts_composed rest out h.2
      · exact hother
    cases s with
    | ifElse test b e =>
      cases rest with
      | nil =>
        simp only [Stmt.leaves, Latitude.permits_or] at h
        rw [elseTail]
        refine Composed.hereditary.elseIf _ (renderCondition_composed test) fun out => ?_
        have hthen := Composed.hereditary.nested out fun out => stmts_composed b out h.1.1
        exact hthen.bind fun out => elseTail_composed e out h.1.2
      | cons => exact hblock (by simp)
    | _ => exact hblock (by simp)

theorem handlers_composed (payload : String) : ∀ (hs : List Handler) (first : Bool)
    (out : Buffer) {k : Latitude}, k.Permits (Handler.anyLeaves · hs) →
    Composed k (handlers payload hs first out)
  | [], first, out, _, _ => by
    rw [handlers]
    exact Composed.hereditary.reraise payload first out trivial
  | ⟨kind, name, body⟩ :: hs, first, out, _, h => by
    simp only [Handler.anyLeaves, Latitude.permits_or] at h
    rw [handlers]
    refine .bind (.inFrame ?_) fun out => ?_
    · refine .bind (.edits (bindHandler_edits name body payload _)) fun out => ?_
      exact (stmts_composed body out h.1).bind fun _ => .pure _
    · split
      · exact .bind (.edits (undecided_edits _)) fun _ => .pure _
      · exact handlers_composed payload hs false out h.2

theorem function_composed : ∀ (f : Function) (out : Buffer) {k : Latitude},
    Composed k (function f out)
  | ⟨name, params, vararg, kwarg, declaredResult, body, decorators, span⟩, out, _ => by
    rw [function]
    have hbody : ∀ out, Composed .free (stmts body out) := fun out =>
      stmts_composed body out (Latitude.free_permits _)
    refine (synthesize_composed _ true out hbody fun x hx => ?_).bind fun ⟨built, out⟩ =>
      .bind (.edits (decided_edits _)) fun _ => .pure _
    obtain ⟨e, -, rfl⟩ := List.mem_map.mp hx
    exact renderExpr_composed e

end

/-- Whatever a body says, it is composed. -/
theorem body_composed (ss : List Stmt) (out : Buffer) : Composed .free (stmts ss out) :=
  stmts_composed ss out (Latitude.free_permits _)

/-- **Converting a function of the module is composed.** -/
theorem topLevel_composed (f : Function) (signature : Option Signature) :
    Composed (.held false) (topLevel f signature) := by
  refine .bind (.edits (formalTypes_edits f f.name)) fun types => .inFrame ?_
  refine .bind (.edits (tell_edits _)) fun _ => ?_
  refine .bind (.edits (declareFormals_edits ..)) fun formals => ?_
  refine .bind (.edits scope_edits) fun s => .bind (.edits oracle_edits) fun o => ?_
  refine options_composed.bind fun _ => ?_
  refine (functionBody_composed f f.name formals _ (body_composed f.body)).bind fun written => ?_
  exact .bind (.edits (returnText_edits ..)) fun _ => .pure _

end Emit

end ClosureConversion
