import ClosureConversion.Emit.Stmt
import ClosureConversion.Proofs.Emit.Expressions

/-! # Statements as runs -/

set_option autoImplicit false

namespace ClosureConversion

namespace Emit

variable {α β : Type} {R W : Finset String} {c₀ : Context}

/-! ## Planned assignments and updates -/

theorem renderExpr_runs {e : Expr} (h : e.mentions .read ⊆ R) : Runs R W (renderExpr e) :=
  render_runs e none h

theorem renderOperand_runs {e : Expr} (h : e.mentions .read ⊆ R) : Runs R W (renderOperand e) :=
  Runs.hereditary.operand e (renderExpr_runs h)

theorem renderCondition_runs {e : Expr} (h : e.mentions .read ⊆ R) :
    Runs R W (renderCondition e) :=
  Runs.hereditary.condition e (renderExpr_runs h)

/-- What follows a plan acts on the scope in which the plan was made. -/
theorem planAssignment_runs {n : String} {ty : Ty} {f : Assignment → Emit β} (hn : n ∈ W)
    (hf : ∀ c₀ : Context, c₀.Stores n → Since c₀ R W (f (Assignment.plan c₀.scope n ty))) :
    Runs R W (planAssignment n ty >>= f) := by
  intro w c hc
  let c₁ : Context := { c with journal := c.journal.record (c.scope.resolveEvents n ty) }
  have hplanned : Run c c₁ := .still (.refl _) rfl (.refl _)
  have hready := hc.run hplanned
  exact hplanned.trans (hf c₁ (hready.stores n hn) w c₁ (.refl c₁) hready)

/-- Binding a name is its assignment, but for what is decided and told. -/
theorem bindName_run (a : Assignment) (text : String) (source : Option String) (out : Buffer)
    (w : Settings) (c : Context) :
    ∃ rest, Run (c.assigned a source rest) (bindName a text source out w c).2 := by
  unfold bindName Context.assigned Context.noteOf
  cases a.declares with
  | true => exact ⟨_, .still (.refl _) rfl (.of_same ⟨rfl, rfl, rfl, rfl, rfl, rfl⟩ rfl)⟩
  | false =>
    refine ⟨s!" = {text};", .still (.refl _) rfl (.of_same ⟨rfl, rfl, rfl, rfl, rfl, rfl⟩ rfl)⟩

/-- An assignment that was planned at the start of a run is carried out at its end. -/
theorem bindName_since {n : String} {ty : Ty} (text : String) (source : Option String)
    (out : Buffer) (hn : c₀.Stores n) :
    Since c₀ R W (bindName (Assignment.plan c₀.scope n ty) text source out) := by
  intro w c hrun _
  obtain ⟨rest, hrest⟩ := bindName_run (Assignment.plan c₀.scope n ty) text source out w c
  exact (Run.assign n ty source rest hn hrun).trans hrest

/-- An update is noted with what its name was bound to at the start of the run. -/
theorem updateLine_since {n ident : String} {isGlobal : Bool} (rest : String) (out : Buffer)
    (hn : c₀.Stores n) (hident : isGlobal = false → ident = c₀.scope.ident n) :
    Since c₀ R W (updateLine isGlobal n ident rest (c₀.scope.lookupInFunction n) out) := by
  intro w c hrun _
  cases isGlobal with
  | true => exact hrun
  | false =>
    rw [hident rfl]
    exact Run.update n rest hn hrun

/-- A combined value reads the variable and what is combined with it. -/
theorem combined_subset {n : String} {value : Expr} (op : BinOp) (hR : n ∈ R)
    (hvalue : value.mentions .read ⊆ R) : (Expr.binary op (.name n) value).mentions .read ⊆ R := by
  rw [Expr.mentions, Finset.union_subset_iff, Expr.mentions, Mention.only, if_pos rfl,
    Finset.singleton_subset_iff]
  exact ⟨hR, hvalue⟩

theorem writeUpdate_since {n ident : String} {isGlobal : Bool} (ty valueTy : Ty) (op : BinOp)
    {value : Expr} (out : Buffer) (hn : c₀.Stores n)
    (hident : isGlobal = false → ident = c₀.scope.ident n) (hR : n ∈ R)
    (hvalue : value.mentions .read ⊆ R) :
    Since c₀ R W (writeUpdate n ident isGlobal (c₀.scope.lookupInFunction n) ty valueTy op value
      out) := by
  unfold writeUpdate
  split
  · refine .bind (renderExpr_runs hvalue) fun v => .bind (flushPrelude_runs out) fun out => ?_
    exact updateLine_since _ out hn hident
  · refine Runs.since ((renderExpr_runs hvalue).bind fun v => options_runs.bind fun o => ?_)
    exact (fallibleIf_runs _ _).bind fun _ => (flushPrelude_runs out).bind fun _ => .pure _
  · refine .bind (renderExpr_runs (combined_subset _ hR hvalue)) fun v => ?_
    exact .bind (flushPrelude_runs out) fun out => updateLine_since _ out hn hident

theorem name_apply (n : String) (w : Settings) (c : Context) :
    name n w c = (.ok (if c.current.globals.contains n then n else c.scope.ident n), c) := by
  unfold name
  rw [bind_apply]
  show (if c.current.globals.contains n then pure n else scope >>= fun s => pure (s.ident n) :
    Emit String) w c = _
  split <;> rfl

/-- An update starts by looking its name up. -/
theorem updateName_apply (n : String) (op : BinOp) (value : Expr) (out : Buffer) (w : Settings)
    (c : Context) :
    updateName n op value out w c =
      writeUpdate n (if c.current.globals.contains n then n else c.scope.ident n)
        (c.current.globals.contains n) (c.scope.lookupInFunction n)
        (w.oracle.exprType (.name n) c.scope) (w.oracle.exprType value c.scope)
        op value out w c := by
  show (name n >>= _) w c = _
  rw [bind_apply, name_apply]
  rfl

theorem updateName_runs {n : String} (op : BinOp) {value : Expr} (out : Buffer) (hn : n ∈ W)
    (hR : n ∈ R) (hvalue : value.mentions .read ⊆ R) : Runs R W (updateName n op value out) := by
  intro w c hc
  rw [updateName_apply]
  refine writeUpdate_since _ _ op out (hc.stores n hn) (fun hglobal => ?_) hR hvalue w c
    (.refl c) hc
  rw [hglobal]
  rfl

/-! ## Assignments -/

mutual

theorem assignPart_runs : ∀ (t : Target) (access : String) (ty : Ty) (out : Buffer),
    t.mentions .read ⊆ R → t.names.toFinset ⊆ W → Runs R W (assignPart t access ty out)
  | .name n, access, ty, out, _, hW => by
    have hn : n ∈ W := hW (by simp [Target.names])
    rw [assignPart]
    refine (isDeclaredGlobal_runs n).bind fun isGlobal =>
      .ite ((decided_runs _).bind fun _ => .pure _) ?_
    exact planAssignment_runs hn fun c₀ hstores => bindName_since _ _ _ hstores
  | .tuple parts, access, ty, out, hR, hW => by
    rw [Target.mentions] at hR
    rw [Target.names] at hW
    rw [assignPart]
    exact (temporary_runs "tuple").bind fun tmp => assignParts_runs parts tmp ty 0 _ hR hW
  | .attribute e _, access, _, out, hR, _ => by
    rw [Target.mentions, Finset.union_subset_iff] at hR
    rw [assignPart]
    exact (renderOperand_runs hR.1).bind fun _ => (flushPrelude_runs out).bind fun _ => .pure _
  | .subscript e i, access, _, out, hR, _ => by
    simp only [Target.mentions, Finset.union_subset_iff] at hR
    rw [assignPart]
    exact Runs.hereditary.store access out (renderOperand_runs hR.1.1) (renderExpr_runs hR.1.2)
      trivial
  | .starred _, _, _, _, _, _ => by
    rw [assignPart]
    exact unsupported_runs _

theorem assignParts_runs : ∀ (ts : List Target) (source : String) (ty : Ty) (i : Nat)
    (out : Buffer), Target.allMentions .read ts ⊆ R → (Target.allNames ts).toFinset ⊆ W →
    Runs R W (assignParts ts source ty i out)
  | [], _, _, _, _, _, _ => by
    rw [assignParts]
    exact .pure _
  | t :: ts, source, ty, i, out, hR, hW => by
    rw [Target.allMentions, Finset.union_subset_iff] at hR
    rw [Target.allNames, List.toFinset_append, Finset.union_subset_iff] at hW
    rw [assignParts]
    refine (Runs.hereditary.partAccess source ty i trivial).bind fun access => ?_
    refine (assignPart_runs t access _ out hR.1 hW.1).bind fun out => ?_
    exact assignParts_runs ts source ty (i + 1) out hR.2 hW.2

end

theorem assignName_runs {n : String} {value : Expr} (declared : Option Ty) (out : Buffer)
    (hn : n ∈ W) (hvalue : value.mentions .read ⊆ R) :
    Runs R W (assignName n value declared out) := by
  refine (isDeclaredGlobal_runs n).bind fun isGlobal => .ite ?_ ?_
  · refine (decided_runs _).bind fun _ => (renderExpr_runs hvalue).bind fun v => ?_
    exact (flushPrelude_runs out).bind fun _ => .pure _
  split
  · rename_i params body
    rw [Expr.mentions, Finset.union_subset_iff] at hvalue
    have hbody : ∀ W, Runs (body.mentions .read) W (renderExpr body) := fun W =>
      renderExpr_runs (Finset.Subset.refl _)
    refine (lambda_runs params body hbody hvalue.2).bind fun built => ?_
    refine planAssignment_runs hn fun c₀ hstores => ?_
    exact .bind (flushPrelude_runs out) fun out => bindName_since _ _ _ hstores
  · refine (typeOf_runs value).bind fun ty => planAssignment_runs hn fun c₀ hstores => ?_
    refine .bind scope_runs fun s => .bind (render_runs value _ hvalue) fun text => ?_
    exact .bind (flushPrelude_runs out) fun out => bindName_since _ _ _ hstores

theorem assign_runs {target : Target} {value : Expr} (declared : Option Ty) (out : Buffer)
    (htarget : target.mentions .read ⊆ R) (hnames : target.names.toFinset ⊆ W)
    (hvalue : value.mentions .read ⊆ R) : Runs R W (assign target value declared out) := by
  match target, htarget, hnames with
  | .name n, _, hnames =>
    exact assignName_runs declared out (hnames (by simp [Target.names])) hvalue
  | .tuple parts, htarget, hnames =>
    rw [Target.mentions] at htarget
    rw [Target.names] at hnames
    refine (typeOf_runs value).bind fun ty => (renderExpr_runs hvalue).bind fun text => ?_
    refine (flushPrelude_runs out).bind fun out => (temporary_runs "tuple").bind fun tmp => ?_
    exact assignParts_runs parts tmp ty 0 _ htarget hnames
  | .attribute e attr, htarget, _ =>
    rw [Target.mentions, Finset.union_subset_iff] at htarget
    refine (renderExpr_runs hvalue).bind fun v => (renderOperand_runs htarget.1).bind fun o => ?_
    exact (flushPrelude_runs out).bind fun _ => .pure _
  | .subscript e i, htarget, _ =>
    simp only [Target.mentions, Finset.union_subset_iff] at htarget
    exact (renderExpr_runs hvalue).bind fun v => Runs.hereditary.store v out
      (renderOperand_runs htarget.1.1) (renderExpr_runs htarget.1.2) trivial
  | .starred t, _, _ => exact unsupported_runs _

theorem augAssignName_runs {n : String} (op : BinOp) {value : Expr} (out : Buffer) (hn : n ∈ W)
    (hR : n ∈ R) (hvalue : value.mentions .read ⊆ R) :
    Runs R W (augAssignName n op value out) := by
  refine (isDeclaredGlobal_runs n).bind fun isGlobal => ?_
  refine .ite ((decided_runs _).bind fun _ => updateName_runs op out hn hR hvalue) ?_
  refine (typeOf_runs _).bind fun ty => planAssignment_runs hn fun c₀ hstores => ?_
  split
  · refine .bind (renderExpr_runs (combined_subset op hR hvalue)) fun text => ?_
    exact .bind (flushPrelude_runs out) fun out => bindName_since _ _ _ hstores
  · exact .bind (decided_runs _) fun _ => (updateName_runs op out hn hR hvalue).since

theorem augAssign_runs {target : Target} (op : BinOp) {value : Expr} (out : Buffer)
    (hplain : target.plainName ⊆ R) (htarget : target.mentions .read ⊆ R)
    (hnames : target.names.toFinset ⊆ W) (hvalue : value.mentions .read ⊆ R) :
    Runs R W (augAssign target op value out) := by
  match target, hplain, htarget, hnames with
  | .name n, hplain, _, hnames =>
    exact augAssignName_runs op out (hnames (by simp [Target.names]))
      (hplain (Finset.mem_singleton_self n)) hvalue
  | .attribute e attr, _, htarget, hnames =>
    refine assign_runs none out htarget hnames ?_
    rw [Target.mentions, Finset.union_subset_iff] at htarget
    rw [Expr.mentions, Finset.union_subset_iff, Expr.mentions]
    exact ⟨htarget.1, hvalue⟩
  | .subscript e i, _, htarget, hnames =>
    refine assign_runs none out htarget hnames ?_
    rw [Target.mentions, Finset.union_subset_iff] at htarget
    rw [Expr.mentions, Finset.union_subset_iff, Expr.mentions]
    exact ⟨htarget.1, hvalue⟩
  | .tuple parts, _, _, _ => exact unsupported_runs _
  | .starred t, _, _, _ => exact unsupported_runs _

mutual

theorem delete_runs : ∀ (t : Target) (out : Buffer), t.mentions .read ⊆ R →
    Runs R W (delete t out)
  | .subscript e i, out, hR => by
    simp only [Target.mentions, Finset.union_subset_iff] at hR
    exact Runs.hereditary.delete_subscript out (renderOperand_runs hR.1.1)
      (renderExpr_runs hR.1.2) trivial
  | .name n, out, _ => by
    rw [delete]
    exact (tell_runs _).bind fun _ => .pure _
  | .tuple parts, out, hR => by
    rw [Target.mentions] at hR
    rw [delete]
    exact deleteAll_runs parts out hR
  | .attribute _ _, _, _ => by
    rw [delete]
    exact unsupported_runs _
  | .starred _, _, _ => by
    rw [delete]
    exact unsupported_runs _

theorem deleteAll_runs : ∀ (ts : List Target) (out : Buffer),
    Target.allMentions .read ts ⊆ R → Runs R W (deleteAll ts out)
  | [], _, _ => by
    rw [deleteAll]
    exact .pure _
  | t :: ts, out, hR => by
    rw [Target.allMentions, Finset.union_subset_iff] at hR
    rw [deleteAll]
    exact (delete_runs t out hR.1).bind fun out => deleteAll_runs ts out hR.2

end

/-! ## Single statements, given their bodies -/

section Bodies

variable {body : Buffer → Emit Buffer}

theorem raiseError_runs (e : Option Expr) : Runs R W (raiseError e) := by
  cases e with
  | none => exact current_runs.bind fun _ => .pure _
  | some e =>
    refine scope_runs.bind fun s => ?_
    dsimp only
    split <;> exact .pure _

/-! ## Errors caught -/

theorem bindHandler_runs (name : Option String) (stmts : List Stmt) (payload : String)
    (out : Buffer) : Runs R W (bindHandler name stmts payload out) := by
  cases name with
  | none => exact .pure _
  | some n =>
    refine (claimIdent_runs n).bind fun ident => ?_
    exact (declarePayload_runs n ident rfl rfl).bind fun _ => (tell_runs _).bind fun _ =>
      .pure _

/-- All parts of a `try` statement are runs. -/
structure TryParts.Run (R W : Finset String) (p : TryParts) : Prop where
  body : ∀ out, Runs R W (p.body out)
  handlers : ∀ payload out, Runs R W (p.handlers payload out)
  orelse : ∀ x ∈ p.orelse, ∀ out, Runs R W (x out)
  finally? : ∀ x ∈ p.finally?, ∀ out, Runs R W (x out)

theorem guarded_runs {p : TryParts} (number : Nat) (target : CatchTarget) (text : String)
    (out : Buffer) (h : p.Run R W) : Runs R W (guarded p number target text out) := by
  refine (claimIdent_runs _).bind fun payload => ?_
  refine (note_runs rfl).bind fun _ => (handling_runs (h.handlers payload {})).bind fun chain => ?_
  dsimp only
  split
  · exact .pure _
  · rename_i orelse horelse
    exact (Runs.hereditary.nested _ (h.orelse orelse horelse)).bind fun _ => .pure _

theorem tryBlock_runs {p : TryParts} (out : Buffer) (h : p.Run R W) :
    Runs R W (tryBlock p out) := by
  refine nextNumber_runs.bind fun n => (claimIdent_runs _).bind fun slot => ?_
  refine (catching_runs (inBlock_runs (h.body {}))).bind fun text => ?_
  refine .ite ((guarded_runs n _ _ out h).bind fun out' => ?_)
    ((Runs.hereditary.unguarded _ out undecided_runs h.orelse).bind fun out' => ?_)
  all_goals
    split
    · rename_i finalbody hfinally
      exact Runs.hereditary.braced _ (h.finally? finalbody hfinally)
    · exact .pure _

theorem checkFinally_runs (stmts : List Stmt) (hs : List Handler) (orelse finalbody : List Stmt) :
    Runs R W (checkFinally stmts hs orelse finalbody) :=
  .ite (unsupported_runs _) (.pure _)

end Bodies

/-! ## The tree -/

theorem mentions_subset_allMentions {e : Expr} {es : List Expr} (h : e ∈ es) (k : Mention) :
    e.mentions k ⊆ Expr.allMentions k es := by
  induction es with
  | nil => cases h
  | cons e' rest ih =>
    rw [Expr.allMentions]
    rcases List.mem_cons.mp h with rfl | hmem
    · exact Finset.subset_union_left
    · exact (ih hmem).trans Finset.subset_union_right

theorem context_subset_allMentions {item : WithItem} {items : List WithItem} (h : item ∈ items) :
    item.context.mentions .read ⊆ WithItem.allMentions .read items := by
  induction items with
  | nil => cases h
  | cons first rest ih =>
    obtain ⟨context, target⟩ := first
    have hrest : ∀ m, WithItem.allMentions .read rest ⊆ m ∪ WithItem.allMentions .read rest :=
      fun m => Finset.subset_union_right
    cases target <;> rw [WithItem.allMentions] <;> rcases List.mem_cons.mp h with rfl | hmem
    · exact Finset.subset_union_left
    · exact (ih hmem).trans (hrest _)
    · exact Finset.subset_union_left.trans Finset.subset_union_left
    · exact (ih hmem).trans (hrest _)

/-- A definition is a run of the body around it, if the function's own body is one. -/
theorem closure_runs {f : Function} (discardUnused : Bool) (out : Buffer)
    (hbody : ∀ out, Runs (Stmt.allMentions .read f.body) (Stmt.bindings f.body).toFinset
      (stmts f.body out)) (hR : f.mentions .read ⊆ R) :
    Runs R W (synthesize f (stmts f.body) (f.decorators.map renderExpr) discardUnused out) := by
  rw [Function.mentions_eq] at hR
  simp only [Finset.union_subset_iff] at hR
  obtain ⟨⟨⟨hdecorators, -⟩, hfree⟩, hwrites⟩ := hR
  rw [Mention.only, if_pos rfl] at hwrites
  refine synthesize_runs discardUnused out hbody (fun x hx => ?_) fun n hn => ?_
  · obtain ⟨e, he, rfl⟩ := List.mem_map.mp hx
    exact renderExpr_runs ((mentions_subset_allMentions he .read).trans hdecorators)
  · exact Finset.union_subset hfree hwrites hn.mem

mutual

theorem stmt_runs : ∀ (s : Stmt) (out : Buffer) {R W : Finset String}, s.mentions .read ⊆ R →
    (s.gather Stmt.bindsHere).toFinset ⊆ W → Runs R W (stmt s out)
  | .assign t v declared, out, R, W, hR, hW => by
    simp only [Stmt.mentions, Stmt.gather, Stmt.bindsHere, Finset.union_subset_iff] at hR hW
    rw [stmt]
    exact assign_runs declared out hR.2 hW hR.1
  | .augAssign t op v, out, R, W, hR, hW => by
    simp only [Stmt.mentions, Stmt.gather, Stmt.bindsHere, Finset.union_assoc,
      Finset.union_subset_iff] at hR hW
    rw [stmt]
    exact augAssign_runs op out hR.1 hR.2.2 hW hR.2.1
  | .expr e, out, R, W, hR, _ => by
    rw [stmt]
    exact Runs.hereditary.exprStmt out (renderExpr_runs hR)
  | .ret none, out, R, W, _, _ => by
    rw [stmt]
    exact (note_runs rfl).bind fun _ => .pure _
  | .ret (some v), out, R, W, hR, _ => by
    rw [stmt]
    exact returnValue_runs v out (renderExpr_runs hR)
  | .ifElse test b e, out, R, W, hR, hW => by
    simp only [Stmt.mentions, Stmt.gather, Stmt.bindsHere, List.nil_append, List.toFinset_append,
      Finset.union_assoc, Finset.union_subset_iff] at hR hW
    rw [stmt]
    refine (renderCondition_runs hR.1).bind fun t => (flushPrelude_runs out).bind fun out => ?_
    refine (Runs.hereditary.nested _ fun out => stmts_runs b out hR.2.1 hW.1).bind fun out => ?_
    exact elseTail_runs e out hR.2.2 hW.2
  | .whileLoop test b, out, R, W, hR, hW => by
    simp only [Stmt.mentions, Stmt.gather, Stmt.bindsHere, List.nil_append,
      Finset.union_subset_iff] at hR hW
    rw [stmt]
    have hbody : ∀ out, Runs R W (stmts b out) := fun out => stmts_runs b out hR.2 hW
    exact Runs.hereditary.whileLoop out (renderCondition_runs hR.1)
      (fun out => looping_runs (Runs.hereditary.nested out hbody))
      fun out => looping_runs (inBlock_runs (hbody out))
  | .forLoop t i b, out, R, W, hR, hW => by
    simp only [Stmt.mentions, Stmt.gather, Stmt.bindsHere, List.toFinset_append, Finset.union_assoc,
      Finset.union_subset_iff] at hR hW
    rw [stmt]
    exact Runs.hereditary.forLoop t b out (renderExpr_runs hR.1) (argTexts_runs i hR.1)
      fun out => looping_runs (stmts_runs b out hR.2.2 hW.2)
  | .breakLoop, out, R, W, _, _ | .continueLoop, out, R, W, _, _ => by
    rw [stmt]
    exact current_runs.bind fun _ => (note_runs rfl).bind fun _ => .pure _
  | .pass, out, R, W, _, _ => by
    rw [stmt]
    exact .pure _
  | .nonlocal _, out, R, W, _, _ => by
    rw [stmt]
    exact .pure _
  | .raise e, out, R, W, _, _ => by
    rw [stmt]
    exact (raiseError_runs e).bind fun error => errorExit_runs error out
  | .assert test _, out, R, W, hR, _ => by
    rw [Stmt.mentions, Finset.union_subset_iff] at hR
    rw [stmt]
    exact Runs.hereditary.assertion out (renderCondition_runs hR.1) trivial
  | .tryExcept b hs e f, out, R, W, hR, hW => by
    simp only [Stmt.mentions, Stmt.gather, Stmt.bindsHere, List.append_assoc, List.toFinset_append,
      Finset.union_assoc, Finset.union_subset_iff] at hR hW
    rw [stmt]
    refine (checkFinally_runs b hs e f).bind fun _ => tryBlock_runs out ⟨?_, ?_, ?_, ?_⟩
    · exact fun out => stmts_runs b out hR.1 hW.2.1
    · exact fun payload out => handlers_runs payload hs true out hR.2.1 hW.2.2.1
    · intro x hx out
      dsimp only at hx
      split at hx
      · cases hx
      · cases hx
        exact stmts_runs e out hR.2.2.1 hW.2.2.2.1
    · intro x hx out
      dsimp only at hx
      split at hx
      · cases hx
      · cases hx
        exact stmts_runs f out hR.2.2.2 hW.2.2.2.2
  | .withItems items b, out, R, W, hR, hW => by
    simp only [Stmt.mentions, Stmt.gather, Stmt.bindsHere, List.toFinset_append,
      Finset.union_subset_iff] at hR hW
    rw [stmt]
    refine Runs.hereditary.withBlock out (fun item hitem => ?_) fun out => ?_
    · exact renderExpr_runs ((context_subset_allMentions hitem).trans hR.1)
    · exact stmts_runs b out hR.2 hW.2
  | .functionDef f, out, R, W, hR, _ => by
    rw [Stmt.mentions] at hR
    rw [stmt]
    exact function_runs f out hR
  | .global names, out, R, W, _, _ => by
    rw [stmt]
    refine Runs.bind ?_ fun _ => .pure _
    exact modifyCurrent_runs fun _ => .of_same ⟨rfl, rfl, rfl, rfl, rfl, rfl⟩ rfl
  | .delete ts, out, R, W, hR, _ => by
    rw [Stmt.mentions] at hR
    rw [stmt]
    exact deleteAll_runs ts out hR

/-- **Writing a body is a run** of every function that knows the names it reads and counts the
names it binds. -/
theorem stmts_runs : ∀ (ss : List Stmt) (out : Buffer) {R W : Finset String},
    Stmt.allMentions .read ss ⊆ R → (Stmt.bindings ss).toFinset ⊆ W → Runs R W (stmts ss out)
  | [], out, R, W, _, _ => by
    rw [stmts]
    exact .pure _
  | s :: ss, out, R, W, hR, hW => by
    simp only [Stmt.allMentions, Stmt.bindings, Stmt.gatherAll, List.toFinset_append,
      Finset.union_subset_iff] at hR hW
    rw [stmts]
    exact (stmt_runs s out hR.1 hW.1).bind fun out => stmts_runs ss out hR.2 hW.2

theorem elseTail_runs : ∀ (ss : List Stmt) (out : Buffer) {R W : Finset String},
    Stmt.allMentions .read ss ⊆ R → (Stmt.bindings ss).toFinset ⊆ W → Runs R W (elseTail ss out)
  | [], out, R, W, _, _ => by
    rw [elseTail]
    exact .pure _
  | s :: rest, out, R, W, hR, hW => by
    simp only [Stmt.allMentions, Stmt.bindings, Stmt.gatherAll, List.toFinset_append,
      Finset.union_subset_iff] at hR hW
    have hblock (hother : ∀ test b e, s = .ifElse test b e → rest = [] → False) :
        Runs R W (elseTail (s :: rest) out) := by
      rw [elseTail]
      · refine (Runs.hereditary.nested _ fun out => ?_).bind fun _ => .pure _
        exact (stmt_runs s out hR.1 hW.1).bind fun out => stmts_runs rest out hR.2 hW.2
      · exact hother
    cases s with
    | ifElse test b e =>
      cases rest with
      | nil =>
        obtain ⟨hR, -⟩ := hR
        obtain ⟨hW, -⟩ := hW
        simp only [Stmt.mentions, Stmt.gather, Stmt.bindsHere, List.nil_append,
          List.toFinset_append, Finset.union_assoc, Finset.union_subset_iff] at hR hW
        rw [elseTail]
        refine Runs.hereditary.elseIf _ (renderCondition_runs hR.1) fun out => ?_
        refine (Runs.hereditary.nested _ fun out => stmts_runs b out hR.2.1 hW.1).bind fun out => ?_
        exact elseTail_runs e out hR.2.2 hW.2
      | cons => exact hblock (by simp)
    | _ => exact hblock (by simp)

theorem handlers_runs (payload : String) : ∀ (hs : List Handler) (first : Bool) (out : Buffer)
    {R W : Finset String}, Handler.allMentions .read hs ⊆ R →
    (Handler.gatherAll Stmt.bindsHere hs).toFinset ⊆ W → Runs R W (handlers payload hs first out)
  | [], first, out, R, W, _, _ => by
    rw [handlers]
    exact Runs.hereditary.reraise payload first out trivial
  | ⟨kind, name, body⟩ :: hs, first, out, R, W, hR, hW => by
    simp only [Handler.allMentions, Handler.gatherAll, List.toFinset_append, Finset.union_assoc,
      Finset.union_subset_iff] at hR hW
    rw [handlers]
    refine Runs.bind (inBlock_runs ?_) fun out => ?_
    · refine (bindHandler_runs name body payload _).bind fun out => ?_
      exact (stmts_runs body out hR.2.1 hW.1).bind fun _ => .pure _
    · split
      · exact (undecided_runs _).bind fun _ => .pure _
      · exact handlers_runs payload hs false out hR.2.2 hW.2

theorem function_runs : ∀ (f : Function) (out : Buffer) {R W : Finset String},
    f.mentions .read ⊆ R → Runs R W (function f out)
  | ⟨name, params, vararg, kwarg, declaredResult, body, decorators, span⟩, out, R, W, hR => by
    rw [function]
    refine (closure_runs true out (fun out => ?_) hR).bind fun _ =>
      (decided_runs _).bind fun _ => .pure _
    exact stmts_runs body out (Finset.Subset.refl _) (Finset.Subset.refl _)

end

end Emit

end ClosureConversion
