import ClosureConversion.Proofs.Effects.Backing
import ClosureConversion.Proofs.Effects.Verdicts

/-! # Effect analysis and what is written as failing -/

set_option autoImplicit false

namespace ClosureConversion

namespace Emit

variable {w : Settings} {P Q R : Operation → Prop}

/-! ## Errors caught -/

theorem bindHandler_backed (name : Option String) (body : List Stmt) (payload : String)
    (out : Buffer) : Backed w P (bindHandler name body payload out) := by
  unfold bindHandler
  split
  · exact .pure _
  · exact .still fun _ => rfl

/-- What follows the body of a `try` statement. -/
def afterBody (p : TryParts) (number : Nat) (target : CatchTarget) (out text : Buffer) :
    Emit Buffer := do
  let out ← if Text.mentions text.text target.slot then guarded p number target text.text out
    else unguarded p text.text out
  match p.finally? with
  | some finalbody => braced finalbody out
  | none => return out

theorem tryBlock_eq (p : TryParts) (out : Buffer) :
    tryBlock p out = nextNumber >>= fun n => claimIdent s!"__err{n}" >>= fun slot =>
      catching ⟨slot, s!"try{n}"⟩ (inBlock (p.body {})) >>=
        afterBody p n ⟨slot, s!"try{n}"⟩ out := rfl

/-- The handlers of the `try` body that was left last. -/
theorem guarded_backed {p : TryParts} {c d d₁ c₃ : Context} {target : CatchTarget}
    (number : Nat) (text : String) (out : Buffer) (henters : c.Enters d target)
    (hbody : d.Backed Q d₁)
    (hmarks : c₃.current.marks = { d₁.current with catches := c.current.catches }.marks)
    (hcounter : c₃.counter = d₁.counter)
    (hhandlers : ∀ payload, Backed w R (p.handlers payload {}))
    (hR : ∀ op, R op → P op ∨ ∀ op', Q op' → P op')
    (horelse : ∀ x ∈ p.orelse, ∀ out, Backed w P (x out)) :
    c.Backed P (guarded p number target text out w c₃).2 := by
  obtain ⟨payload, c₄, hclaim, hcurrent, hcounter₄⟩ : ∃ payload c₄,
      claimIdent s!"__exc{number}" w c₃ = (.ok payload, c₄) ∧ c₄.current = c₃.current ∧
        c₄.counter = c₃.counter := ⟨_, _, rfl, rfl, rfl⟩
  let c₅ : Context := { c₄ with current := { c₄.current with
    notes := .handled target payload :: c₄.current.notes } }
  have hhandling : c.Backed P (handling payload (p.handlers payload {}) w c₅).2 := by
    have hinside := henters.handled hbody (hhandlers payload { c₅ with current := { c₅.current with
      handlerErrors := payload :: c₅.current.handlerErrors } }) hR
      (by rw [hcurrent]; exact hmarks) (hcounter₄.trans hcounter) rfl rfl
    exact hinside.congr rfl rfl
  unfold guarded
  rw [bind_apply, hclaim]
  show c.Backed P ((handling payload (p.handlers payload {}) >>= _) w c₅).2
  refine Backed.andThen hhandling fun chain => ?_
  dsimp only
  split
  · exact .pure _
  · rename_i orelse hsome
    exact (Backed.hereditary.nested _ (horelse orelse hsome)).bind fun _ => .pure _

/-- **An error leaves a `try` statement for a reason in one of its parts.** A reason in the body
counts only if an error may leave the handlers that is none of their own. -/
theorem tryBlock_backed {p : TryParts} (out : Buffer) (hbody : Backed w Q (p.body {}))
    (hhandlers : ∀ payload, Backed w R (p.handlers payload {}))
    (hR : ∀ op, R op → P op ∨ ∀ op', Q op' → P op')
    (horelse : ∀ x ∈ p.orelse, ∀ out, Backed w P (x out))
    (hfinally : ∀ x ∈ p.finally?, ∀ out, Backed w P (x out)) : Backed w P (tryBlock p out) := by
  intro c
  obtain ⟨slot, c₂, hclaim, hcurrent, hcounter⟩ : ∃ slot c₂,
      claimIdent s!"__err{c.counter + 1}" w { c with counter := c.counter + 1 } = (.ok slot, c₂) ∧
        c₂.current = c.current ∧ c₂.counter = c.counter + 1 := ⟨_, _, rfl, rfl, rfl⟩
  let target : CatchTarget := ⟨slot, s!"try{c.counter + 1}"⟩
  let d : Context :=
    { c₂ with current := { c₂.current with catches := target :: c₂.current.catches } }
  have henters : c.Enters d target :=
    ⟨⟨c.counter + 1, Nat.lt_succ_self _, Nat.le_of_eq hcounter.symm, rfl⟩, by rw [← hcurrent]⟩
  have hinside := hbody.inFrame .block d
  rcases hwritten : inBlock (p.body {}) w d with ⟨r, d₁⟩
  rw [show inFrame .block (p.body {}) w d = (r, d₁) from hwritten] at hinside
  have htail : d₁.current.catches.tail = c.current.catches := by
    obtain ⟨faults, guards, hnoted, -⟩ := hinside
    rw [hnoted.catches, henters.catches]
    rfl
  let c₃ : Context := { d₁ with current := { d₁.current with catches := c.current.catches } }
  have hcatching : catching target (inBlock (p.body {})) w c₂ = (r, c₃) := by
    unfold catching
    rw [show inBlock (p.body {}) w _ = (r, d₁) from hwritten]
    dsimp only
    rw [htail]
  have hcaught : c.Backed P c₃ := henters.caught hinside rfl rfl
  rw [tryBlock_eq, bind_apply]
  show c.Backed P ((claimIdent s!"__err{c.counter + 1}" >>= _) w
    { c with counter := c.counter + 1 }).2
  rw [bind_apply, hclaim]
  show c.Backed P ((catching target (inBlock (p.body {})) >>= _) w c₂).2
  rw [bind_apply, hcatching]
  have hlast : ∀ out, Backed w P (match p.finally? with
      | some finalbody => braced finalbody out
      | none => return out) := fun out => by
    split
    · rename_i finalbody hsome
      exact Backed.hereditary.braced _ (hfinally finalbody hsome)
    · exact .pure _
  cases r with
  | error e => exact hcaught
  | ok text =>
    show c.Backed P (afterBody p (c.counter + 1) target out text w c₃).2
    unfold afterBody
    split
    · refine Backed.andThen ?_ hlast
      exact guarded_backed _ _ out henters hinside rfl rfl hhandlers hR horelse
    · refine Backed.andThen ?_ hlast
      exact hcaught.trans (Backed.hereditary.unguarded _ out (fun _ => .still fun _ => rfl) horelse c₃)

/-! ## Assignments and deletions -/

section Trees

variable {v : Effects.Setting} {calls : Effects.Calls}

theorem renderExpr_backed (e : Expr) (h : Covers w.options P (Effects.exprSites v calls e)) :
    Backed w P (renderExpr e) := render_backed e none h

theorem renderOperand_backed (e : Expr) (h : Covers w.options P (Effects.exprSites v calls e)) :
    Backed w P (renderOperand e) := Backed.hereditary.operand e (render_backed e none h)

theorem renderCondition_backed (e : Expr) (h : Covers w.options P (Effects.exprSites v calls e)) :
    Backed w P (renderCondition e) := Backed.hereditary.condition e (render_backed e none h)

theorem bindName_backed (a : Assignment) (text : String) (source : Option String) (out : Buffer) :
    Backed w P (bindName a text source out) := by
  refine .skip (fun _ => rfl) fun f => .skip (fun _ => rfl) fun read => .ite ?_ ?_
  · exact .still fun _ => rfl
  · exact .still fun _ => rfl

mutual

theorem assignPart_backed : ∀ (t : Target) (access : String) (ty : Ty) (out : Buffer),
    Covers w.options P (Effects.targetSites v calls t) → Backed w P (assignPart t access ty out)
  | .name n, access, ty, out, _ => by
    rw [assignPart]
    refine .skip (fun _ => rfl) fun isGlobal => .ite (.skip (fun _ => rfl) fun _ => .pure _) ?_
    exact .skip (fun _ => rfl) fun a => bindName_backed _ _ _ _
  | .tuple parts, access, ty, out, h => by
    rw [Effects.targetSites, covers_cons] at h
    rw [assignPart]
    exact (temporary_backed "tuple").bind fun tmp =>
      assignParts_backed parts tmp ty 0 _ (h.1 rfl) h.2
  | .attribute e _, access, _, out, h => by
    rw [Effects.targetSites] at h
    rw [assignPart]
    exact (renderOperand_backed e h).bind fun _ => (flushPrelude_backed out).bind fun _ => .pure _
  | .subscript e i, access, _, out, h => by
    simp only [Effects.targetSites, covers_append, covers_singleton] at h
    rw [assignPart]
    exact Backed.hereditary.store access out (renderOperand_backed e h.1.1)
      (renderExpr_backed i h.1.2) h.2
  | .starred _, _, _, _, _ => by
    rw [assignPart]
    exact .still fun _ => rfl

theorem assignParts_backed : ∀ (ts : List Target) (source : String) (ty : Ty) (i : Nat)
    (out : Buffer), P .part → Covers w.options P (Effects.targetsSites v calls ts) →
    Backed w P (assignParts ts source ty i out)
  | [], _, _, _, _, _, _ => by
    rw [assignParts]
    exact .pure _
  | t :: ts, source, ty, i, out, hpart, h => by
    rw [Effects.targetsSites, covers_append] at h
    rw [assignParts]
    refine (Backed.hereditary.partAccess source ty i fun _ => hpart).bind fun access => ?_
    refine (assignPart_backed t access _ out h.1).bind fun out => ?_
    exact assignParts_backed ts source ty (i + 1) out hpart h.2

end

theorem assignName_backed (n : String) (value : Expr) (declared : Option Ty) (out : Buffer)
    (h : Covers w.options P (Effects.exprSites v calls value)) :
    Backed w P (assignName n value declared out) := by
  refine .skip (fun _ => rfl) fun isGlobal => .ite ?_ ?_
  · refine .skip (fun _ => rfl) fun _ => (renderExpr_backed value h).bind fun v => ?_
    exact (flushPrelude_backed out).bind fun _ => .pure _
  split
  · rename_i params body
    have hbody : Backed w (fun _ => True) (renderExpr body) :=
      renderExpr_backed body (covers_true _ (Effects.exprSites v calls body))
    refine (lambda_backed params body hbody).bind fun built => .skip (fun _ => rfl) fun a => ?_
    exact (flushPrelude_backed out).bind fun out => bindName_backed _ _ _ _
  · refine .skip (fun _ => rfl) fun ty => .skip (fun _ => rfl) fun a => ?_
    refine .skip (fun _ => rfl) fun s => ?_
    refine (render_backed value _ h).bind fun text => ?_
    exact (flushPrelude_backed out).bind fun out => bindName_backed _ _ _ _

theorem assign_backed (target : Target) (value : Expr) (declared : Option Ty) (out : Buffer)
    (h : Covers w.options P (Effects.exprSites v calls value))
    (htarget : Covers w.options P (Effects.targetSites v calls target)) :
    Backed w P (assign target value declared out) := by
  cases target with
  | name n => exact assignName_backed n value declared out h
  | tuple parts =>
    rw [Effects.targetSites, covers_cons] at htarget
    refine .skip (fun _ => rfl) fun ty => (renderExpr_backed value h).bind fun text => ?_
    refine (flushPrelude_backed out).bind fun out => (temporary_backed "tuple").bind fun tmp => ?_
    exact assignParts_backed parts tmp ty 0 _ (htarget.1 rfl) htarget.2
  | «attribute» e attr =>
    rw [Effects.targetSites] at htarget
    refine (renderExpr_backed value h).bind fun v => ?_
    refine (renderOperand_backed e htarget).bind fun o => ?_
    exact (flushPrelude_backed out).bind fun _ => .pure _
  | subscript e i =>
    simp only [Effects.targetSites, covers_append, covers_singleton] at htarget
    exact (renderExpr_backed value h).bind fun v => Backed.hereditary.store v out
      (renderOperand_backed e htarget.1.1) (renderExpr_backed i htarget.1.2) htarget.2
  | starred t => exact .still fun _ => rfl

theorem updateName_backed (n : String) (op : BinOp) (value : Expr) (out : Buffer)
    (h : Covers w.options P (Effects.exprSites v calls value))
    (hcombined : Covers w.options P (Effects.exprSites v calls (.binary op (.name n) value)))
    (hextend : methodFails w.options "extend" = true → P (.extend n)) :
    Backed w P (updateName n op value out) := by
  have hline : ∀ isGlobal ident rest previous out,
      Backed w P (updateLine isGlobal n ident rest previous out) :=
    fun isGlobal _ _ _ _ => .ite (.still fun _ => rfl) (.pure _)
  refine .skip (fun _ => rfl) fun ty => .skip (fun _ => rfl) fun valueTy => ?_
  refine (Backed.hereditary.name n).bind fun ident => .skip (fun _ => rfl) fun isGlobal => ?_
  refine .skip (fun _ => rfl) fun s => ?_
  unfold writeUpdate
  split
  · exact (renderExpr_backed value h).bind fun v => (flushPrelude_backed out).bind fun out =>
      hline _ _ _ _ _
  · refine (renderExpr_backed value h).bind fun v => .options ?_
    refine (fallibleIf_backed hextend _).bind fun _ => ?_
    exact (flushPrelude_backed out).bind fun _ => .pure _
  · refine (renderExpr_backed _ hcombined).bind fun v => ?_
    exact (flushPrelude_backed out).bind fun out => hline _ _ _ _ _

/-- An update is backed by the sites of its value, of its target and of the place that is read. -/
theorem augAssign_backed (target : Target) (op : BinOp) (value : Expr) (seen : Bool) (out : Buffer)
    (h : Covers w.options P (Effects.exprSites v calls value))
    (htarget : Covers w.options P (Effects.targetSites v calls target))
    (hread : Covers w.options P (Effects.readSites target op value seen)) :
    Backed w P (augAssign target op value out) := by
  cases target with
  | name n =>
    simp only [Effects.readSites, covers_cons] at hread
    have hcombined :
        Covers w.options P (Effects.exprSites v calls (.binary op (.name n) value)) := by
      simp only [Effects.exprSites, covers_append, covers_singleton, List.nil_append]
      exact ⟨h, hread.1⟩
    have hupdate := updateName_backed n op value out h hcombined hread.2.1
    refine .skip (fun _ => rfl) fun isGlobal => .ite (.skip (fun _ => rfl) fun _ => hupdate) ?_
    refine .skip (fun _ => rfl) fun ty => .skip (fun _ => rfl) fun a => ?_
    split
    · refine (renderExpr_backed _ hcombined).bind fun text => ?_
      exact (flushPrelude_backed out).bind fun out => bindName_backed _ _ _ _
    · exact .skip (fun _ => rfl) fun _ => hupdate
  | «attribute» e attr =>
    simp only [Effects.readSites, covers_singleton] at hread
    refine assign_backed (.attribute e attr) (.binary op (.attribute e attr) value) none out ?_
      htarget
    rw [Effects.targetSites] at htarget
    simp only [Effects.exprSites, covers_append, covers_singleton]
    exact ⟨⟨htarget, h⟩, hread⟩
  | subscript e i =>
    simp only [Effects.readSites, covers_cons] at hread
    refine assign_backed (.subscript e i) (.binary op (.subscript e i) value) none out ?_ htarget
    simp only [Effects.targetSites, covers_append] at htarget
    simp only [Effects.exprSites, covers_append, covers_singleton]
    exact ⟨⟨⟨htarget.1, hread.2.1⟩, h⟩, hread.1⟩
  | tuple parts => exact .still fun _ => rfl
  | starred t => exact .still fun _ => rfl

mutual

theorem delete_backed : ∀ (t : Target) (out : Buffer),
    Covers w.options P (Effects.targetSites v calls t) → Backed w P (delete t out)
  | .subscript e i, out, h => by
    simp only [Effects.targetSites, covers_append, covers_singleton] at h
    exact Backed.hereditary.delete_subscript out (renderOperand_backed e h.1.1)
      (renderExpr_backed i h.1.2) h.2
  | .name n, out, _ => by
    rw [delete]
    exact .still fun _ => rfl
  | .tuple parts, out, h => by
    rw [Effects.targetSites, covers_cons] at h
    rw [delete]
    exact deleteAll_backed parts out h.2
  | .attribute _ _, _, _ | .starred _, _, _ => by
    rw [delete]
    exact .still fun _ => rfl

theorem deleteAll_backed : ∀ (ts : List Target) (out : Buffer),
    Covers w.options P (Effects.targetsSites v calls ts) → Backed w P (deleteAll ts out)
  | [], _, _ => by
    rw [deleteAll]
    exact .pure _
  | t :: ts, out, h => by
    rw [Effects.targetsSites, covers_append] at h
    rw [deleteAll]
    exact (delete_backed t out h.1).bind fun out => deleteAll_backed ts out h.2

end

/-! ## All statements -/

theorem covers_expr {es : List Expr} (h : Covers w.options P (Effects.exprsSites v calls es)) :
    ∀ e ∈ es, Covers w.options P (Effects.exprSites v calls e) := by
  induction es with
  | nil => exact List.forall_mem_nil _
  | cons e es ih =>
    rw [Effects.exprsSites, covers_append] at h
    exact List.forall_mem_cons.mpr ⟨h.1, ih h.2⟩

mutual

/-- **A statement is backed by its sites.** -/
theorem stmt_backed : ∀ (s : Stmt) (out : Buffer) {P : Operation → Prop},
    Covers w.options P (Effects.stmtSites v calls s) → Backed w P (stmt s out)
  | .assign t e declared, out, _, h => by
    rw [Effects.stmtSites, covers_append] at h
    rw [stmt]
    exact assign_backed t e declared out h.1 h.2
  | .augAssign t op e, out, _, h => by
    simp only [Effects.stmtSites, covers_append] at h
    rw [stmt]
    exact augAssign_backed t op e _ out h.1.1 h.1.2 h.2
  | .expr e, out, _, h => by
    rw [Effects.stmtSites] at h
    rw [stmt]
    exact Backed.hereditary.exprStmt out (renderExpr_backed e h)
  | .ret none, out, _, _ => by
    rw [stmt]
    exact .still fun _ => rfl
  | .ret (some e), out, _, h => by
    rw [Effects.stmtSites] at h
    rw [stmt]
    exact returnValue_backed e out (renderExpr_backed e h)
  | .ifElse test b e, out, _, h => by
    simp only [Effects.stmtSites, covers_append] at h
    rw [stmt]
    refine (renderCondition_backed test h.1.1).bind fun t => ?_
    refine (flushPrelude_backed out).bind fun out => ?_
    refine (Backed.hereditary.nested _ fun out => stmts_backed b out h.1.2).bind fun out => ?_
    exact elseTail_backed e out h.2
  | .whileLoop test b, out, _, h => by
    rw [Effects.stmtSites, covers_append] at h
    rw [stmt]
    have hbody := fun out => stmts_backed b out h.2
    exact Backed.hereditary.whileLoop out (renderCondition_backed test h.1)
      (fun out => .looping (Backed.hereditary.nested out hbody))
      fun out => .looping ((hbody out).inFrame .block)
  | .forLoop t i b, out, _, h => by
    rw [Effects.stmtSites, covers_append] at h
    rw [stmt]
    exact Backed.hereditary.forLoop t b out (renderExpr_backed i h.1) (argTexts_backed i h.1)
      fun out => .looping (stmts_backed b out h.2)
  | .breakLoop, out, _, _ | .continueLoop, out, _, _ => by
    rw [stmt]
    exact .still fun _ => rfl
  | .pass, out, _, _ | .nonlocal _, out, _, _ => by
    rw [stmt]
    exact .pure _
  | .raise e, out, _, h => by
    rw [Effects.stmtSites, covers_singleton] at h
    rw [stmt]
    refine .bind ?_ fun error => errorExit_backed (h rfl) error out
    cases e with
    | none => exact .still fun _ => rfl
    | some e =>
      refine .skip (fun _ => rfl) fun s => ?_
      dsimp only
      split <;> exact .pure _
  | .assert test _, out, _, h => by
    rw [Effects.stmtSites, covers_append, covers_singleton] at h
    rw [stmt]
    exact Backed.hereditary.assertion out (renderCondition_backed test h.1) h.2
  | .tryExcept b hs e f, out, P, h => by
    simp only [Effects.stmtSites, covers_append] at h
    obtain ⟨⟨⟨hbody, hhandlers⟩, horelse⟩, hfinally⟩ := h
    have hpart {ss : List Stmt} (hss : ∀ out, Backed w P (stmts ss out)) :
        ∀ x ∈ (if ss.isEmpty then none else some (stmts ss)), ∀ out, Backed w P (x out) := by
      intro x hx out
      split at hx
      · cases hx
      · cases hx
        exact hss out
    have horelse' := hpart fun out => stmts_backed e out horelse
    have hfinally' := hpart fun out => stmts_backed f out hfinally
    rw [stmt]
    refine .bind (.ite (.still fun _ => rfl) (.pure _)) fun _ => ?_
    cases hbare : hs.any fun h => h.kind.isNone with
    | true =>
      refine tryBlock_backed out (stmts_backed b _ (covers_true _ _)) (fun payload => ?_)
        (fun op hop => .inl hop) horelse' hfinally'
      exact handlers_backed payload hs true _ hhandlers fun hnone => by
        rw [hbare] at hnone
        cases hnone
    | false =>
      rw [hbare] at hbody
      refine tryBlock_backed (R := fun op => P op ∨ op = .rethrown) out (stmts_backed b _ hbody)
        (fun payload => ?_) (fun op hop => ?_) horelse' hfinally'
      · exact handlers_backed payload hs true _ (fun s hs hfails => .inl (hhandlers s hs hfails))
          fun _ => .inr rfl
      · exact hop.imp_right fun _ _ => id
  | .withItems items b, out, _, h => by
    rw [Effects.stmtSites, covers_append] at h
    rw [stmt]
    refine Backed.hereditary.withBlock out (fun item hitem => ?_) fun out => stmts_backed b out h.2
    exact renderExpr_backed _ fun s hs => h.1 s (List.mem_flatMap.mpr ⟨item, hitem, hs⟩)
  | .functionDef f, out, _, h => by
    rw [Effects.stmtSites] at h
    rw [stmt]
    refine function_backed f out fun s hs => ?_
    exact h ⟨s.operation, false⟩ (List.mem_map.mpr ⟨s, hs, rfl⟩)
  | .global names, out, _, _ => by
    rw [stmt]
    exact .still fun _ => rfl
  | .delete ts, out, _, h => by
    rw [Effects.stmtSites] at h
    rw [stmt]
    exact deleteAll_backed ts out h

theorem stmts_backed : ∀ (ss : List Stmt) (out : Buffer) {P : Operation → Prop},
    Covers w.options P (Effects.stmtsSites v calls ss) → Backed w P (stmts ss out)
  | [], out, _, _ => by
    rw [stmts]
    exact .pure _
  | s :: ss, out, _, h => by
    rw [Effects.stmtsSites, covers_append] at h
    rw [stmts]
    exact (stmt_backed s out h.1).bind fun out => stmts_backed ss out h.2

theorem elseTail_backed : ∀ (ss : List Stmt) (out : Buffer) {P : Operation → Prop},
    Covers w.options P (Effects.stmtsSites v calls ss) → Backed w P (elseTail ss out)
  | [], out, _, _ => by
    rw [elseTail]
    exact .pure _
  | s :: rest, out, P, h => by
    rw [Effects.stmtsSites, covers_append] at h
    have hblock (hother : ∀ test b e, s = .ifElse test b e → rest = [] → False) :
        Backed w P (elseTail (s :: rest) out) := by
      rw [elseTail]
      · refine (Backed.hereditary.nested _ fun out => ?_).bind fun _ => .pure _
        exact (stmt_backed s out h.1).bind fun out => stmts_backed rest out h.2
      · exact hother
    cases s with
    | ifElse test b e =>
      cases rest with
      | nil =>
        simp only [Effects.stmtSites, covers_append] at h
        rw [elseTail]
        refine Backed.hereditary.elseIf _ (renderCondition_backed test h.1.1.1) fun out => ?_
        refine (Backed.hereditary.nested _ fun out => stmts_backed b out h.1.1.2).bind fun out => ?_
        exact elseTail_backed e out h.1.2
      | cons => exact hblock (by simp)
    | _ => exact hblock (by simp)

/-- Only a chain without a bare handler raises errors again. -/
theorem handlers_backed (payload : String) : ∀ (hs : List Handler) (first : Bool)
    (out : Buffer) {P : Operation → Prop}, Covers w.options P (Effects.handlersSites v calls hs) →
    ((hs.any fun h => h.kind.isNone) = false → P .rethrown) →
    Backed w P (handlers payload hs first out)
  | [], first, out, _, _, hrethrown => by
    rw [handlers]
    exact Backed.hereditary.reraise payload first out fun _ => hrethrown rfl
  | ⟨kind, name, body⟩ :: hs, first, out, _, h, hrethrown => by
    rw [Effects.handlersSites, covers_append] at h
    rw [handlers]
    refine .bind (.inFrame ?_ _) fun out => ?_
    · refine (bindHandler_backed name body payload _).bind fun out => ?_
      exact (stmts_backed body out h.1).bind fun _ => .pure _
    · cases kind with
      | none => exact .skip (fun _ => rfl) fun _ => .pure _
      | some kind =>
        split
        · exact .skip (fun _ => rfl) fun _ => .pure _
        · refine handlers_backed payload hs false out h.2 fun hnone => hrethrown ?_
          simpa using hnone

theorem function_backed : ∀ (f : Function) (out : Buffer) {P : Operation → Prop},
    Covers w.options P (Effects.exprsSites v calls f.decorators) → Backed w P (function f out)
  | ⟨name, params, vararg, kwarg, declaredResult, body, decorators, span⟩, out, _, h => by
    rw [function]
    have hbody : ∀ out, Backed w (fun _ => True) (stmts body out) := fun out =>
      stmts_backed body out (covers_true _ _)
    refine (synthesize_backed _ true out hbody fun x hx => ?_).bind fun ⟨built, out⟩ =>
      .still fun _ => rfl
    obtain ⟨e, he, rfl⟩ := List.mem_map.mp hx
    exact renderExpr_backed e (covers_expr h e he)

end

end Trees

/-! ## Functions -/

variable {f : Function} {qualname : String} {formals : List Formal} {u : Usage}
  {body : Buffer → Emit Buffer} {c c' : Context} {written : WrittenBody}

/-- A function starts with nothing noted, so all that it ends with has been noted on the way. -/
theorem functionBody_explained (hbody : ∀ out, Backed w P (body out))
    (h : functionBody f qualname formals u body w c = (.ok written, c')) :
    (written.failed = true ↔ ∃ x ∈ written.faults, x.catches = []) ∧
      (written.failed = true → Explained P written.faults written.guards) := by
  obtain ⟨⟨state, formals⟩, c₁, hplan, hwritten⟩ := bind_eq_ok h
  obtain ⟨⟨out, ended⟩, c₂, hinside, hend⟩ := bind_eq_ok hwritten
  obtain ⟨c₃, hrun, rfl, -⟩ := inFunction_eq_ok hinside
  cases hplan
  cases hend
  obtain ⟨faults, guards, hnoted, hexplained⟩ := plannedBody_backed _ _ hbody _
  rw [hrun] at hnoted
  have hfaults : c₃.current.faults = faults := hnoted.faults_eq.trans (List.append_nil _)
  have hguards : c₃.current.guards = guards := hnoted.guards_eq.trans (List.append_nil _)
  have hfailed : c₃.current.failed = true ↔ ∃ x ∈ faults, x.catches = [] :=
    hnoted.failed.trans (or_iff_right Bool.false_ne_true)
  subst hfaults hguards
  exact ⟨hfailed, fun hmark => hexplained (List.forall_mem_nil _) (hfailed.mp hmark)⟩

/-- What the analysis lets pass is judged by types or bindings, or decorators stand in the body. -/
theorem judged_or_decorated {op : Operation} {s : Scope} {oracle : Oracle} {o : Options}
    (hfails : op.canFail o = true) (hsite : ⟨op, false⟩ ∈ bodySites f.body s oracle o) :
    op.isJudged = true ∨ ∃ g, f.Encloses g ∧ g.decorators ≠ [] := by
  by_cases hdecorated : ∃ g, f.Encloses g ∧ g.decorators ≠ []
  · exact .inr hdecorated
  · have hplain : ∀ s ∈ f.body, Effects.Undecorated s := fun s hs g hg =>
      Classical.not_not.mp fun hne => hdecorated ⟨g, ⟨s, hs, hg⟩, hne⟩
    refine .inl (Bool.of_not_eq_false fun hform => ?_)
    have hseen := Effects.stmtsSites_fair f.body hplain _ hsite hfails hform
    cases hseen

/-- **What a mark on a function says of effect analysis.** A function is marked as failing exactly
if some operation was written as failing outside every `try` body, and the analysis expects it to
fail exactly if it sees a site fail. A mark that the analysis does not expect has one of two causes.
An operation that can fail was written as failing and the analysis let it pass: it is one that is
judged by types or bindings, unless decorators stand in the body. Or handlers were written for a
`try` body in which nothing was written as failing. -/
theorem failed_seen_or_overlooked
    (h : functionBody f qualname formals u (stmts f.body) w c = (.ok written, c')) :
    (written.failed = true ↔ ∃ x ∈ written.faults, x.catches = []) ∧
    (mayFail f.body c.scope w.oracle w.options = true ↔
      ∃ s ∈ bodySites f.body c.scope w.oracle w.options, s.seen = true) ∧
    (written.failed = true →
      mayFail f.body c.scope w.oracle w.options = true ∨
      (∃ x ∈ written.faults, x.operation.canFail w.options = true ∧
        ⟨x.operation, false⟩ ∈ bodySites f.body c.scope w.oracle w.options ∧
        (x.operation.isJudged = true ∨ ∃ g, f.Encloses g ∧ g.decorators ≠ [])) ∨
      ∃ t ∈ written.guards, t.Idle written.faults) := by
  have hseen : mayFail f.body c.scope w.oracle w.options = true ↔
      ∃ s ∈ bodySites f.body c.scope w.oracle w.options, s.seen = true := by
    rw [mayFail_eq_any, List.any_eq_true]
  let Found (op : Operation) : Prop := op.canFail w.options = true ∧
    ∃ seen, ⟨op, seen⟩ ∈ bodySites f.body c.scope w.oracle w.options
  have hbacked : ∀ out, Backed w Found (stmts f.body out) := fun out =>
    stmts_backed f.body out fun s hs hfails => ⟨hfails, s.seen, hs⟩
  obtain ⟨hfailed, hexplained⟩ := functionBody_explained hbacked h
  refine ⟨hfailed, hseen, fun hmark => ?_⟩
  rcases hexplained hmark with ⟨x, hx, hfails, seen, hsite⟩ | hidle
  · cases seen with
    | true => exact .inl (hseen.mpr ⟨_, hsite, rfl⟩)
    | false => exact .inr (.inl ⟨x, hx, hfails, hsite, judged_or_decorated hfails hsite⟩)
  · exact .inr (.inr hidle)

/-- **A call of a parameter of unknown type**, as `x()` in `def f(x)`: it is written as failing, and
the analysis lets it pass. -/
theorem failed_seen_or_overlooked_unknownCallee :
    let w : Settings := ⟨({} : Table).oracle, {}⟩
    let f : Function :=
      { name := "f", params := [{ name := "x" }], body := [.expr (.call (.name "x") [] [])] }
    let formals : List Formal := [{ name := "x", ident := "x", ty := .unknown, used := true }]
    let c : Context :=
      { scope := ({} : Scope).pushFunction "f" ["x"]
          |>.declare "x" { ty := .unknown, kind := .param } }
    ∃ written c', functionBody f "f" formals (Usage.ofFunction f) (stmts f.body) w c =
        (.ok written, c') ∧
      written.failed = true ∧ mayFail f.body c.scope w.oracle w.options = false ∧
      ∃ x ∈ written.faults, x.operation.canFail w.options = true ∧
        ⟨x.operation, false⟩ ∈ bodySites f.body c.scope w.oracle w.options := by
  intro w f formals c
  have hresult : (functionBody f "f" formals (Usage.ofFunction f) (stmts f.body) w c).1.toOption.map
      (fun x => (x.failed, x.guards.length)) = some (true, 0) := by
    decide +kernel
  rcases hrun : functionBody f "f" formals (Usage.ofFunction f) (stmts f.body) w c with ⟨r, c'⟩
  rw [hrun] at hresult
  cases r with
  | error e => cases hresult
  | ok written =>
    obtain ⟨hfailed, hguards⟩ : written.failed = true ∧ written.guards.length = 0 :=
      Prod.mk.inj (Option.some.inj hresult)
    have hunseen : mayFail f.body c.scope w.oracle w.options = false := by
      decide +kernel
    refine ⟨written, c', rfl, hfailed, hunseen, ?_⟩
    obtain ⟨-, -, hcauses⟩ := failed_seen_or_overlooked hrun
    rcases hcauses hfailed with hseen | ⟨x, hx, hfails, hsite, -⟩ | ⟨t, ht, -⟩
    · rw [hunseen] at hseen
      cases hseen
    · exact ⟨x, hx, hfails, hsite⟩
    · rw [List.length_eq_zero_iff.mp hguards] at ht
      cases ht

end Emit

end ClosureConversion
