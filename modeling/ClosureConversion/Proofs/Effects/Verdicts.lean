import ClosureConversion.Proofs.Capture.Enclosing
import ClosureConversion.Proofs.Effects.Sites

/-! # Verdicts on the form of an operation -/

set_option autoImplicit false

namespace ClosureConversion

/-- Whether the verdict on an operation depends on types or bindings, which can change while the
body is written. -/
def Operation.isJudged : Operation → Bool
  | .binary op _ _ => op = .add || op = .mult
  | .index _ _ | .named _ | .computed _ | .entry _ | .part | .extend _ => true
  | .method _ | .allocation | .raised | .rethrown => false

/-- The verdict can be wrong only by the types or bindings it is based on. -/
def Site.Fair (o : Options) (s : Site) : Prop :=
  s.operation.canFail o = true → s.operation.isJudged = false → s.seen = true

namespace Site

variable {o : Options}

theorem fair_of_judged {op : Operation} (h : op.isJudged = true) (seen : Bool) :
    Site.Fair o ⟨op, seen⟩ := by
  intro _ hform
  rw [h] at hform
  cases hform

theorem fair_binary {op : BinOp} {left right : Expr} {seen : Bool}
    (h : divisionFails op right = true → seen = true) :
    Site.Fair o ⟨.binary op left right, seen⟩ := by
  intro hfails hform
  refine h ?_
  cases op with
  | add | mult => cases hform
  | _ => simpa [Operation.canFail, concatFails] using hfails

theorem fair_method (name : String) : Site.Fair o ⟨.method name, methodFails o name⟩ :=
  fun hfails _ => hfails

theorem fair_allocation : Site.Fair o ⟨.allocation, o.allocationFails⟩ := fun hfails _ => hfails

end Site

namespace Effects

open Site

variable {w : Setting} {calls : Calls}

/-! ## Expressions -/

mutual

theorem exprSites_fair : ∀ (e : Expr), ∀ s ∈ exprSites w calls e, s.Fair w.options
  | .name _ | .constant _ | .lambda _ _ => List.forall_mem_nil _
  | .binary op l r => by
    simp only [exprSites, List.forall_mem_append, List.forall_mem_singleton]
    refine ⟨⟨exprSites_fair l, exprSites_fair r⟩, fair_binary fun h => ?_⟩
    rw [h, Bool.true_or]
  | .unary _ e | .attribute e _ | .starred e => by
    rw [exprSites]
    exact exprSites_fair e
  | .boolean _ es | .tuple es => by
    rw [exprSites]
    exact exprsSites_fair es
  | .compare l _ es => by
    simp only [exprSites, List.forall_mem_append]
    exact ⟨exprSites_fair l, exprsSites_fair es⟩
  | .call f args kws => by
    have hcallee := exprSites_fair f
    cases f with
    | name n =>
      simp only [exprSites, List.forall_mem_append, List.forall_mem_singleton]
      exact ⟨⟨exprsSites_fair args, keywordsSites_fair kws⟩, fair_of_judged rfl _⟩
    | «attribute» e method =>
      rw [exprSites] at hcallee
      simp only [exprSites, List.forall_mem_append, List.forall_mem_singleton]
      exact ⟨⟨exprsSites_fair args, keywordsSites_fair kws⟩, hcallee, fair_method method⟩
    | _ =>
      rw [exprSites, List.forall_mem_append, List.forall_mem_append]
      · refine ⟨⟨exprsSites_fair args, keywordsSites_fair kws⟩, ?_⟩
        rw [List.forall_mem_append, List.forall_mem_singleton]
        exact ⟨hcallee, fair_of_judged rfl _⟩
      all_goals nofun
  | .subscript e i => by
    simp only [exprSites, List.forall_mem_append, List.forall_mem_singleton]
    exact ⟨⟨exprSites_fair e, exprSites_fair i⟩, fair_of_judged rfl _⟩
  | .list es | .set es => by
    simp only [exprSites, List.forall_mem_append, List.forall_mem_singleton]
    exact ⟨exprsSites_fair es, fair_allocation⟩
  | .dict ks vs => by
    simp only [exprSites, List.forall_mem_append, List.forall_mem_singleton]
    exact ⟨⟨exprsSites_fair ks, exprsSites_fair vs⟩, fair_allocation⟩
  | .ifElse t b e => by
    simp only [exprSites, List.forall_mem_append]
    exact ⟨⟨exprSites_fair t, exprSites_fair b⟩, exprSites_fair e⟩
  | .listComp e gs | .setComp e gs | .generatorExp e gs => by
    simp only [exprSites, List.forall_mem_append, List.forall_mem_singleton]
    exact ⟨⟨generatorsSites_fair gs, exprSites_fair e⟩, fair_allocation⟩
  | .dictComp k v gs => by
    simp only [exprSites, List.forall_mem_append, List.forall_mem_singleton]
    exact ⟨⟨⟨generatorsSites_fair gs, exprSites_fair k⟩, exprSites_fair v⟩, fair_allocation⟩
  | .format ps => by
    simp only [exprSites, List.forall_mem_append, List.forall_mem_singleton]
    exact ⟨partsSites_fair ps, fair_allocation⟩

theorem exprsSites_fair : ∀ (es : List Expr), ∀ s ∈ exprsSites w calls es, s.Fair w.options
  | [] => List.forall_mem_nil _
  | e :: es => by
    rw [exprsSites, List.forall_mem_append]
    exact ⟨exprSites_fair e, exprsSites_fair es⟩

theorem keywordsSites_fair : ∀ (ks : List Keyword), ∀ s ∈ keywordsSites w calls ks, s.Fair w.options
  | [] => List.forall_mem_nil _
  | ⟨_, e⟩ :: ks => by
    rw [keywordsSites, List.forall_mem_append]
    exact ⟨exprSites_fair e, keywordsSites_fair ks⟩

theorem generatorsSites_fair :
    ∀ (gs : List Generator), ∀ s ∈ generatorsSites w calls gs, s.Fair w.options
  | [] => List.forall_mem_nil _
  | ⟨_, iter, ifs⟩ :: gs => by
    simp only [generatorsSites, List.forall_mem_append]
    exact ⟨⟨exprSites_fair iter, exprsSites_fair ifs⟩, generatorsSites_fair gs⟩

theorem partsSites_fair : ∀ (ps : List FormatPart), ∀ s ∈ partsSites w calls ps, s.Fair w.options
  | [] => List.forall_mem_nil _
  | .literal _ :: ps => by
    rw [partsSites]
    exact partsSites_fair ps
  | .interpolation e :: ps => by
    rw [partsSites, List.forall_mem_append]
    exact ⟨exprSites_fair e, partsSites_fair ps⟩

end

mutual

theorem targetSites_fair : ∀ (t : Target), ∀ s ∈ targetSites w calls t, s.Fair w.options
  | .name _ => List.forall_mem_nil _
  | .tuple ts => by
    rw [targetSites, List.forall_mem_cons]
    exact ⟨fair_of_judged rfl _, targetsSites_fair ts⟩
  | .starred t => by
    rw [targetSites]
    exact targetSites_fair t
  | .attribute e _ => by
    rw [targetSites]
    exact exprSites_fair e
  | .subscript e i => by
    simp only [targetSites, List.forall_mem_append, List.forall_mem_singleton]
    exact ⟨⟨exprSites_fair e, exprSites_fair i⟩, fair_of_judged rfl _⟩

theorem targetsSites_fair : ∀ (ts : List Target), ∀ s ∈ targetsSites w calls ts, s.Fair w.options
  | [] => List.forall_mem_nil _
  | t :: ts => by
    rw [targetsSites, List.forall_mem_append]
    exact ⟨targetSites_fair t, targetsSites_fair ts⟩

end

theorem readSites_fair (t : Target) {op : BinOp} {v : Expr} {seen : Bool}
    (h : divisionFails op v = true → seen = true) :
    ∀ s ∈ readSites t op v seen, s.Fair w.options := by
  cases t with
  | name n =>
    exact List.forall_mem_cons.mpr ⟨fair_binary h, List.forall_mem_singleton.mpr
      (fair_of_judged rfl _)⟩
  | «attribute» e attr => exact List.forall_mem_singleton.mpr (fair_binary h)
  | subscript e i =>
    exact List.forall_mem_cons.mpr ⟨fair_binary h, List.forall_mem_singleton.mpr
      (fair_of_judged rfl _)⟩
  | tuple | starred => exact List.forall_mem_singleton.mpr (fair_of_judged rfl _)

/-! ## Statements -/

/-- No function that the statement defines has decorators. -/
def Undecorated (s : Stmt) : Prop := ∀ g, s.Defines g → g.decorators = []

theorem Undecorated.block {s : Stmt} {block : List Stmt} (h : Undecorated s)
    (hblock : block ∈ s.blocks) : ∀ t ∈ block, Undecorated t :=
  fun _ ht g hg => h g (.inside hblock ht hg)

mutual

theorem stmtSites_fair :
    ∀ (s : Stmt), Undecorated s → ∀ x ∈ stmtSites w calls s, x.Fair w.options
  | .raise _, _ => List.forall_mem_singleton.mpr fun _ _ => rfl
  | .assert t _, _ => by
    rw [stmtSites, List.forall_mem_append, List.forall_mem_singleton]
    exact ⟨exprSites_fair t, fun _ _ => rfl⟩
  | .assign t e _, _ => by
    rw [stmtSites, List.forall_mem_append]
    exact ⟨exprSites_fair e, targetSites_fair t⟩
  | .augAssign t op e, _ => by
    simp only [stmtSites, List.forall_mem_append]
    refine ⟨⟨exprSites_fair e, targetSites_fair t⟩, readSites_fair t fun h => ?_⟩
    rw [h, Bool.true_or]
  | .expr e, _ | .ret (some e), _ => by
    rw [stmtSites]
    exact exprSites_fair e
  | .ret none, _ | .breakLoop, _ | .continueLoop, _ | .pass, _ | .nonlocal _, _ | .global _, _ =>
    List.forall_mem_nil _
  | .ifElse t b e, h => by
    simp only [stmtSites, List.forall_mem_append]
    exact ⟨⟨exprSites_fair t, stmtsSites_fair b (h.block (by simp [Stmt.blocks]))⟩,
      stmtsSites_fair e (h.block (by simp [Stmt.blocks]))⟩
  | .whileLoop t b, h => by
    rw [stmtSites, List.forall_mem_append]
    exact ⟨exprSites_fair t, stmtsSites_fair b (h.block (by simp [Stmt.blocks]))⟩
  | .forLoop _ i b, h => by
    rw [stmtSites, List.forall_mem_append]
    exact ⟨exprSites_fair i, stmtsSites_fair b (h.block (by simp [Stmt.blocks]))⟩
  | .tryExcept b hs e f, h => by
    simp only [stmtSites, List.forall_mem_append]
    have hbody := stmtsSites_fair b (h.block (by simp [Stmt.blocks]))
    refine ⟨⟨⟨?_, handlersSites_fair hs fun handler hmem => ?_⟩, ?_⟩, ?_⟩
    · split
      · exact List.forall_mem_nil _
      · exact hbody
    · exact h.block (by simpa [Stmt.blocks] using .inr (.inr (.inr ⟨handler, hmem, rfl⟩)))
    · exact stmtsSites_fair e (h.block (by simp [Stmt.blocks]))
    · exact stmtsSites_fair f (h.block (by simp [Stmt.blocks]))
  | .withItems items b, h => by
    rw [stmtSites, List.forall_mem_append]
    refine ⟨fun s hs => ?_, stmtsSites_fair b (h.block (by simp [Stmt.blocks]))⟩
    obtain ⟨item, -, hmem⟩ := List.mem_flatMap.mp hs
    exact exprSites_fair item.context s hmem
  | .functionDef f, h => by
    rw [stmtSites, h f (.here f)]
    exact List.forall_mem_nil _
  | .delete ts, _ => by
    rw [stmtSites]
    exact targetsSites_fair ts

/-- **What fails by its form is seen.** -/
theorem stmtsSites_fair : ∀ (ss : List Stmt), (∀ s ∈ ss, Undecorated s) →
    ∀ x ∈ stmtsSites w calls ss, x.Fair w.options
  | [], _ => List.forall_mem_nil _
  | s :: ss, h => by
    rw [List.forall_mem_cons] at h
    rw [stmtsSites, List.forall_mem_append]
    exact ⟨stmtSites_fair s h.1, stmtsSites_fair ss h.2⟩

theorem handlersSites_fair : ∀ (hs : List Handler), (∀ h ∈ hs, ∀ s ∈ h.body, Undecorated s) →
    ∀ x ∈ handlersSites w calls hs, x.Fair w.options
  | [], _ => List.forall_mem_nil _
  | ⟨_, _, body⟩ :: hs, h => by
    rw [List.forall_mem_cons] at h
    rw [handlersSites, List.forall_mem_append]
    exact ⟨stmtsSites_fair body h.1, handlersSites_fair hs h.2⟩

end

end Effects

end ClosureConversion
