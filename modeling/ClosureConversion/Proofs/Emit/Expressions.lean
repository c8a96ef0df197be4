import ClosureConversion.Emit.Render
import ClosureConversion.Proofs.Emit.Nested

/-! # Expressions as runs -/

set_option autoImplicit false

namespace ClosureConversion

namespace Emit

variable {α β : Type} {R W : Finset String}

/-! ## Comprehensions -/

/-- The innermost line of a comprehension. -/
theorem generatorLoops_nil_runs {insert : Emit String} (used : List String) (out : Buffer)
    (h : Runs R W insert) : Runs R W (generatorLoops insert used [] out) :=
  (isolated_runs h).bind fun _ => .pure _

/-- One loop of a comprehension: everything inside it knows the names that it binds. -/
theorem generatorLoops_cons_runs {insert : Emit String} {g : GeneratorParts}
    {rest : List GeneratorParts} (used : List String) (out : Buffer) (hiter : Runs R W g.iterText)
    (hargs : ∀ x ∈ g.argTexts, Runs R W x)
    (hifs : ∀ p ∈ g.ifs, Runs (R ∪ g.target.names.toFinset) W p.2)
    (hrest : ∀ out, Runs (R ∪ g.target.names.toFinset) W (generatorLoops insert used rest out)) :
    Runs R W (generatorLoops insert used (g :: rest) out) := by
  refine (Runs.hereditary.openLoop g.target g.iter used out hiter hargs).bind_binds
    (openLoop_binds g.target g.iter used out hiter hargs) fun ⟨braces, out⟩ => ?_
  exact (Runs.hereditary.conditions hifs out).bind fun out => (hrest out).bind fun _ => .pure _

/-! ## Lambdas -/

theorem returnValue_runs (value : Expr) {text : Emit String} (out : Buffer)
    (h : Runs R W text) : Runs R W (returnValue value text out) := by
  refine (typeOf_runs value).bind fun ty => ?_
  have hrecord : Runs R W (modifyCurrent (·.recordReturn ty)) :=
    modifyCurrent_runs fun _ => .of_same ⟨rfl, rfl, rfl, rfl, rfl, rfl⟩ rfl
  refine hrecord.bind fun _ => ?_
  split
  · exact (note_runs rfl).bind fun _ => .pure _
  · refine h.bind fun _ => (flushPrelude_runs out).bind fun _ => ?_
    exact (note_runs rfl).bind fun _ => .pure _

/-- **A lambda is a run**, if its own body is one. -/
theorem lambda_runs (params : List Param) (body : Expr) {text : Emit String}
    (hbody : ∀ W, Runs (body.mentions .read) W text)
    (hR : body.mentions .read \ (params.map Param.name).toFinset ⊆ R) :
    Runs R W (lambda params body text) := by
  refine current_runs.bind fun state => ?_
  refine (synthesize_runs false {} (fun out => ?_) (fun x hx => ?_) fun n hn => ?_).bind
    fun built => ?_
  · refine (returnValue_runs body out (hbody _)).mono ?_ (Finset.Subset.refl _)
    exact Finset.subset_union_left
  · cases hx
  · -- a body that only returns binds nothing and writes nothing through
    have hmem := hn.mem
    simp only [Function.freeWrites_eq, Stmt.nonlocals, Stmt.gatherAll, Stmt.gather,
      Stmt.nonlocalsHere, Stmt.allInnerWrites, Stmt.innerWrites, Stmt.allMentions, Stmt.mentions,
      Expr.optMentions, ownNames, Function.formals, Finset.mem_union, Finset.mem_sdiff] at hmem
    refine hR (Finset.mem_sdiff.mpr ?_)
    simp at hmem ⊢
    tauto
  · exact (pushPrelude_runs _).bind fun _ => .pure _

/-! ## The tree -/

theorem subset_union_of_sdiff {A B : Finset String} (h : A \ B ⊆ R) : A ⊆ R ∪ B := by
  intro n hn
  by_cases hB : n ∈ B
  · exact Finset.mem_union_right R hB
  · exact Finset.mem_union_left B (h (Finset.mem_sdiff.mpr ⟨hn, hB⟩))

theorem allMentions_subset_argMentions (es : List Expr) :
    Expr.allMentions .read es ⊆ Expr.argMentions .read es := by
  induction es with
  | nil => exact Finset.Subset.refl _
  | cons e rest ih =>
    rw [Expr.allMentions, Expr.argMentions]
    exact Finset.union_subset_union Finset.subset_union_right ih

mutual

/-- **Rendering an expression is a run** of every body that knows the names it reads. -/
theorem render_runs : ∀ (e : Expr) (expected : Option Ty) {R W : Finset String},
    e.mentions .read ⊆ R → Runs R W (render e expected)
  | .name n, _, R, W, _ => by
    rw [render]
    exact Runs.hereditary.name n
  | .constant c, _, R, W, _ => by
    rw [render]
    exact .pure _
  | .binary op l r, _, R, W, h => by
    rw [Expr.mentions, Finset.union_subset_iff] at h
    rw [render]
    exact Runs.hereditary.binary (render_runs l none h.1) (render_runs r none h.2) trivial
  | .unary op e, _, R, W, h => by
    rw [Expr.mentions] at h
    rw [render]
    exact (Runs.hereditary.operand e (render_runs e none h)).bind fun _ => .pure _
  | .boolean op es, _, R, W, h => by
    rw [Expr.mentions] at h
    rw [render]
    exact Runs.hereditary.boolean op (operands_runs es h)
  | .compare l ops es, _, R, W, h => by
    rw [Expr.mentions, Finset.union_subset_iff] at h
    rw [render]
    exact Runs.hereditary.compare l ops es (render_runs l none h.1) (renders_runs es h.2)
  | .call f args kws, _, R, W, h => by
    simp only [Expr.mentions, Finset.union_subset_iff] at h
    obtain ⟨⟨⟨hf, -⟩, hargs⟩, hkws⟩ := h
    have hargs' := (allMentions_subset_argMentions args).trans hargs
    rw [render]
    refine (Runs.hereditary.positional fun p hp => ?_).bind fun texts => ?_
    · exact renders_runs args hargs' _ (List.of_mem_zip hp).2
    refine (Runs.hereditary.keywordArgs (keywordTexts_runs kws hkws)).bind fun more => ?_
    have hvalue : Runs R W (render f none) := render_runs f none hf
    cases f with
    | name n => exact Runs.hereditary.namedCall _ trivial
    | «attribute» e method =>
      rw [Expr.mentions] at hf
      exact Runs.hereditary.methodCall e _ (render_runs e none hf) trivial
    | _ => exact Runs.hereditary.valueCall _ hvalue trivial
  | .attribute e _, _, R, W, h => by
    rw [Expr.mentions] at h
    rw [render]
    exact (Runs.hereditary.operand e (render_runs e none h)).bind fun _ => .pure _
  | .subscript e i, _, R, W, h => by
    rw [Expr.mentions, Finset.union_subset_iff] at h
    rw [render]
    exact Runs.hereditary.subscript (render_runs e none h.1) (render_runs i none h.2) trivial
  | .tuple es, _, R, W, h => by
    rw [Expr.mentions] at h
    rw [render]
    exact (Runs.hereditary.sequence (renders_runs es h)).bind fun _ => .pure _
  | .list es, _, R, W, h | .set es, _, R, W, h => by
    rw [Expr.mentions] at h
    rw [render]
    exact (Runs.hereditary.collectionType _ _).bind fun _ =>
      Runs.hereditary.elements _ _ (renders_runs es h) trivial
  | .dict ks vs, _, R, W, h => by
    rw [Expr.mentions, Finset.union_subset_iff] at h
    rw [render]
    exact (Runs.hereditary.collectionType _ _).bind fun ty =>
      Runs.hereditary.dict ty (renders_runs ks h.1) (renders_runs vs h.2) trivial
  | .ifElse t b e, _, R, W, h => by
    simp only [Expr.mentions, Finset.union_subset_iff] at h
    obtain ⟨⟨ht, hb⟩, he⟩ := h
    rw [render]
    refine (Runs.hereditary.condition t (render_runs t none ht)).bind fun test => ?_
    refine (Runs.hereditary.operand b (render_runs b none hb)).bind fun body => ?_
    exact (Runs.hereditary.operand e (render_runs e none he)).bind fun _ => .pure _
  | .lambda ps b, _, R, W, h => by
    rw [Expr.mentions, Finset.union_subset_iff] at h
    rw [render]
    refine (lambda_runs ps b (fun W => ?_) h.2).bind fun _ => .pure _
    exact render_runs b none (Finset.Subset.refl _)
  | .listComp e gs, _, R, W, h | .generatorExp e gs, _, R, W, h | .setComp e gs, _, R, W, h => by
    rw [Expr.mentions, Finset.union_subset_iff] at h
    rw [render]
    refine (Runs.hereditary.collectionType _ _).bind fun ty =>
      Runs.hereditary.comprehension _ _ gs (fun acc => ?_) trivial
    refine generatorLoops_runs gs h.1 (Runs.hereditary.insertion ?_ trivial)
    exact (render_runs e none (subset_union_of_sdiff h.2)).bind fun _ => .pure _
  | .dictComp k v gs, _, R, W, h => by
    rw [Expr.mentions, Finset.union_subset_iff] at h
    have hboth := Finset.union_subset_iff.mp (subset_union_of_sdiff h.2)
    rw [render]
    refine (Runs.hereditary.collectionType _ _).bind fun ty =>
      Runs.hereditary.comprehension _ _ gs (fun acc => ?_) trivial
    refine generatorLoops_runs gs h.1 (Runs.hereditary.insertion ?_ trivial)
    exact (render_runs k none hboth.1).bind fun _ => (render_runs v none hboth.2).bind fun _ =>
      .pure _
  | .format ps, _, R, W, h => by
    rw [Expr.mentions] at h
    rw [render]
    refine Runs.hereditary.format (fun p hp => ?_) trivial
    exact partTexts_runs ps h _ (List.of_mem_zip hp).2
  | .starred _, _, R, W, _ => by
    rw [render]
    exact unsupported_runs _

theorem renders_runs : ∀ (es : List Expr) {R W : Finset String},
    Expr.allMentions .read es ⊆ R → ∀ x ∈ renders es, Runs R W x
  | [], R, W, _, x, hx => by
    rw [renders] at hx
    cases hx
  | e :: es, R, W, h, x, hx => by
    rw [Expr.allMentions, Finset.union_subset_iff] at h
    rw [renders] at hx
    rcases List.mem_cons.mp hx with rfl | hmem
    · exact render_runs e none h.1
    · exact renders_runs es h.2 x hmem

theorem operands_runs : ∀ (es : List Expr) {R W : Finset String},
    Expr.allMentions .read es ⊆ R → ∀ x ∈ operands es, Runs R W x
  | [], R, W, _, x, hx => by
    rw [operands] at hx
    cases hx
  | e :: es, R, W, h, x, hx => by
    rw [Expr.allMentions, Finset.union_subset_iff] at h
    rw [operands] at hx
    rcases List.mem_cons.mp hx with rfl | hmem
    · exact Runs.hereditary.operand e (render_runs e none h.1)
    · exact operands_runs es h.2 x hmem

theorem keywordTexts_runs : ∀ (ks : List Keyword) {R W : Finset String},
    Keyword.allMentions .read ks ⊆ R → ∀ p ∈ keywordTexts ks, Runs R W p.2
  | [], R, W, _, p, hp => by
    rw [keywordTexts] at hp
    cases hp
  | ⟨_, e⟩ :: ks, R, W, h, p, hp => by
    rw [Keyword.allMentions, Finset.union_subset_iff] at h
    rw [keywordTexts] at hp
    rcases List.mem_cons.mp hp with rfl | hmem
    · exact render_runs e none h.1
    · exact keywordTexts_runs ks h.2 p hmem

theorem argTexts_runs (e : Expr) {R W : Finset String} (h : e.mentions .read ⊆ R) :
    ∀ x ∈ argTexts e, Runs R W x := by
  intro x hx
  cases e with
  | call _ args _ =>
    simp only [Expr.mentions, Finset.union_subset_iff] at h
    rw [argTexts] at hx
    exact renders_runs args ((allMentions_subset_argMentions args).trans h.1.2) x hx
  | _ => simp [argTexts] at hx

theorem conditionTexts_runs : ∀ (es : List Expr) {R W : Finset String},
    Expr.allMentions .read es ⊆ R → ∀ p ∈ conditionTexts es, Runs R W p.2
  | [], R, W, _, p, hp => by
    rw [conditionTexts] at hp
    cases hp
  | e :: es, R, W, h, p, hp => by
    rw [Expr.allMentions, Finset.union_subset_iff] at h
    rw [conditionTexts] at hp
    rcases List.mem_cons.mp hp with rfl | hmem
    · exact render_runs e none h.1
    · exact conditionTexts_runs es h.2 p hmem

theorem generatorLoops_runs : ∀ (gs : List Generator) {R W : Finset String}
    {insert : Emit String}, Generator.allMentions .read gs ⊆ R →
    Runs (R ∪ (Generator.names gs).toFinset) W insert →
    ∀ used out, Runs R W (generatorLoops insert used (generatorParts gs) out)
  | [], R, W, _, _, hinsert, used, out => by
    rw [generatorParts]
    refine generatorLoops_nil_runs used out (hinsert.mono ?_ (Finset.Subset.refl _))
    simp [Generator.names]
  | ⟨target, iter, ifs⟩ :: gs, R, W, _, h, hinsert, used, out => by
    rw [Generator.allMentions, Finset.union_subset_iff] at h
    have hinside := Finset.union_subset_iff.mp (subset_union_of_sdiff h.2)
    rw [generatorParts]
    refine generatorLoops_cons_runs used out (render_runs iter none h.1) (argTexts_runs iter h.1)
      (conditionTexts_runs ifs hinside.1) fun out => ?_
    refine generatorLoops_runs gs hinside.2 (hinsert.mono ?_ (Finset.Subset.refl _)) used out
    rw [Generator.names, List.flatMap_cons, List.toFinset_append, Finset.union_assoc]
    exact Finset.Subset.refl _

theorem partTexts_runs : ∀ (ps : List FormatPart) {R W : Finset String},
    FormatPart.allMentions .read ps ⊆ R → ∀ x ∈ partTexts ps, Runs R W x
  | [], R, W, _, x, hx => by
    rw [partTexts] at hx
    cases hx
  | .literal _ :: ps, R, W, h, x, hx => by
    rw [FormatPart.allMentions] at h
    rw [partTexts] at hx
    rcases List.mem_cons.mp hx with rfl | hmem
    · exact .pure _
    · exact partTexts_runs ps h x hmem
  | .interpolation e :: ps, R, W, h, x, hx => by
    rw [FormatPart.allMentions, Finset.union_subset_iff] at h
    rw [partTexts] at hx
    rcases List.mem_cons.mp hx with rfl | hmem
    · exact render_runs e none h.1
    · exact partTexts_runs ps h.2 x hmem

end

end Emit

end ClosureConversion
