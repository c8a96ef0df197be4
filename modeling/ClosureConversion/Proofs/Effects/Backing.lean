import ClosureConversion.Proofs.Effects.Faults
import ClosureConversion.Proofs.Effects.Sites
import ClosureConversion.Proofs.Emit.Balanced
import ClosureConversion.Proofs.Emit.Heredity

/-! # Expressions whose errors have a reason -/

set_option autoImplicit false

namespace ClosureConversion

/-- The operations of these sites have the property `P`, as far as they can fail. -/
def Covers (o : Options) (P : Operation → Prop) (sites : List Site) : Prop :=
  ∀ s ∈ sites, s.operation.canFail o = true → P s.operation

section Covers

variable {o : Options} {P : Operation → Prop} {sites sites' : List Site} {s : Site}

theorem covers_append : Covers o P (sites ++ sites') ↔ Covers o P sites ∧ Covers o P sites' :=
  List.forall_mem_append

theorem covers_cons :
    Covers o P (s :: sites) ↔ (s.operation.canFail o = true → P s.operation) ∧ Covers o P sites :=
  List.forall_mem_cons

theorem covers_singleton : Covers o P [s] ↔ (s.operation.canFail o = true → P s.operation) :=
  List.forall_mem_singleton

theorem covers_true (o : Options) (sites : List Site) : Covers o (fun _ => True) sites :=
  fun _ _ _ => trivial

end Covers

namespace Emit

variable {α β : Type} {w : Settings} {P Q : Operation → Prop}

/-- Errors leave the computation for a reason, whether it succeeds or fails. -/
def Backed (w : Settings) (P : Operation → Prop) (x : Emit α) : Prop :=
  ∀ c : Context, c.Backed P (x w c).2

/-- The computation notes nothing of errors. -/
def Quiet (w : Settings) (x : Emit α) : Prop :=
  ∀ c : Context, (x w c).2.current.marks = c.current.marks ∧
    c.counter ≤ (x w c).2.counter

/-! ## Putting computations together -/

namespace Backed

theorem quiet {x : Emit α} (h : Quiet w x) : Backed w P x :=
  fun c => Context.backed_of_still (h c).1 (h c).2

theorem still {x : Emit α} (h : ∀ c, (x w c).2.footing = c.footing) : Backed w P x :=
  fun c => Context.backed_of_footing_eq (h c)

theorem pure (a : α) : Backed w P (pure a : Emit α) := still fun _ => rfl

/-- What began in `c₀` goes on. -/
theorem andThen {x : Emit α} {f : α → Emit β} {c₀ c : Context}
    (hx : c₀.Backed P (x w c).2) (hf : ∀ a, Backed w P (f a)) : c₀.Backed P ((x >>= f) w c).2 :=
  snd_bind hx fun a c₁ _ hfirst => hfirst.trans (hf a c₁)

theorem bind {x : Emit α} {f : α → Emit β} (hx : Backed w P x) (hf : ∀ a, Backed w P (f a)) :
    Backed w P (x >>= f) :=
  fun c => andThen (hx c) hf

theorem skip {x : Emit α} {f : α → Emit β} (hx : ∀ c, (x w c).2.footing = c.footing)
    (hf : ∀ a, Backed w P (f a)) : Backed w P (x >>= f) := (still hx).bind hf

theorem options {f : Options → Emit α} (hf : Backed w P (f w.options)) :
    Backed w P (options >>= f) := hf

theorem ite {p : Prop} [Decidable p] {x y : Emit α} (hx : Backed w P x) (hy : Backed w P y) :
    Backed w P (if p then x else y) := by
  split
  · exact hx
  · exact hy

theorem inFrame {x : Emit α} (hx : Backed w P x) (kind : FrameKind) :
    Backed w P (inFrame kind x) := by
  intro c
  have hinside := hx { c with scope := c.scope.push kind }
  unfold Emit.inFrame
  rcases hxc : x w { c with scope := c.scope.push kind } with ⟨r, c₁⟩
  rw [hxc] at hinside
  dsimp only
  split
  · exact hinside.congr rfl rfl
  · exact hinside.congr rfl rfl

theorem isolated {x : Emit α} (hx : Backed w P x) : Backed w P (isolated x) :=
  fun c => (hx { c with prelude := {} }).congr rfl rfl

theorem looping {x : Emit α} (hx : Backed w P x) : Backed w P (looping x) := fun c =>
  (hx { c with current := { c.current with loops := c.current.loops + 1 } }).congr rfl rfl

end Backed

theorem Backed.sequential : Sequential (Backed w P) := ⟨.pure, .bind⟩

theorem flushPrelude_backed (out : Buffer) : Backed w P (flushPrelude out) := by
  refine .quiet fun c => ?_
  unfold flushPrelude
  split <;> exact ⟨rfl, Nat.le_refl _⟩

theorem temporary_backed (stem : String) : Backed w P (temporary stem) :=
  .quiet fun c => ⟨rfl, Nat.le_succ c.counter⟩

/-! ## Operations that are written as failing -/

/-- **An operation that is written as failing is a reason.** -/
theorem fallible_backed {op : Operation} (h : P op) (text : String) :
    Backed w P (fallible op text) := fun c => by
  rw [fallible_eq]
  exact Context.backed_faulted (.failing · text) (fun _ => rfl) h

theorem fallibleIf_backed {op : Operation} {fails : Bool} (h : fails = true → P op)
    (text : String) : Backed w P (fallibleIf op fails text) := by
  unfold fallibleIf
  split
  · rename_i hfails
    exact fallible_backed (h hfails) text
  · exact .pure text

theorem errorExit_backed {op : Operation} (h : P op) (error : String) (out : Buffer) :
    Backed w P (errorExit op error out) := fun c => by
  rw [errorExit_eq]
  exact Context.backed_faulted (.raising · error) (fun _ => rfl) h

/-! ## Closures -/

namespace Quiet

theorem still {x : Emit α} (h : ∀ c, (x w c).2.footing = c.footing) : Quiet w x :=
  fun c => ⟨congrArg Prod.fst (h c), Nat.le_of_eq (congrArg Prod.snd (h c)).symm⟩

theorem bind {x : Emit α} {f : α → Emit β} (hx : Quiet w x) (hf : ∀ a, Quiet w (f a)) :
    Quiet w (x >>= f) :=
  fun c => snd_bind (hx c) fun a c₁ _ ⟨hmarks, hcounter⟩ =>
    ⟨(hf a c₁).1.trans hmarks, Nat.le_trans hcounter (hf a c₁).2⟩

theorem pure (a : α) : Quiet w (pure a : Emit α) := still fun _ => rfl

theorem sequential : Sequential (Quiet w) := ⟨pure, bind⟩

theorem skip {x : Emit α} {f : α → Emit β} (hx : ∀ c, (x w c).2.footing = c.footing)
    (hf : ∀ a, Quiet w (f a)) : Quiet w (x >>= f) := (still hx).bind hf

theorem inFrame {x : Emit α} (hx : Quiet w x) (kind : FrameKind) : Quiet w (inFrame kind x) := by
  intro c
  obtain ⟨hmarks, hcounter⟩ := hx { c with scope := c.scope.push kind }
  unfold Emit.inFrame
  rcases hxc : x w { c with scope := c.scope.push kind } with ⟨r, c₁⟩
  rw [hxc] at hmarks hcounter
  dsimp only
  split <;> exact ⟨hmarks, hcounter⟩

/-- Another function has faults of its own. -/
theorem inFunction (state : FunctionState) {x : Emit α} (hx : Backed w P x) :
    Quiet w (inFunction state x) := by
  intro c
  obtain ⟨faults, guards, hnoted, -⟩ := hx { c with current := state }
  exact ⟨rfl, hnoted.counter⟩

end Quiet

theorem captures_quiet (f : Function) (u : Usage) (qualname : String) :
    Quiet w (captures f u qualname) := by
  refine .skip (fun _ => rfl) fun s => .skip (fun _ => rfl) fun _ => ?_
  split
  · rename_i r _
    have hreports : Quiet w (discard (sequence (r.report.map reportDiagnostic))) := by
      refine (Quiet.sequential.sequence fun x hx => ?_).bind fun _ => .still fun _ => rfl
      obtain ⟨d, -, rfl⟩ := List.mem_map.mp hx
      exact .still fun _ => rfl
    exact hreports.bind fun _ => .still fun _ => rfl
  · exact .still fun _ => rfl

theorem formalTypes_quiet (f : Function) (qualname : String) :
    Quiet w (formalTypes f qualname) := by
  refine (Quiet.sequential.sequence fun x hx => ?_).bind fun params => .still fun _ => rfl
  obtain ⟨p, -, rfl⟩ := List.mem_map.mp hx
  refine .skip (fun _ => rfl) fun o => .skip (fun _ => rfl) fun s => ?_
  dsimp only
  split
  all_goals
    split
    · exact .still fun _ => rfl
    · exact .still fun _ => rfl

theorem prepare_quiet (f : Function) : Quiet w (prepare f) := by
  refine .skip (fun _ => rfl) fun qualname => .skip (fun _ => rfl) fun _ => ?_
  refine (captures_quiet f _ _).bind fun captures => .skip (fun _ => rfl) fun _ => ?_
  have hnames : ∀ shape, Quiet w (claimNames f.name shape) := fun shape => by
    cases shape <;> exact .still fun _ => rfl
  refine (hnames _).bind fun ⟨wrapper, layout⟩ => .skip (fun _ => rfl) fun ident => ?_
  exact (formalTypes_quiet f _).bind fun types => .still fun _ => rfl

theorem enterClosure_quiet (d : Draft) (assumed : Option Bool) :
    Quiet w (enterClosure d assumed) := by
  have hreceivers : ∀ shape, Quiet w (claimReceivers shape) := fun shape => by
    cases shape <;> exact .still fun _ => rfl
  have hcaptures : ∀ receiver, Quiet w (declareCaptures d receiver) := fun receiver => by
    cases receiver with
    | none => exact .still fun _ => rfl
    | some receiver =>
      refine (Quiet.sequential.sequence fun x hx => ?_).bind fun _ => .still fun _ => rfl
      obtain ⟨c, -, rfl⟩ := List.mem_map.mp hx
      exact .still fun _ => rfl
  have hhandle : ∀ handle, Quiet w (declareHandle d assumed handle) := fun handle => by
    unfold declareHandle
    split <;> exact .still fun _ => rfl
  have hformals : ∀ types u, Quiet w (declareFormals d.function types u) := fun types u => by
    refine Quiet.sequential.sequence fun x hx => ?_
    obtain ⟨p, -, rfl⟩ := List.mem_map.mp hx
    exact .still fun _ => rfl
  refine (hreceivers _).bind fun ⟨envParam, selfParam⟩ => (hcaptures _).bind fun _ => ?_
  refine (hhandle _).bind fun _ => (hformals _ _).bind fun formals => ?_
  refine .skip (fun _ => rfl) fun s => .skip (fun _ => rfl) fun oracle => ?_
  refine .skip (fun _ => rfl) fun options => ?_
  split
  · exact .still fun _ => rfl
  · exact .still fun _ => rfl

section Bodies

variable {body : Buffer → Emit Buffer}

/-- That formals are copied says nothing of errors. -/
theorem copyNotes_backed (formals : List Formal) :
    Backed w P (noteAll (formals.filterMap Formal.copyNote?)) := by
  refine .still fun c => ?_
  have hnone : ∀ n ∈ formals.filterMap Formal.copyNote?, n.fault? = none ∧ n.guard? = none := by
    intro n hn
    obtain ⟨slot, rest, rfl⟩ := Formal.eq_introduced_of_mem_copyNotes hn
    exact ⟨rfl, rfl⟩
  simp only [noteAll, modifyCurrent, modify, Context.footing, FunctionState.marks,
    FunctionState.faults, FunctionState.guards, List.filterMap_append,
    List.filterMap_eq_nil_iff.mpr fun n hn => (hnone n hn).1,
    List.filterMap_eq_nil_iff.mpr fun n hn => (hnone n hn).2, List.nil_append]

theorem plannedBody_backed (formals : List Formal) (plan : BodyPlan)
    (h : ∀ out, Backed w P (body out)) : Backed w P (plannedBody formals plan body) := by
  refine (copyNotes_backed formals).bind fun _ => ?_
  exact (Backed.sequential.foldlM (fun _ _ _ => .still fun _ => rfl) _).bind h

theorem closureParts_quiet (d : Draft) (assumed : Option Bool) (h : ∀ out, Backed w P (body out)) :
    Quiet w (closureParts d assumed body) := by
  refine .inFrame ((enterClosure_quiet d assumed).bind fun e => ?_) _
  refine .bind (.skip (fun _ => rfl) fun ⟨state, formals⟩ => ?_) fun _ => .still fun _ => rfl
  refine .bind (.inFunction state (plannedBody_backed formals state.plan h)) fun _ => ?_
  exact .still fun _ => rfl

/-- A body that is written twice is numbered from the same start. -/
theorem settledParts_quiet (d : Draft) (h : ∀ out, Backed w P (body out)) :
    Quiet w (settledParts d body) := by
  intro c
  have hfirst := closureParts_quiet d none h c
  rcases settledParts_cases d body w c with heq | ⟨parts, c₁, hparts, heq⟩
  · rw [heq]
    exact hfirst
  · rw [hparts] at hfirst
    rw [heq]
    obtain ⟨hmarks, hcounter⟩ := closureParts_quiet d (some true) h (rewound c c₁ d.qualname)
    exact ⟨hmarks.trans hfirst.1, hcounter⟩

theorem bindClosure_backed (d : Draft) (ident : String) (parts : Closure.Parts)
    {decorators : List (Emit String)} (discardUnused : Bool) (out : Buffer)
    (h : ∀ x ∈ decorators, Backed w P x) :
    Backed w P (bindClosure d ident parts decorators discardUnused out) := by
  have hreturn : ∀ returnType, Backed w P
      (returnText returnType parts.fallible d.qualname d.function) := fun returnType => by
    unfold returnText
    dsimp only
    split
    · exact .still fun _ => rfl
    · exact .still fun _ => rfl
    · exact .still fun _ => rfl
    · exact .still fun _ => rfl
  refine .bind ((hreturn _).bind fun result => .still fun _ => rfl) fun signature => ?_
  refine .bind ((Backed.sequential.decorate _ h).bind fun init => ?_) fun out => .still fun _ => rfl
  refine (flushPrelude_backed out).bind fun out => ?_
  exact .still fun _ => rfl

/-- **Making a closure is backed by its decorators.** -/
theorem synthesize_backed (f : Function) {decorators : List (Emit String)} (discardUnused : Bool)
    (out : Buffer) (hbody : ∀ out, Backed w Q (body out)) (h : ∀ x ∈ decorators, Backed w P x) :
    Backed w P (synthesize f body decorators discardUnused out) := by
  refine .bind (.quiet (prepare_quiet f)) fun ⟨d, ident⟩ => ?_
  have hparts : Backed w P (settledParts d body) := .quiet (settledParts_quiet d hbody)
  exact hparts.isolated.bind fun ⟨parts, _⟩ => bindClosure_backed d ident parts discardUnused out h

end Bodies

/-! ## Loops -/

/-- **Expressions and plain statements are backed if their parts are**, and what they write as
failing is a reason as far as it can fail. -/
theorem Backed.hereditary :
    LoopHereditary (· = w.options) (fun op => op.canFail w.options = true → P op) (Backed w P) where
  pure := .pure
  bind := .bind
  met := ⟨w.options, rfl⟩
  options hf := .options (hf w.options rfl)
  typeOf _ := .still fun _ => rfl
  scope := .still fun _ => rfl
  oracle := .still fun _ => rfl
  isDeclaredGlobal _ := .still fun _ => rfl
  unsupported _ := .still fun _ => rfl
  fallible text ho hcan hop := fallible_backed (hop (ho ▸ hcan)) text
  errorExit error out ho hcan hop := errorExit_backed (hop (ho ▸ hcan)) error out
  tell _ := .still fun _ => rfl
  temporary := temporary_backed
  dropped _ := .still fun _ => rfl
  bindPayload _ _ := .still fun _ => rfl
  bindCounter _ _ := .still fun _ => rfl
  pushPrelude _ := .still fun _ => rfl
  flushPrelude := flushPrelude_backed
  isolated := .isolated
  inBlock hx := hx.inFrame .block

/-! ## Lambdas -/

theorem returnValue_backed (value : Expr) {text : Emit String} (out : Buffer)
    (h : Backed w P text) : Backed w P (returnValue value text out) := by
  refine .skip (fun _ => rfl) fun ty => .skip (fun _ => rfl) fun _ => ?_
  split
  · exact .still fun _ => rfl
  · exact h.bind fun _ => (flushPrelude_backed out).bind fun _ => .still fun _ => rfl

theorem lambda_backed (params : List Param) (body : Expr) {text : Emit String}
    (h : Backed w Q text) : Backed w P (lambda params body text) := by
  refine .skip (fun _ => rfl) fun state => ?_
  refine (synthesize_backed _ false {} (fun out => returnValue_backed body out h)
    fun x hx => by cases hx).bind fun ⟨built, out⟩ => ?_
  exact .still fun _ => rfl

/-! ## All expressions -/

section Trees

variable {v : Effects.Setting} {calls : Effects.Calls}

/-- The sites of a call are those of its arguments, whatever is called. -/
theorem covers_args {f : Expr} {args : List Expr} {kws : List Keyword}
    (h : Covers w.options P (Effects.exprSites v calls (.call f args kws))) :
    Covers w.options P (Effects.exprsSites v calls args) ∧
      Covers w.options P (Effects.keywordsSites v calls kws) := by
  cases f <;> simp only [Effects.exprSites, covers_append] at h <;> exact h.1

mutual

/-- **Every expression is backed by its sites.** -/
theorem render_backed : ∀ (e : Expr) (expected : Option Ty) {P : Operation → Prop},
    Covers w.options P (Effects.exprSites v calls e) → Backed w P (render e expected)
  | .name n, _, _, _ => by
    rw [render]
    exact Backed.hereditary.name n
  | .constant c, _, _, _ => by
    rw [render]
    exact .pure _
  | .binary op l r, _, _, h => by
    simp only [Effects.exprSites, covers_append, covers_singleton] at h
    rw [render]
    exact Backed.hereditary.binary (render_backed l none h.1.1) (render_backed r none h.1.2) h.2
  | .unary op e, _, _, h => by
    rw [Effects.exprSites] at h
    rw [render]
    exact (Backed.hereditary.operand e (render_backed e none h)).bind fun _ => .pure _
  | .boolean op es, _, _, h => by
    rw [Effects.exprSites] at h
    rw [render]
    exact Backed.hereditary.boolean op (operands_backed es h)
  | .compare l ops es, _, _, h => by
    simp only [Effects.exprSites, covers_append] at h
    rw [render]
    exact Backed.hereditary.compare l ops es (render_backed l none h.1) (renders_backed es h.2)
  | .call f args kws, _, P, h => by
    obtain ⟨hargs, hkws⟩ := covers_args h
    rw [render]
    refine (Backed.hereditary.positional fun p hp => ?_).bind fun texts => ?_
    · exact renders_backed args hargs _ (List.of_mem_zip hp).2
    refine (Backed.hereditary.keywordArgs (keywordTexts_backed kws hkws)).bind fun more => ?_
    have hvalue : Covers w.options P (Effects.exprSites v calls f) → Backed w P (render f none) :=
      render_backed f none
    cases f with
    | name n =>
      simp only [Effects.exprSites, covers_append, covers_singleton] at h
      exact Backed.hereditary.namedCall _ h.2
    | «attribute» e method =>
      simp only [Effects.exprSites, covers_append, covers_singleton] at h
      exact Backed.hereditary.methodCall e _ (render_backed e none h.2.1) h.2.2
    | _ =>
      rw [Effects.exprSites, covers_append] at h
      · obtain ⟨hf, hcall⟩ := covers_append.mp h.2
        exact Backed.hereditary.valueCall _ (hvalue hf) (covers_singleton.mp hcall)
      all_goals nofun
  | .attribute e _, _, _, h => by
    rw [Effects.exprSites] at h
    rw [render]
    exact (Backed.hereditary.operand e (render_backed e none h)).bind fun _ => .pure _
  | .subscript e i, _, _, h => by
    simp only [Effects.exprSites, covers_append, covers_singleton] at h
    rw [render]
    exact Backed.hereditary.subscript (render_backed e none h.1.1) (render_backed i none h.1.2) h.2
  | .tuple es, _, _, h => by
    rw [Effects.exprSites] at h
    rw [render]
    exact (Backed.hereditary.sequence (renders_backed es h)).bind fun _ => .pure _
  | .list es, _, _, h | .set es, _, _, h => by
    simp only [Effects.exprSites, covers_append, covers_singleton] at h
    rw [render]
    exact (Backed.hereditary.collectionType _ _).bind fun _ =>
      Backed.hereditary.elements _ _ (renders_backed es h.1) h.2
  | .dict ks vs, _, _, h => by
    simp only [Effects.exprSites, covers_append, covers_singleton] at h
    rw [render]
    exact (Backed.hereditary.collectionType _ _).bind fun ty =>
      Backed.hereditary.dict ty (renders_backed ks h.1.1) (renders_backed vs h.1.2) h.2
  | .ifElse t b e, _, _, h => by
    simp only [Effects.exprSites, covers_append] at h
    rw [render]
    refine (Backed.hereditary.condition t (render_backed t none h.1.1)).bind fun test => ?_
    refine (Backed.hereditary.operand b (render_backed b none h.1.2)).bind fun body => ?_
    exact (Backed.hereditary.operand e (render_backed e none h.2)).bind fun _ => .pure _
  | .lambda ps b, _, _, _ => by
    rw [render]
    exact (lambda_backed ps b (render_backed b none (covers_true _ _))).bind fun _ => .pure _
  | .listComp e gs, _, _, h | .generatorExp e gs, _, _, h | .setComp e gs, _, _, h => by
    simp only [Effects.exprSites, covers_append, covers_singleton] at h
    rw [render]
    refine (Backed.hereditary.collectionType _ _).bind fun ty => ?_
    refine Backed.hereditary.collecting _ _ gs (fun acc => ?_) (generatorParts_backed gs h.1.1) h.2
    exact (render_backed e none h.1.2).bind fun _ => .pure _
  | .dictComp k v gs, _, _, h => by
    simp only [Effects.exprSites, covers_append, covers_singleton] at h
    rw [render]
    refine (Backed.hereditary.collectionType _ _).bind fun ty => ?_
    refine Backed.hereditary.collecting _ _ gs (fun acc => ?_) (generatorParts_backed gs h.1.1.1) h.2
    exact (render_backed k none h.1.1.2).bind fun _ => (render_backed v none h.1.2).bind fun _ =>
      .pure _
  | .format ps, _, _, h => by
    simp only [Effects.exprSites, covers_append, covers_singleton] at h
    rw [render]
    refine Backed.hereditary.format (fun p hp => ?_) h.2
    exact partTexts_backed ps h.1 _ (List.of_mem_zip hp).2
  | .starred _, _, _, _ => by
    rw [render]
    exact .still fun _ => rfl

theorem renders_backed : ∀ (es : List Expr) {P : Operation → Prop},
    Covers w.options P (Effects.exprsSites v calls es) → ∀ x ∈ renders es, Backed w P x
  | [], _, _, x, hx => by
    rw [renders] at hx
    cases hx
  | e :: es, _, h, x, hx => by
    rw [Effects.exprsSites, covers_append] at h
    rw [renders] at hx
    rcases List.mem_cons.mp hx with rfl | hmem
    · exact render_backed e none h.1
    · exact renders_backed es h.2 x hmem

theorem operands_backed : ∀ (es : List Expr) {P : Operation → Prop},
    Covers w.options P (Effects.exprsSites v calls es) → ∀ x ∈ operands es, Backed w P x
  | [], _, _, x, hx => by
    rw [operands] at hx
    cases hx
  | e :: es, _, h, x, hx => by
    rw [Effects.exprsSites, covers_append] at h
    rw [operands] at hx
    rcases List.mem_cons.mp hx with rfl | hmem
    · exact Backed.hereditary.operand e (render_backed e none h.1)
    · exact operands_backed es h.2 x hmem

theorem keywordTexts_backed : ∀ (ks : List Keyword) {P : Operation → Prop},
    Covers w.options P (Effects.keywordsSites v calls ks) → ∀ p ∈ keywordTexts ks, Backed w P p.2
  | [], _, _, p, hp => by
    rw [keywordTexts] at hp
    cases hp
  | ⟨_, e⟩ :: ks, _, h, p, hp => by
    rw [Effects.keywordsSites, covers_append] at h
    rw [keywordTexts] at hp
    rcases List.mem_cons.mp hp with rfl | hmem
    · exact render_backed e none h.1
    · exact keywordTexts_backed ks h.2 p hmem

theorem argTexts_backed (e : Expr) {P : Operation → Prop}
    (h : Covers w.options P (Effects.exprSites v calls e)) : ∀ x ∈ argTexts e, Backed w P x := by
  intro x hx
  cases e with
  | call _ args _ =>
    rw [argTexts] at hx
    exact renders_backed args (covers_args h).1 x hx
  | _ => simp [argTexts] at hx

theorem conditionTexts_backed : ∀ (es : List Expr) {P : Operation → Prop},
    Covers w.options P (Effects.exprsSites v calls es) → ∀ p ∈ conditionTexts es, Backed w P p.2
  | [], _, _, p, hp => by
    rw [conditionTexts] at hp
    cases hp
  | e :: es, _, h, p, hp => by
    rw [Effects.exprsSites, covers_append] at h
    rw [conditionTexts] at hp
    rcases List.mem_cons.mp hp with rfl | hmem
    · exact render_backed e none h.1
    · exact conditionTexts_backed es h.2 p hmem

theorem generatorParts_backed : ∀ (gs : List Generator) {P : Operation → Prop},
    Covers w.options P (Effects.generatorsSites v calls gs) →
      ∀ g ∈ generatorParts gs, g.Inherit (Backed w P)
  | [], _, _, g, hg => by
    rw [generatorParts] at hg
    cases hg
  | ⟨_, iter, ifs⟩ :: gs, _, h, g, hg => by
    simp only [Effects.generatorsSites, covers_append] at h
    rw [generatorParts] at hg
    rcases List.mem_cons.mp hg with rfl | hmem
    · exact ⟨render_backed iter none h.1.1, argTexts_backed iter h.1.1,
        conditionTexts_backed ifs h.1.2⟩
    · exact generatorParts_backed gs h.2 g hmem

theorem partTexts_backed : ∀ (ps : List FormatPart) {P : Operation → Prop},
    Covers w.options P (Effects.partsSites v calls ps) → ∀ x ∈ partTexts ps, Backed w P x
  | [], _, _, x, hx => by
    rw [partTexts] at hx
    cases hx
  | .literal _ :: ps, _, h, x, hx => by
    rw [Effects.partsSites] at h
    rw [partTexts] at hx
    rcases List.mem_cons.mp hx with rfl | hmem
    · exact .pure _
    · exact partTexts_backed ps h x hmem
  | .interpolation e :: ps, _, h, x, hx => by
    rw [Effects.partsSites, covers_append] at h
    rw [partTexts] at hx
    rcases List.mem_cons.mp hx with rfl | hmem
    · exact render_backed e none h.1
    · exact partTexts_backed ps h.2 x hmem

end

end Trees

end Emit

end ClosureConversion
