import ClosureConversion.BodyPlan
import ClosureConversion.Proofs.Scope.Slots

/-! # What planning a body does -/

set_option autoImplicit false

namespace ClosureConversion

/-! ## Plans -/

namespace BodyPlan

/-- Names that are declared at the head of the body. -/
def hoistedNames (p : BodyPlan) : List String := p.hoisted.map Prod.fst

/-- Everything that one plan records, the other does too. -/
structure Within (p q : BodyPlan) : Prop where
  mutable : p.mutable ⊆ q.mutable
  hoisted : p.hoistedNames ⊆ q.hoistedNames

variable {p q r : BodyPlan}

theorem Within.refl (p : BodyPlan) : p.Within p := ⟨List.Subset.refl _, List.Subset.refl _⟩

theorem Within.trans (h : p.Within q) (h' : q.Within r) : p.Within r :=
  ⟨List.Subset.trans h.mutable h'.mutable, List.Subset.trans h.hoisted h'.hoisted⟩

theorem isMutable_iff {ident : String} : p.isMutable ident = true ↔ ident ∈ p.mutable :=
  List.contains_iff_mem

theorem Within.isMutable (h : p.Within q) {ident : String} (hident : p.isMutable ident = true) :
    q.isMutable ident = true :=
  isMutable_iff.mpr (h.mutable (isMutable_iff.mp hident))

theorem within_markMutable (p : BodyPlan) (ident : String) : p.Within (p.markMutable ident) :=
  ⟨Scope.subset_pushNew p.mutable ident, List.Subset.refl _⟩

theorem isMutable_markMutable (p : BodyPlan) (ident : String) :
    (p.markMutable ident).isMutable ident = true :=
  isMutable_iff.mpr (mem_pushNew.mpr (.inr rfl))

theorem hoistedNames_hoist (p : BodyPlan) (name : String) (ty : Ty) :
    p.hoistedNames ⊆ (p.hoist name ty).hoistedNames ∧ name ∈ (p.hoist name ty).hoistedNames := by
  unfold hoist hoistedNames
  split
  · rename_i hany
    obtain ⟨e, he, hname⟩ := List.any_eq_true.mp hany
    exact ⟨List.Subset.refl _, List.mem_map.mpr ⟨e, he, eq_of_beq hname⟩⟩
  · rw [List.map_append]
    exact ⟨List.subset_append_left .., List.mem_append_right _ (List.mem_singleton.mpr rfl)⟩

theorem within_hoist (p : BodyPlan) (name : String) (ty : Ty) : p.Within (p.hoist name ty) := by
  refine ⟨?_, (p.hoistedNames_hoist name ty).1⟩
  unfold hoist
  split <;> exact List.Subset.refl _

end BodyPlan

/-! ## Layers below a block -/

/-- A layer after a block inside it was planned: names stand for what they stood for, and new ones
were hoisted. -/
structure Layer.Extends (plan : BodyPlan) (l m : Layer) : Prop where
  kind : m.kind = l.kind
  slots : ∀ n slot, l.slot? n = some slot → m.slot? n = some slot
  hoisted : ∀ n, m.Binds n → l.Binds n ∨ l.isFunction = true ∧ n ∈ plan.hoistedNames

namespace Layer

variable {plan plan' : BodyPlan} {l m k : Layer} {ls ms ks : List Layer}

theorem Extends.refl (plan : BodyPlan) (l : Layer) : l.Extends plan l :=
  ⟨rfl, fun _ _ h => h, fun _ h => .inl h⟩

theorem Extends.trans (hlm : l.Extends plan m) (hmk : m.Extends plan k) : l.Extends plan k := by
  refine ⟨hmk.kind.trans hlm.kind, fun n slot h => hmk.slots n slot (hlm.slots n slot h),
    fun n hn => ?_⟩
  rcases hmk.hoisted n hn with hm | ⟨hfun, hhoisted⟩
  · exact hlm.hoisted n hm
  · exact .inr ⟨isFunction_of_kind hlm.kind ▸ hfun, hhoisted⟩

theorem Extends.mono (h : l.Extends plan m) (hplan : plan.Within plan') : l.Extends plan' m :=
  ⟨h.kind, h.slots, fun n hn => (h.hoisted n hn).imp_right fun hn => ⟨hn.1, hplan.hoisted hn.2⟩⟩

theorem forall₂_extends_refl (plan : BodyPlan) (ls : List Layer) :
    List.Forall₂ (Extends plan) ls ls :=
  List.forall₂_same.mpr fun l _ => .refl plan l

theorem forall₂_extends_trans (h : List.Forall₂ (Extends plan) ls ms) (hplan : plan.Within plan')
    (h' : List.Forall₂ (Extends plan') ms ks) : List.Forall₂ (Extends plan') ls ks :=
  forall₂_trans (R := Extends plan') (fun _ _ _ => .trans)
    (h.imp fun _ _ hlm => hlm.mono hplan) h'

theorem extends_hoist {name : String} (slot : Slot) (hname : name ∈ plan.hoistedNames)
    (hfree : ∀ l ∈ inner ls, ¬ l.Binds name) :
    List.Forall₂ (Extends plan) ls (hoist name slot ls) := by
  induction ls with
  | nil => exact .nil
  | cons l rest ih =>
    rw [hoist]
    rw [inner] at hfree
    split
    · rename_i hfun
      rw [if_pos hfun] at hfree
      refine .cons ⟨rfl, fun n slot' hn => ?_, fun n hn => ?_⟩ (forall₂_extends_refl plan rest)
      · have hne : name ≠ n := by
          rintro rfl
          exact hfree l (List.mem_singleton.mpr rfl) (by rw [Binds, hn]; rfl)
        exact (if_neg hne).trans hn
      · rcases binds_bind.mp hn with rfl | hold
        · exact .inr ⟨hfun, hname⟩
        · exact .inl hold
    · rename_i hblock
      rw [if_neg hblock] at hfree
      exact .cons (.refl plan l) (ih fun k hk => hfree k (List.mem_cons_of_mem l hk))

end Layer

/-! ## Assignments that were just planned -/

namespace Assignment

variable {s : Scope} {name : String} {ty : Ty}

theorem commit_adjusts (a : Assignment) (s : Scope) (isMutable : Bool) (source : Option String) :
    (a.bind s isMutable).Adjusts true (a.commit s isMutable source) := by
  obtain ⟨link, hcommit⟩ := a.commit_eq s isMutable source
  rw [hcommit]
  exact Scope.adjusts_modifyBinding (fun _ => by rfl) _ a.name

/-- An assignment that declares binds the name in the innermost frame. -/
theorem commit_of_declares (isMutable : Bool) (source : Option String)
    (h : (plan s name ty).declares = true) :
    ∃ b : Binding, b.slot = ⟨(plan s name ty).ident, .declared isMutable⟩ ∧ b.kind = .local ∧
      (s.declareAs name (plan s name ty).ident b).Adjusts true
        ((plan s name ty).commit s isMutable source) := by
  let a := plan s name ty
  refine ⟨{ ty := a.ty, slot := ⟨a.ident, .declared isMutable⟩, isMutable }, rfl, rfl,
    Scope.Adjusts.trans ?_ (commit_adjusts a s isMutable source)⟩
  rcases hres : a.resolution with _ | _ | ident
  · rw [bind_of_fresh hres]
    exact .refl _
  · rw [show (plan s name ty).declares = _ from rfl, declares, hres] at h
    cases h
  · have hident : a.ident = ident := plan_shadow hres
    rw [bind_of_shadow hres, hident]
    split
    · exact Scope.adjusts_recordShadow ..
    · exact .refl _

/-- Any other assignment changes what is known of the variable that there is. -/
theorem commit_of_reuse (isMutable : Bool) (source : Option String)
    (h : (plan s name ty).resolution = .reuse) :
    s.Adjusts true ((plan s name ty).commit s isMutable source) := by
  refine Scope.Adjusts.trans ?_ (commit_adjusts _ s isMutable source)
  rw [bind_of_reuse h]
  exact Scope.adjusts_modifyBinding (fun _ => by rfl) s name

/-- A name is fresh if the function does not bind it. -/
theorem lookup_of_fresh (h : s.resolve name ty = .fresh) : s.lookupInFunction name = none := by
  unfold Scope.resolve at h
  split at h
  · assumption
  · split at h
    · cases h
    · cases h
    · cases h
    · split at h <;> cases h

end Assignment

theorem isOwnVariable_of_lookup {s : Scope} {n : String} {b : Binding}
    (hb : s.lookupInFunction n = some b) (hkind : b.kind ≠ .captured) :
    s.isOwnVariable n = true := by
  unfold Scope.isOwnVariable
  rw [hb]
  exact bne_iff_ne.mpr hkind

namespace Planner

/-! ## One name -/

/-- What the planner does about one name. -/
inductive NameStep (n : String) : List Decision → Planner → Planner → Prop
  | global {p p' : Planner} (scope : p'.scope = p.scope) (plan : p'.plan = p.plan)
      (decisions : p'.decisions = .global n :: p.decisions) : NameStep n [.global n] p p'
  /-- The name is first bound in a block; it is declared at the head of the body. -/
  | hoists {p p' : Planner} (b : Binding) (free : p.scope.lookupInFunction n = none)
      (form : b.slot.form = .hoisted) (kind : b.kind ≠ .captured)
      (scope : p'.scope = p.scope.declareInFunction n b.slot.ident b)
      (plan : p.plan.Within p'.plan) (hoisted : n ∈ p'.plan.hoistedNames)
      (decisions : p'.decisions = .stores n :: p.decisions) : NameStep n [.stores n] p p'
  /-- A store is recorded, unless it goes to a field or the name is not bound. -/
  | stores {p p' : Planner} (scope : p.scope.Adjusts true p'.scope)
      (plan : p.plan.Within p'.plan)
      (marks : ∀ b, p.scope.lookupInFunction n = some b → b.kind ≠ .captured →
        p'.plan.isMutable (p.scope.ident n) = true)
      (decisions : p'.decisions = .stores n :: p.decisions) : NameStep n [.stores n] p p'
  | declares {p p' : Planner} (s : Scope) (b : Binding) (form : b.slot.form = .declared false)
      (kind : b.kind ≠ .captured) (before : p.scope.Adjusts true s)
      (after : (s.declareAs n b.slot.ident b).Adjusts true p'.scope) (plan : p.plan.Within p'.plan)
      (decisions : p'.decisions = .declares n b.slot.ident :: p.decisions) :
      NameStep n [.declares n b.slot.ident] p p'

/-- What the planner does about a name that a block is handed. -/
structure HandStep (n : String) (p p' : Planner) : Prop where
  scope : ∃ b : Binding, b.slot.form.asksPlan = false ∧ b.kind ≠ .captured ∧
    p'.scope = p.scope.declareAs n b.slot.ident b
  plan : p'.plan = p.plan
  decisions : p'.decisions = p.decisions

/-- An assignment that declares its name, carried out on the copy of the scope. -/
theorem declares_step (p : Planner) (name : String) (ty : Ty) (source : Option String)
    (h : (Assignment.plan p.scope name ty).declares = true) :
    let a := Assignment.plan p.scope name ty
    NameStep name [.declares name a.ident] p
      ({ (p.tell (p.scope.resolveEvents name ty)).decided (.declares name a.ident) with
        scope := a.commit p.scope false source }.tell a.commitEvents) := by
  intro a
  obtain ⟨b, hslot, hkind, hafter⟩ := Assignment.commit_of_declares false source h
  have hident : b.slot.ident = a.ident := congrArg Slot.ident hslot
  rw [← hident] at hafter ⊢
  exact .declares p.scope b (congrArg Slot.form hslot) (by rw [hkind]; exact nofun) (.refl _)
    hafter (.refl _) rfl

theorem assignName_step (p : Planner) (name : String) (ty : Ty) (source : Option String) :
    ∃ new, NameStep name new p (p.assignName name ty source) := by
  unfold assignName
  split
  · exact ⟨_, .global rfl rfl rfl⟩
  · dsimp only
    split
    · rename_i hfresh
      split
      · refine ⟨_, .hoists
          { ty, slot := ⟨(Assignment.plan p.scope name ty).ident, .hoisted⟩, isMutable := true }
          (Assignment.lookup_of_fresh hfresh) rfl nofun rfl ?_ ?_ rfl⟩
        · exact (BodyPlan.within_hoist ..).trans (BodyPlan.within_markMutable ..)
        · exact (BodyPlan.hoistedNames_hoist ..).2
      · exact ⟨_, declares_step p name ty source (by rw [Assignment.declares, hfresh])⟩
    · rename_i hreuse
      have hident := Assignment.ident_of_reuse hreuse
      split
      · refine ⟨_, .stores (Assignment.commit_of_reuse false source hreuse)
          (BodyPlan.within_markMutable ..) (fun _ _ _ => ?_) rfl⟩
        rw [← hident]
        exact BodyPlan.isMutable_markMutable ..
      · rename_i hown
        refine ⟨_, .stores (Assignment.commit_of_reuse false source hreuse) (.refl _)
          (fun b hb hkind => absurd (isOwnVariable_of_lookup hb hkind) hown) rfl⟩
    · rename_i ident hshadow
      have hident := Assignment.plan_shadow hshadow
      subst hident
      exact ⟨_, declares_step p name ty source (by rw [Assignment.declares, hshadow])⟩

/-- What is told in between does not count. -/
theorem NameStep.of_eq {n : String} {new : List Decision} {p q p' : Planner}
    (h : NameStep n new q p') (hscope : q.scope = p.scope) (hplan : q.plan = p.plan)
    (hdecisions : q.decisions = p.decisions) : NameStep n new p p' := by
  obtain ⟨scope, depth, globals, plan, decisions, journal⟩ := p
  dsimp only at hscope hplan hdecisions
  subst hscope hplan hdecisions
  cases h with
  | global scope plan decisions => exact .global scope plan decisions
  | hoists b free form kind scope plan hoisted decisions =>
    exact .hoists b free form kind scope plan hoisted decisions
  | stores scope plan marks decisions => exact .stores scope plan marks decisions
  | declares s b form kind before after plan decisions =>
    exact .declares s b form kind before after plan decisions

theorem augAssignName_step (p : Planner) (o : Oracle) (name : String) (op : BinOp) (value : Expr) :
    ∃ new, NameStep name new p (p.augAssignName o name op value) := by
  unfold augAssignName
  split
  · exact ⟨_, .global rfl rfl rfl⟩
  · dsimp only
    split
    · exact (assignName_step ..).imp fun _ h => h.of_eq rfl rfl rfl
    · split
      · refine ⟨_, .stores (.refl _) (BodyPlan.within_markMutable ..) (fun _ _ _ => ?_) rfl⟩
        exact BodyPlan.isMutable_markMutable ..
      · rename_i hown
        exact ⟨_, .stores (.refl _) (.refl _)
          (fun b hb hkind => absurd (isOwnVariable_of_lookup hb hkind) hown) rfl⟩

/-- Variables that a nested function writes are recorded and stay what they are. -/
theorem foldl_writtenThrough (names : List String) (p : Planner) :
    p.scope.Adjusts true (names.foldl writtenThrough p).scope ∧
      p.plan.Within (names.foldl writtenThrough p).plan ∧
      (names.foldl writtenThrough p).decisions = p.decisions := by
  induction names generalizing p with
  | nil => exact ⟨.refl _, .refl _, rfl⟩
  | cons n rest ih =>
    obtain ⟨hscope, hplan, hdecisions⟩ := ih (p.writtenThrough n)
    refine ⟨.trans ?_ hscope, .trans ?_ hplan, hdecisions.trans ?_⟩
    all_goals unfold writtenThrough; split
    · exact Scope.adjusts_modifyBinding (fun _ => by rfl) _ n
    · exact .refl _
    · exact BodyPlan.within_markMutable ..
    · exact .refl _
    · rfl
    · rfl

theorem function_step (p : Planner) (f : Function) :
    ∃ new, NameStep f.name new p (p.function f) := by
  unfold function
  dsimp only
  obtain ⟨hscope, hplan, hdecisions⟩ := foldl_writtenThrough
    ((Usage.ofFunction f).nonlocals ++ (Usage.ofFunction f).nestedWrites)
    (p.tell [.analyzed f.name f.formals f.body])
  generalize List.foldl writtenThrough _ _ = q at hscope hplan hdecisions ⊢
  let ident := q.scope.freshIdent f.name
  exact ⟨_, .declares q.scope
    { ty := .unknown, kind := .closure, slot := ⟨ident, .declared false⟩ } rfl nofun hscope
    (.refl _) hplan (congrArg (Decision.declares f.name ident :: ·) hdecisions)⟩

theorem declareFresh_step (p : Planner) (name : String) (ty : Ty) :
    HandStep name p (p.declareFresh name ty .local .payload) :=
  ⟨⟨{ ty, slot := ⟨p.scope.freshIdent name, .payload⟩ }, rfl, nofun, rfl⟩, rfl, rfl⟩

/-! ## What planning leaves of the layers -/

/-- Planning goes on in the same block. -/
structure Advances (new : List Decision) (p p' : Planner) : Prop where
  plannable : p'.scope.Plannable
  plan : p.plan.Within p'.plan
  decisions : p'.decisions = new ++ p.decisions
  kind : p'.scope.layers.head?.map Layer.kind = p.scope.layers.head?.map Layer.kind
  around : List.Forall₂ (Layer.Extends p'.plan) p.scope.layers.tail p'.scope.layers.tail

/-- Something was planned in blocks of its own, which are left. -/
structure Passes (new : List Decision) (p p' : Planner) : Prop where
  plannable : p'.scope.Plannable
  plan : p.plan.Within p'.plan
  decisions : p'.decisions = new ++ p.decisions
  layers : List.Forall₂ (Layer.Extends p'.plan) p.scope.layers p'.scope.layers

variable {new more : List Decision} {n : String} {p p' p'' : Planner}

theorem Passes.advances (h : Passes new p p') : Advances new p p' := by
  refine ⟨h.plannable, h.plan, h.decisions, ?_, ?_⟩
  all_goals
    have hlayers := h.layers
    generalize p.scope.layers = ls, p'.scope.layers = ms at hlayers ⊢
    cases hlayers with
    | nil => first | rfl | exact .nil
    | cons hhead htail => first | exact congrArg some hhead.kind | exact htail

theorem Passes.trans (h : Passes new p p') (h' : Passes more p' p'') :
    Passes (more ++ new) p p'' where
  plannable := h'.plannable
  plan := h.plan.trans h'.plan
  decisions := by rw [h'.decisions, h.decisions, List.append_assoc]
  layers := Layer.forall₂_extends_trans h.layers h'.plan h'.layers

theorem Advances.trans (h : Advances new p p') (h' : Advances more p' p'') :
    Advances (more ++ new) p p'' where
  plannable := h'.plannable
  plan := h.plan.trans h'.plan
  decisions := by rw [h'.decisions, h.decisions, List.append_assoc]
  kind := h'.kind.trans h.kind
  around := Layer.forall₂_extends_trans h.around h'.plan h'.around

/-- Nothing of what a plan depends on was changed. -/
theorem Passes.of_eq (hp : p.scope.Plannable) (hscope : p'.scope = p.scope)
    (hplan : p.plan.Within p'.plan) (hdecisions : p'.decisions = p.decisions) : Passes [] p p' :=
  ⟨hscope ▸ hp, hplan, hdecisions, hscope ▸ Layer.forall₂_extends_refl ..⟩

theorem advances_of_adjusts {s : Scope} (hp : p.scope.Plannable) (hs : p.scope.Adjusts true s)
    (hscope : p'.scope = s) (hplan : p.plan.Within p'.plan)
    (hdecisions : p'.decisions = new ++ p.decisions) : Advances new p p' := by
  have hlayers : p'.scope.layers = p.scope.layers := hscope ▸ hs.layers
  refine ⟨hscope ▸ hp.adjusts hs, hplan, hdecisions, by rw [hlayers], ?_⟩
  rw [hlayers]
  exact Layer.forall₂_extends_refl ..

/-- A name is declared in the innermost block. -/
theorem advances_of_declareAs {s : Scope} {b : Binding} (hs : s.Plannable)
    (hlayers : s.layers = p.scope.layers) (hkind : b.kind ≠ .captured)
    (hafter : (s.declareAs n b.slot.ident b).Adjusts true p'.scope) (hplan : p.plan.Within p'.plan)
    (hdecisions : p'.decisions = new ++ p.decisions) : Advances new p p' := by
  have hlayers' : p'.scope.layers = p.scope.layers.modifyHead (Layer.bind n b.slot) := by
    rw [hafter.layers, Scope.layers_declareAs hs.leveled n rfl, hlayers]
  refine ⟨(hs.declareAs n rfl hkind).adjusts hafter, hplan, hdecisions, ?_, ?_⟩
  · rw [hlayers']
    cases p.scope.layers <;> rfl
  · rw [hlayers', List.tail_modifyHead]
    exact Layer.forall₂_extends_refl ..

theorem HandStep.advances (h : HandStep n p p') (hp : p.scope.Plannable) : Advances [] p p' := by
  obtain ⟨b, -, hkind, hscope⟩ := h.scope
  exact advances_of_declareAs hp rfl hkind (by rw [hscope]; exact .refl _) (h.plan ▸ .refl _)
    h.decisions

/-- **A step about one name** changes the innermost block, and hoists at most that name. -/
theorem NameStep.advances (h : NameStep n new p p') (hp : p.scope.Plannable) :
    Advances new p p' := by
  cases h with
  | global scope plan decisions =>
    exact advances_of_adjusts hp (.refl _) scope (plan ▸ .refl _) decisions
  | stores scope plan _ decisions => exact advances_of_adjusts hp scope rfl plan decisions
  | declares s b _ kind before after plan decisions =>
    exact advances_of_declareAs (hp.adjusts before) before.layers kind after plan decisions
  | hoists b free _ kind scope plan hoisted decisions =>
    obtain ⟨-, hlayers⟩ := Scope.layers_declareInFunction hp.leveled hp.function n (b := b) rfl
    have hfree : ∀ l ∈ Layer.inner p.scope.layers, ¬ l.Binds n := by
      intro l hl hbinds
      have hbound := (Scope.lookupInFunction_isSome hp.leveled).mpr ⟨l, hl, hbinds⟩
      rw [free] at hbound
      cases hbound
    have hextends := Layer.extends_hoist b.slot hoisted hfree
    rw [← hlayers, ← scope] at hextends
    exact Passes.advances
      ⟨scope ▸ hp.declareInFunction n rfl kind, plan, decisions, hextends⟩

/-- A block that was entered can be left, which takes its layer away. -/
theorem Advances.layers_leave (h : Advances new p.enter p') :
    p'.leave.scope.Plannable ∧
      ∃ l, l.isFunction = false ∧ p'.scope.layers = l :: p'.leave.scope.layers := by
  obtain ⟨hplannable, -, -, hkind, -⟩ := h
  obtain ⟨l, ls, hlayers⟩ : ∃ l ls, p'.scope.layers = l :: ls := by
    rcases hnil : p'.scope.layers with _ | ⟨l, ls⟩
    · rw [hnil] at hkind
      cases hkind
    · exact ⟨l, ls, rfl⟩
  have hblock : l.kind = .block := by
    rw [hlayers] at hkind
    exact Option.some.inj hkind
  rcases hframes : p'.scope.frames with _ | ⟨f, rest⟩
  · -- there would be no room for the function that the block stands in
    have hfunction := hplannable.function
    rw [hframes] at hfunction
    cases hfunction
  · have hf : f.isFunction = false := by
      obtain ⟨m, ms, hm, hmkind⟩ := Scope.exists_head_layer hplannable.leveled
        (show p'.scope.allFrames = f :: (rest ++ [p'.scope.base]) by
          rw [Scope.allFrames, hframes]; rfl)
      obtain ⟨rfl, -⟩ := List.cons.inj (hlayers.symm.trans hm)
      unfold Frame.isFunction
      rw [← hmkind, hblock]
    obtain ⟨left, hpop⟩ := Scope.exists_pop (s := p'.scope) (hframes ▸ List.cons_ne_nil f rest)
    have hleave : p'.leave.scope = left.scope := by
      unfold Planner.leave
      dsimp only
      rw [hpop]
      rfl
    obtain ⟨-, hleft, -⟩ := Scope.pop_layers hplannable.leveled hpop
    rw [hleave, hleft, hlayers]
    refine ⟨hplannable.pop hframes hf hpop, l, ?_, rfl⟩
    unfold Layer.isFunction
    rw [hblock]

/-- Leaving a block keeps what was planned in it. -/
theorem leave_plan (p : Planner) : p.leave.plan = p.plan ∧ p.leave.decisions = p.decisions := by
  unfold leave
  dsimp only
  split <;> exact ⟨rfl, rfl⟩

/-- **A block that is left** shows around it by the names that were hoisted from it. -/
theorem Advances.leave (h : Advances new p.enter p') : Passes new p p'.leave := by
  obtain ⟨hplannable, l, -, hlayers⟩ := h.layers_leave
  obtain ⟨hplan, hdecisions⟩ := leave_plan p'
  refine ⟨hplannable, hplan ▸ h.plan, hdecisions.trans h.decisions, ?_⟩
  have haround := h.around
  rw [hlayers] at haround
  rw [hplan]
  exact haround

/-! ## Statements -/

/-- The planner goes on in the same block and makes so many decisions. -/
def Plans (k : Nat) (f : Planner → Planner) : Prop :=
  ∀ p : Planner, p.scope.Plannable → ∃ new, new.length = k ∧ Advances new p (f p)

/-- The planner works in blocks of its own and makes so many decisions. -/
def PlansAside (k : Nat) (f : Planner → Planner) : Prop :=
  ∀ p : Planner, p.scope.Plannable → ∃ new, new.length = k ∧ Passes new p (f p)

variable {f g : Planner → Planner} {j k : Nat}

theorem PlansAside.plans (h : PlansAside k f) : Plans k f :=
  fun p hp => (h p hp).imp fun _ hnew => ⟨hnew.1, hnew.2.advances⟩

theorem Plans.comp (hf : Plans j f) (hg : Plans k g) : Plans (j + k) fun p => g (f p) := by
  intro p hp
  obtain ⟨new, hnew, hfirst⟩ := hf p hp
  obtain ⟨more, hmore, hsecond⟩ := hg (f p) hfirst.plannable
  exact ⟨more ++ new, by rw [List.length_append, hnew, hmore, Nat.add_comm], hfirst.trans hsecond⟩

theorem PlansAside.comp (hf : PlansAside j f) (hg : PlansAside k g) :
    PlansAside (j + k) fun p => g (f p) := by
  intro p hp
  obtain ⟨new, hnew, hfirst⟩ := hf p hp
  obtain ⟨more, hmore, hsecond⟩ := hg (f p) hfirst.plannable
  exact ⟨more ++ new, by rw [List.length_append, hnew, hmore, Nat.add_comm], hfirst.trans hsecond⟩

theorem Plans.block (hf : Plans k f) : PlansAside k fun p => (f p.enter).leave := by
  intro p hp
  obtain ⟨new, hnew, h⟩ := hf p.enter hp.pushBlock
  exact ⟨new, hnew, h.leave⟩

/-- The planner does nothing that a plan depends on. -/
theorem plansAside_of_eq (hscope : ∀ p, (f p).scope = p.scope)
    (hplan : ∀ p : Planner, p.plan.Within (f p).plan) (hdecisions : ∀ p, (f p).decisions = p.decisions) :
    PlansAside 0 f :=
  fun p hp => ⟨[], rfl, .of_eq hp (hscope p) (hplan p) (hdecisions p)⟩

theorem plansAside_id : PlansAside 0 fun p => p :=
  plansAside_of_eq (fun _ => rfl) (fun _ => .refl _) fun _ => rfl

theorem NameStep.length (h : NameStep n new p p') : new.length = 1 := by
  cases h <;> rfl

theorem plans_of_nameStep (h : ∀ p, ∃ new, NameStep n new p (f p)) : Plans 1 f := by
  intro p hp
  obtain ⟨new, hstep⟩ := h p
  exact ⟨new, hstep.length, hstep.advances hp⟩

theorem plans_of_handStep (h : ∀ p, HandStep n p (f p)) : Plans 0 f :=
  fun p hp => ⟨[], rfl, (h p).advances hp⟩

mutual

theorem assign_plans : ∀ (t : Target) (ty : Ty) (source : Option String),
    Plans t.names.length (assign ty source t)
  | .name n, ty, source => plans_of_nameStep fun p => by
      rw [assign]
      exact assignName_step p n ty source
  | .tuple parts, ty, source => fun p hp => by
    rw [assign, Target.names]
    exact assignParts_plans parts ty 0 p hp
  | .starred t, ty, source => fun p hp => by
    rw [assign, Target.names]
    exact assign_plans t (.list ty.element) none p hp
  | .attribute _ _, ty, source | .subscript _ _, ty, source => fun p hp => by
    rw [assign, Target.names]
    exact plansAside_id.plans p hp

theorem assignParts_plans : ∀ (ts : List Target) (ty : Ty) (i : Nat),
    Plans (Target.allNames ts).length (assignParts ty i ts)
  | [], ty, i => fun p hp => by
    rw [assignParts, Target.allNames]
    exact plansAside_id.plans p hp
  | t :: ts, ty, i => fun p hp => by
    rw [assignParts, Target.allNames, List.length_append]
    exact (assign_plans t (ty.part i) none).comp (assignParts_plans ts ty (i + 1)) p hp

end

mutual

theorem bindPayload_plans : ∀ (t : Target) (ty : Ty), Plans 0 (bindPayload ty t)
  | .name n, ty => plans_of_handStep fun p => by
      rw [bindPayload]
      exact declareFresh_step p n ty
  | .tuple parts, ty => fun p hp => by
    rw [bindPayload]
    exact bindPayloads_plans parts ty 0 p hp
  | .starred _, ty | .attribute _ _, ty | .subscript _ _, ty => fun p hp => by
    rw [bindPayload]
    exact plansAside_id.plans p hp

theorem bindPayloads_plans : ∀ (ts : List Target) (ty : Ty) (i : Nat), Plans 0 (bindPayloads ty i ts)
  | [], ty, i => fun p hp => by
    rw [bindPayloads]
    exact plansAside_id.plans p hp
  | t :: ts, ty, i => fun p hp => by
    rw [bindPayloads]
    exact (bindPayload_plans t (ty.part i)).comp (bindPayloads_plans ts ty (i + 1)) p hp

end

theorem withItem_plans (o : Oracle) (item : WithItem) : Plans 0 fun p => withItem o p item := by
  intro p hp
  unfold withItem
  split
  · exact bindPayload_plans _ _ p hp
  · exact plansAside_id.plans p hp

theorem withItems_plans (o : Oracle) (items : List WithItem) :
    Plans 0 fun p => items.foldl (withItem o) p := by
  induction items with
  | nil => exact plansAside_id.plans
  | cons item rest ih => exact (withItem_plans o item).comp ih

theorem bindHandler_plans (name : Option String) : Plans 0 (bindHandler name) := by
  cases name with
  | none => exact plansAside_id.plans
  | some n => exact plans_of_handStep fun p => declareFresh_step p n .unknown

mutual

/-- **What planning a statement does**: it makes the decisions that the statement asks for. -/
theorem stmt_plans (o : Oracle) : ∀ s : Stmt, Plans s.choices (stmt o s)
  | .assign t v declared => fun p hp => by
    rw [stmt, Stmt.choices]
    exact assign_plans t _ v.name? p hp
  | .augAssign t op v => fun p hp => by
    cases t with
    | name n =>
      rw [stmt, Stmt.choices]
      exact plans_of_nameStep (fun p => augAssignName_step p o n op v) p hp
    | _ =>
      simp only [stmt, Stmt.choices]
      exact plansAside_id.plans p hp
  | .ret none => fun p hp => by
    simp only [stmt, Stmt.choices]
    exact plansAside_id.plans p hp
  | .ret (some v) => fun p hp => by
    simp only [stmt, Stmt.choices]
    exact (plansAside_of_eq (f := fun p => { p with plan := p.plan.returns _ }) (fun _ => rfl)
      (fun _ => ⟨List.Subset.refl _, List.Subset.refl _⟩) fun _ => rfl).plans p hp
  | .ifElse test b e => fun p hp => by
    rw [Stmt.choices]
    have hbody := (stmts_plans o b).block
    cases e with
    | nil =>
      rw [stmt, Stmt.allChoices]
      exact hbody.plans p hp
    | cons s ss =>
      rw [stmt]
      · exact (hbody.comp (stmts_plans o (s :: ss)).block).plans p hp
      · exact nofun
  | .whileLoop test b => fun p hp => by
    rw [stmt, Stmt.choices]
    exact (stmts_plans o b).block.plans p hp
  | .forLoop t i b => fun p hp => by
    rw [stmt, Stmt.choices, ← Nat.zero_add (Stmt.allChoices b)]
    exact ((bindPayload_plans t _).comp (stmts_plans o b)).block.plans p hp
  | .tryExcept b hs e f => fun p hp => by
    rw [stmt, Stmt.choices]
    exact ((((stmts_plans o b).block.comp (handlers_plans o hs)).comp (stmts_plans o e).block).comp
      (stmts_plans o f).block).plans p hp
  | .withItems items b => fun p hp => by
    rw [stmt, Stmt.choices, ← Nat.zero_add (Stmt.allChoices b)]
    exact ((withItems_plans o items).comp (stmts_plans o b)).block.plans p hp
  | .functionDef f => fun p hp => by
    rw [stmt, Stmt.choices]
    exact plans_of_nameStep (fun p => function_step p f) p hp
  | .global names => fun p hp => by
    simp only [stmt, Stmt.choices]
    exact (plansAside_of_eq (f := fun p => { p with globals := p.globals ++ names })
      (fun _ => rfl) (fun _ => .refl _) fun _ => rfl).plans p hp
  | .expr _ | .breakLoop | .continueLoop | .pass | .raise _ | .assert _ _ | .nonlocal _
  | .delete _ => fun p hp => by
    simp only [stmt, Stmt.choices]
    exact plansAside_id.plans p hp

theorem stmts_plans (o : Oracle) : ∀ ss : List Stmt, Plans (Stmt.allChoices ss) (stmts o ss)
  | [] => fun p hp => by
    rw [stmts, Stmt.allChoices]
    exact plansAside_id.plans p hp
  | s :: ss => fun p hp => by
    rw [stmts, Stmt.allChoices]
    exact (stmt_plans o s).comp (stmts_plans o ss) p hp

/-- Handlers are planned in blocks of their own. -/
theorem handlers_plans (o : Oracle) :
    ∀ hs : List Handler, PlansAside (Handler.choices hs) (handlers o hs)
  | [] => fun p hp => by
    rw [handlers, Handler.choices]
    exact plansAside_id p hp
  | ⟨_, name, body⟩ :: hs => fun p hp => by
    rw [handlers, Handler.choices, ← Nat.zero_add (Stmt.allChoices body)]
    exact ((bindHandler_plans name).comp (stmts_plans o body)).block.comp (handlers_plans o hs) p hp

end

end Planner

end ClosureConversion
