import ClosureConversion.Proofs.Emit.InStep

/-! # Writing follows the plan -/

set_option autoImplicit false

namespace ClosureConversion

/-! ## Updates -/

/-- The update of a variable is written, and noted unless the variable is declared global. -/
structure Context.Updates (isGlobal : Bool) (n : String) (previous : Option Binding)
    (c c' : Context) : Prop where
  scope : c.scope.Widens c'.scope
  decisions : c'.current.decisions = c.current.decisions
  lines : ∀ line ∈ c'.current.stores, line ∈ c.current.stores ∨
    isGlobal = false ∧ line.name = n ∧ line.previous = previous

theorem Context.Detour.updates {isGlobal : Bool} {n : String} {previous : Option Binding}
    {c c₁ c' : Context} (h : c.Detour c₁) (h' : c₁.Updates isGlobal n previous c') :
    c.Updates isGlobal n previous c' :=
  ⟨h.scope.trans h'.scope, h'.decisions.trans h.decisions, h.stores ▸ h'.lines⟩

namespace Emit

variable {α β : Type} {plan : BodyPlan} {n : String} {c₀ : Context}

/-- Where the computation succeeds, it writes the update of a variable. -/
def Updating (isGlobal : Bool) (n : String) (previous : Option Binding) (x : Emit Buffer) : Prop :=
  ∀ w c out c', c.scope.Leveled → x w c = (.ok out, c') → c.Updates isGlobal n previous c'

section Update

variable {isGlobal : Bool} {previous : Option Binding}

theorem Detours.updating {x : Emit Buffer} (hx : Detours x) : Updating isGlobal n previous x := by
  intro w c out c' hc h
  have hdetour := hx w c out c' hc h
  exact ⟨hdetour.scope, hdetour.decisions, fun line hline => .inl (hdetour.stores ▸ hline)⟩

theorem Updating.bind {x : Emit α} {f : α → Emit Buffer} (hx : Detours x)
    (hf : ∀ a, Updating isGlobal n previous (f a)) : Updating isGlobal n previous (x >>= f) := by
  intro w c out c' hc h
  obtain ⟨a, c₁, hxc, hfc⟩ := bind_eq_ok h
  have hdetour := hx w c a c₁ hc hxc
  exact hdetour.updates (hf a w c₁ out c' hdetour.leveled hfc)

theorem updateLine_updating (ident rest : String) (out : Buffer) :
    Updating isGlobal n previous (updateLine isGlobal n ident rest previous out) := by
  intro w c out' c' hc h
  cases isGlobal with
  | true =>
    cases h
    exact ⟨.refl hc, rfl, fun line hline => .inl hline⟩
  | false =>
    cases h
    refine ⟨.refl hc, rfl, fun line hline => ?_⟩
    rcases List.mem_cons.mp (show line ∈ _ :: c.current.stores from hline) with rfl | hold
    · exact .inr ⟨rfl, rfl, rfl⟩
    · exact .inl hold

theorem writeUpdate_updating (ident : String) (ty valueTy : Ty) (op : BinOp) (value : Expr)
    (out : Buffer) : Updating isGlobal n previous
      (writeUpdate n ident isGlobal previous ty valueTy op value out) := by
  have hrender := Detours.rendering.renderExpr
  unfold writeUpdate
  split
  · exact .bind (hrender value) fun _ => .bind (flushPrelude_detours out) fun out =>
      updateLine_updating ident _ out
  · refine .bind (hrender value) fun v => Detours.updating ?_
    refine Detours.hereditary.options fun o ho => ?_
    exact (Detours.hereditary.fallibleIf _ ho id trivial).bind fun _ =>
      (flushPrelude_detours out).bind fun _ => .pure _
  · exact .bind (hrender _) fun _ => .bind (flushPrelude_detours out) fun out =>
      updateLine_updating ident _ out

end Update

/-! ## Names of targets -/

/-- Where the computation succeeds after a detour from `c₀`, one decision was made since. -/
def DecidesSince (c₀ : Context) (n : String) (x : Emit α) : Prop :=
  ∀ w c a c', c₀.Detour c → x w c = (.ok a, c') → c₀.Decides n c'

theorem DecidesSince.bind {x : Emit α} {f : α → Emit β} (hx : Detours x)
    (hf : ∀ a, DecidesSince c₀ n (f a)) : DecidesSince c₀ n (x >>= f) := by
  intro w c b c' hc h
  obtain ⟨a, c₁, hxc, hfc⟩ := bind_eq_ok h
  exact hf a w c₁ b c' (hc.trans (hx w c a c₁ hc.leveled hxc)) hfc

/-- A plan is made in a scope that expressions may have widened. -/
theorem planAssignment_decides {ty : Ty} {f : Assignment → Emit β}
    (hf : ∀ s : Scope, c₀.scope.Widens s → DecidesSince c₀ n (f (Assignment.plan s n ty))) :
    DecidesSince c₀ n (planAssignment n ty >>= f) := by
  intro w c b c' hc h
  obtain ⟨a, c₁, hplan, hfc⟩ := bind_eq_ok h
  cases hplan
  have hdecides := fun hdetour => hf c.scope hc.scope w _ b c' hdetour hfc
  exact hdecides ⟨hc.scope, hc.decisions, hc.stores⟩

/-- **An assignment that was planned** is carried out where its value was written. -/
theorem bindName_decides {s : Scope} (hs : c₀.scope.Widens s) (ty : Ty) (text : String)
    (source : Option String) (out : Buffer) :
    DecidesSince c₀ n (bindName (Assignment.plan s n ty) text source out) := by
  intro w c out' c' hc h
  obtain ⟨hlevel, hlayers⟩ := Assignment.layers_commit (s := s) hc.leveled n ty
    (c.current.plan.isMutable (Assignment.plan s n ty).ident) source
  rw [bindName, bind_apply, show current w c = (.ok c.current, c) from rfl] at h
  obtain ⟨read, c₁, hread, h⟩ := bind_eq_ok h
  cases hread
  cases hdeclares : (Assignment.plan s n ty).declares with
  | true =>
    rw [hdeclares] at h hlayers
    cases h
    refine ⟨_, .declares _ _ ⟨hlevel, ⟨c.scope, hc.scope, hlayers⟩, hc.stores⟩, ?_⟩
    exact congrArg (some _ :: ·) hc.decisions
  | false =>
    rw [hdeclares] at h hlayers
    cases h
    refine ⟨_, .stores (hc.scope.trans (.of_layers hlevel hlayers)) fun line hline => ?_,
      congrArg (some _ :: ·) hc.decisions⟩
    rcases List.mem_cons.mp (show line ∈ _ :: c.current.stores from hline) with rfl | hold
    · exact .inr ⟨rfl, s, hs, rfl⟩
    · exact .inl (hc.stores ▸ hold)

/-- A name that is declared global is no variable of the function. -/
theorem decided_global {f : Unit → Emit β} (hf : ∀ a, Detours (f a)) :
    DecidesSince c₀ n (decided (.global n) >>= f) := by
  intro w c b c' hc h
  obtain ⟨⟨⟩, c₁, hdecided, h⟩ := bind_eq_ok h
  cases hdecided
  have hdetour := fun hlevel => hf () w _ b c' hlevel h
  obtain ⟨hscope, hdecisions, hstores⟩ := hdetour hc.leveled
  have hsame : c'.current.stores = c₀.current.stores := hstores.trans hc.stores
  exact ⟨_, .global (hc.scope.trans hscope) fun _ hline => hsame ▸ hline,
    hdecisions.trans (congrArg (some _ :: ·) hc.decisions)⟩

/-- A variable that keeps its type is updated. -/
theorem updateName_decides (op : BinOp) (value : Expr) (out : Buffer) :
    DecidesSince c₀ n (decided (.stores n) >>= fun _ => updateName n op value out) := by
  intro w c out' c' hc h
  obtain ⟨⟨⟩, c₁, hdecided, h⟩ := bind_eq_ok h
  cases hdecided
  rw [updateName_apply] at h
  have hupdates := fun hlevel => writeUpdate_updating _ _ _ op value out w _ out' c' hlevel h
  obtain ⟨hscope, hdecisions, hlines⟩ := hupdates hc.leveled
  refine ⟨_, .stores (hc.scope.trans hscope) fun line hline => ?_,
    hdecisions.trans (congrArg (some _ :: ·) hc.decisions)⟩
  rcases hlines line hline with hold | ⟨-, hname, hprevious⟩
  · exact .inl (hc.stores ▸ hold)
  · exact .inr ⟨hname, c.scope, hc.scope, hprevious⟩

theorem assignName_decides (value : Expr) (declared : Option Ty) (out : Buffer) :
    DecidesSince c₀ n (assignName n value declared out) := by
  refine .bind (Detours.hereditary.isDeclaredGlobal n) fun isGlobal => ?_
  split
  · exact decided_global fun _ => (Detours.rendering.renderExpr value).bind fun _ =>
      (flushPrelude_detours out).bind fun _ => .pure _
  split
  · rename_i params body
    refine .bind (Detours.rendering.lambda params (Detours.rendering.render body none))
      fun built => planAssignment_decides fun s hs => ?_
    exact .bind (flushPrelude_detours out) fun out => bindName_decides hs _ _ _ out
  · refine .bind (Detours.hereditary.typeOf value) fun ty => planAssignment_decides fun s hs => ?_
    refine .bind Detours.hereditary.scope fun _ => .bind (Detours.rendering.render value _)
      fun text => ?_
    exact .bind (flushPrelude_detours out) fun out => bindName_decides hs _ _ _ out

theorem augAssignName_decides (op : BinOp) (value : Expr) (out : Buffer) :
    DecidesSince c₀ n (augAssignName n op value out) := by
  intro w c out' c' hc h
  obtain ⟨isGlobal, c₁, hglobal, h⟩ := bind_eq_ok h
  cases hglobal
  by_cases hcontains : c.current.globals.contains n = true
  · -- the update of a global is not noted
    rw [if_pos hcontains] at h
    obtain ⟨⟨⟩, c₁, hdecided, h⟩ := bind_eq_ok h
    cases hdecided
    rw [updateName_apply] at h
    have hupdates := fun hlevel => writeUpdate_updating _ _ _ op value out w _ out' c' hlevel h
    obtain ⟨hscope, hdecisions, hlines⟩ := hupdates hc.leveled
    refine ⟨_, .global (hc.scope.trans hscope) fun line hline => ?_,
      hdecisions.trans (congrArg (some _ :: ·) hc.decisions)⟩
    rcases hlines line hline with hold | ⟨hlocal, -⟩
    · exact hc.stores ▸ hold
    · exact absurd hcontains (ne_true_of_eq_false hlocal)
  · rw [if_neg hcontains] at h
    refine DecidesSince.bind (Detours.hereditary.typeOf _) (fun ty => ?_) w c out' c' hc h
    refine planAssignment_decides fun s hs => ?_
    split
    · exact .bind (Detours.rendering.renderExpr _) fun _ => .bind (flushPrelude_detours out)
        fun out => bindName_decides hs _ _ _ out
    · exact updateName_decides op value out

/-! ## Assignments -/

theorem mirrors_unsupported (f : Planner → Planner) (what : String) :
    Mirrors plan f (unsupported what : Emit α) :=
  fun _ _ _ _ _ _ _ h => nomatch h

/-- A decision about a name, made by the planner as well. -/
theorem mirrors_of_decides {f : Planner → Planner} {x : Emit α}
    (hf : ∀ p : Planner, ∃ new, p.NameStep n new (f p)) (hx : ∀ c₀, DecidesSince c₀ n x) :
    Mirrors plan f x :=
  mirrors_of_nameSteps hf fun w c a c' hc h => hx c w c a c' (.refl hc) h

mutual

theorem assignPart_mirrors : ∀ (t : Target) (access : String) (planned ty : Ty)
    (source : Option String) (out : Buffer),
    Mirrors plan (Planner.assign planned source t) (assignPart t access ty out)
  | .name n, access, planned, ty, source, out => by
    refine mirrors_of_decides (n := n) (fun p => ?_) fun c₀ => ?_
    · rw [Planner.assign]
      exact Planner.assignName_step p n planned source
    · rw [assignPart]
      refine .bind (Detours.hereditary.isDeclaredGlobal n) fun isGlobal => ?_
      split
      · exact decided_global fun _ => .pure _
      · exact planAssignment_decides fun s hs => bindName_decides hs _ _ _ out
  | .tuple parts, access, planned, ty, source, out => by
    rw [assignPart]
    simp only [Mirrors, Planner.assign]
    exact (temporary_detours "tuple").before fun tmp =>
      assignParts_mirrors parts tmp planned ty 0 0 _
  | .attribute e _, access, planned, ty, source, out => by
    rw [assignPart]
    simp only [Mirrors, Planner.assign]
    exact ((Detours.rendering.renderOperand e).bind fun _ => (flushPrelude_detours out).bind
      fun _ => .pure _).mirrors
  | .subscript e i, access, planned, ty, source, out => by
    rw [assignPart]
    simp only [Mirrors, Planner.assign]
    exact (Detours.hereditary.store access out (Detours.rendering.renderOperand e)
      (Detours.rendering.renderExpr i) trivial).mirrors
  | .starred _, _, _, _, _, _ => by
    rw [assignPart]
    exact mirrors_unsupported _ _

theorem assignParts_mirrors : ∀ (ts : List Target) (text : String) (planned ty : Ty) (i j : Nat)
    (out : Buffer), Mirrors plan (Planner.assignParts planned i ts) (assignParts ts text ty j out)
  | [], _, _, _, _, _, out => by
    rw [assignParts]
    simp only [Mirrors, Planner.assignParts]
    exact (Detours.pure out).mirrors
  | t :: ts, text, planned, ty, i, j, out => by
    rw [assignParts]
    simp only [Mirrors, Planner.assignParts]
    refine (Detours.hereditary.partAccess text ty j trivial).before fun access => ?_
    exact (assignPart_mirrors t access _ _ none out).bind fun out =>
      assignParts_mirrors ts text planned ty (i + 1) (j + 1) out

end

theorem assign_mirrors (t : Target) (value : Expr) (declared : Option Ty) (planned : Ty)
    (source : Option String) (out : Buffer) :
    Mirrors plan (Planner.assign planned source t) (assign t value declared out) := by
  have hrender := Detours.rendering.renderExpr
  cases t with
  | name n =>
    refine mirrors_of_decides (n := n) (fun p => ?_) fun c₀ => assignName_decides value declared out
    rw [Planner.assign]
    exact Planner.assignName_step p n planned source
  | tuple parts =>
    simp only [Mirrors, Planner.assign]
    refine (Detours.hereditary.typeOf value).before fun ty => (hrender value).before fun text => ?_
    refine (flushPrelude_detours out).before fun out => ?_
    exact (temporary_detours "tuple").before fun tmp => assignParts_mirrors parts tmp _ ty 0 0 _
  | «attribute» e attr =>
    simp only [Mirrors, Planner.assign]
    exact ((hrender value).bind fun _ => (Detours.rendering.renderOperand e).bind fun _ =>
      (flushPrelude_detours out).bind fun _ => .pure _).mirrors
  | subscript e i =>
    simp only [Mirrors, Planner.assign]
    exact ((hrender value).bind fun v => Detours.hereditary.store v out
      (Detours.rendering.renderOperand e) (hrender i) trivial).mirrors
  | starred t => exact mirrors_unsupported _ _

theorem augAssign_mirrors (o : Oracle) (t : Target) (op : BinOp) (value : Expr) (out : Buffer) :
    Mirrors plan (Planner.stmt o (.augAssign t op value)) (augAssign t op value out) := by
  cases t with
  | name n =>
    refine mirrors_of_decides (n := n) (fun p => ?_) fun c₀ => augAssignName_decides op value out
    rw [Planner.stmt]
    exact Planner.augAssignName_step p o n op value
  | tuple _ => exact mirrors_unsupported _ _
  | starred _ => exact mirrors_unsupported _ _
  | «attribute» e attr =>
    have hassign : Mirrors plan (Planner.assign .unknown none (.attribute e attr)) _ :=
      assign_mirrors _ (.binary op (.attribute e attr) value) none .unknown none out
    simp only [Mirrors, Planner.assign] at hassign
    simp only [Mirrors, Planner.stmt]
    exact hassign
  | subscript e i =>
    have hassign : Mirrors plan (Planner.assign .unknown none (.subscript e i)) _ :=
      assign_mirrors _ (.binary op (.subscript e i) value) none .unknown none out
    simp only [Mirrors, Planner.assign] at hassign
    simp only [Mirrors, Planner.stmt]
    exact hassign

/-! ## What blocks are handed -/

/-- A name that a block is handed is bound under an identifier that no plan speaks of. -/
theorem declareAs_hands {w : Settings} {c : Context} {n ident : String} {b : Binding}
    (hident : b.slot.ident = ident) (hb : b.slot.form.asksPlan = false) (hc : c.scope.Leveled) :
    c.Hands n (declareAs n ident b w c).2 :=
  ⟨b.slot, hb, ⟨Scope.leveled_declareAs hc .., ⟨c.scope, .refl hc, Scope.layers_declareAs hc n hident⟩,
    rfl⟩, rfl⟩

theorem bindPayload_mirrors (n : String) (planned ty : Ty) :
    Mirrors plan (Planner.bindPayload planned (.name n)) (bindPayload n ty) := by
  refine mirrors_of_hands (n := n) (fun p => ?_) fun w c ident c' hc h => ?_
  · rw [Planner.bindPayload]
    exact Planner.declareFresh_step p n planned
  · cases h
    exact declareAs_hands (w := w) (b := { ty, slot := ⟨_, .payload⟩ }) rfl rfl hc

theorem bindCounter_mirrors (n start : String) (planned : Ty) :
    Mirrors plan (Planner.bindPayload planned (.name n)) (bindCounter n start) := by
  refine mirrors_of_hands (n := n) (fun p => ?_) fun w c ident c' hc h => ?_
  · rw [Planner.bindPayload]
    exact Planner.declareFresh_step p n planned
  · cases h
    exact ⟨⟨c.scope.freshIdent n, .counter⟩, rfl, ⟨Scope.leveled_declareAs hc .., ⟨c.scope, .refl hc,
      Scope.layers_declareAs hc n rfl⟩, rfl⟩, rfl⟩

mutual

theorem unpackPart_mirrors (used : List String) : ∀ (t : Target) (source : String)
    (planned ty : Ty), Mirrors plan (Planner.bindPayload planned t) (unpackPart used t source ty)
  | .name n, source, planned, ty => by
    rw [unpackPart]
    exact (bindPayload_mirrors n planned ty).before fun _ => .pure _
  | .tuple parts, source, planned, ty => by
    rw [unpackPart]
    simp only [Mirrors, Planner.bindPayload]
    exact unpack_mirrors used parts source planned ty 0 0
  | .attribute _ _, _, _, _ | .subscript _ _, _, _, _ | .starred _, _, _, _ => by
    rw [unpackPart]
    exact mirrors_unsupported _ _

theorem unpack_mirrors (used : List String) : ∀ (ts : List Target) (source : String)
    (planned ty : Ty) (i j : Nat),
    Mirrors plan (Planner.bindPayloads planned i ts) (unpack used ts source ty j)
  | [], _, _, _, _, _ => by
    rw [unpack]
    simp only [Mirrors, Planner.bindPayloads]
    exact (Detours.pure _).mirrors
  | t :: ts, source, planned, ty, i, j => by
    rw [unpack]
    simp only [Mirrors, Planner.bindPayloads]
    refine (unpackPart_mirrors used t _ _ _).bind fun _ => ?_
    exact (unpack_mirrors used ts source planned ty (i + 1) (j + 1)).before fun _ => .pure _

end

theorem loopPayload_mirrors (t : Target) (planned elem : Ty) (used : List String) :
    Mirrors plan (Planner.bindPayload planned t) (loopPayload t elem used) := by
  unfold loopPayload
  split
  · exact (bindPayload_mirrors _ planned elem).before fun _ => .pure _
  · simp only [Mirrors, Planner.bindPayload]
    exact (temporary_detours "item").before fun _ =>
      (unpack_mirrors used _ _ planned elem 0 0).before fun _ => .pure _
  · exact mirrors_unsupported _ _

/-- **Opening a loop** binds the names of its target. -/
theorem openLoop_mirrors (t : Target) (iter : Expr) (planned : Ty) (used : List String)
    (out : Buffer) : Mirrors plan (Planner.bindPayload planned t)
      (openLoop t iter (renderExpr iter) (argTexts iter) used out) := by
  refine Detours.hereditary.scope.before fun s => ?_
  split
  · rename_i name args hcounted
    rw [countedRange?_target hcounted]
    refine (Detours.sequential.sequence (Detours.rendering.argTexts iter)).before fun bounds => ?_
    refine (flushPrelude_detours out).before fun out => Mirrors.before ?_ fun _ => .pure _
    exact (bindCounter_mirrors name _ planned).before fun _ => .pure _
  · refine (Detours.hereditary.typeOf iter).before fun ty => ?_
    refine (Detours.rendering.renderOperand iter).before fun it => ?_
    refine (flushPrelude_detours out).before fun out => ?_
    refine (loopPayload_mirrors t planned _ used).before fun ⟨payload, lines⟩ => ?_
    dsimp only
    split
    · exact .pure _
    · exact .pure _
    · exact .pure _
    · exact (temporary_detours "it").bind fun _ => .pure _

theorem withItem_mirrors (o : Oracle) (item : WithItem) (out : Buffer) :
    Mirrors plan (fun p => Planner.withItem o p item) (withItem out item) := by
  obtain ⟨context, target⟩ := item
  refine (Detours.hereditary.typeOf _).before fun ty => ?_
  refine (Detours.rendering.renderExpr context).before fun text => ?_
  refine (flushPrelude_detours out).before fun out => ?_
  cases target with
  | none => exact ((temporary_detours "ctx").bind fun _ => .pure _).mirrors
  | some t =>
    cases t with
    | name n =>
      intro p
      exact ((bindPayload_mirrors n _ ty).before fun _ => .pure _) p
    | _ => exact fun _ _ _ _ _ _ _ h => nomatch h

theorem withItems_mirrors (o : Oracle) (items : List WithItem) (out : Buffer) :
    Mirrors plan (fun p => items.foldl (Planner.withItem o) p) (items.foldlM withItem out) := by
  induction items generalizing out with
  | nil => exact (Detours.pure out).mirrors
  | cons item rest ih =>
    rw [List.foldlM_cons]
    exact (withItem_mirrors o item out).bind fun out => ih out

theorem bindHandler_mirrors (name : Option String) (body : List Stmt) (payload : String)
    (out : Buffer) :
    Mirrors plan (Planner.bindHandler name) (bindHandler name body payload out) := by
  cases name with
  | none => exact (Detours.pure out).mirrors
  | some n =>
    refine (claimIdent_detours n).before fun ident => ?_
    refine Mirrors.before ?_ fun _ => (tell_detours _).bind fun _ => .pure _
    refine mirrors_of_hands (n := n) (fun p => Planner.declareFresh_step p n .unknown)
      fun w c a c' hc h => ?_
    have hhands := declareAs_hands (w := w) (n := n)
      (b := { ty := .unknown, slot := ⟨ident, .payload⟩ }) rfl rfl hc
    rw [h] at hhands
    exact hhands

/-! ## Bodies of statements -/

section Bodies

variable {body : Buffer → Emit Buffer} {f : Planner → Planner}

theorem nested_mirrors (out : Buffer) (hbody : ∀ out, Mirrors plan f (body out)) :
    Mirrors plan (fun p => (f p.enter).leave) (nested body out) :=
  ((hbody _).before fun _ => .pure _).inBlock

theorem whileLoop_mirrors (test : Expr) (out : Buffer) (hbody : ∀ out, Mirrors plan f (body out)) :
    Mirrors plan (fun p => (f p.enter).leave) (whileLoop test body out) := by
  refine (isolated_detours (Detours.rendering.renderCondition test)).before fun ⟨t, before⟩ => ?_
  dsimp only
  split
  · exact (nested_mirrors _ hbody).looping.before fun _ => .pure _
  · exact ((hbody _).inBlock).looping.before fun _ => .pure _

/-- The planner's type of the elements is whatever it is. -/
theorem forLoop_mirrors (t : Target) (iter : Expr) (planned : Ty) (stmts : List Stmt) (out : Buffer)
    (hbody : ∀ out, Mirrors plan f (body out)) :
    Mirrors plan (fun p => (f (Planner.bindPayload planned t p.enter)).leave)
      (forLoop t iter stmts body out) := by
  refine (tell_detours _).before fun _ => ?_
  refine Mirrors.inBlock (f := fun p => f (Planner.bindPayload planned t p)) ?_
  refine (openLoop_mirrors t iter planned _ out).bind fun ⟨braces, out⟩ => ?_
  exact (hbody out).looping.before fun _ => .pure _

/-- A part of a `try` statement, which may be left out. -/
structure PartMirrors (plan : BodyPlan) (f : Planner → Planner)
    (part : Option (Buffer → Emit Buffer)) : Prop where
  written : ∀ x ∈ part, ∀ out, Mirrors plan f (x out)
  absent : part = none → Planner.PlansAside 0 fun p => (f p.enter).leave

variable {parts : TryParts} {handled orelse closing : Planner → Planner}

theorem unguarded_mirrors (text : String) (out : Buffer)
    (hskipped : Planner.PlansAside parts.choices handled)
    (horelse : PartMirrors plan orelse parts.orelse) :
    Mirrors plan (fun p => (orelse (handled p).enter).leave) (unguarded parts text out) := by
  refine (mirrors_undecided hskipped).bind (g := fun p => (orelse p.enter).leave) fun _ => ?_
  dsimp only
  split
  · rename_i x hx
    exact (nested_mirrors _ (horelse.written x hx)).before fun _ => .pure _
  · rename_i hnone
    exact mirrors_of_detours (horelse.absent hnone) (.pure _)

theorem guarded_mirrors (number : Nat) (target : CatchTarget) (text : String) (out : Buffer)
    (hhandled : ∀ payload out, Mirrors plan handled (parts.handlers payload out))
    (horelse : PartMirrors plan orelse parts.orelse) :
    Mirrors plan (fun p => (orelse (handled p).enter).leave)
      (guarded parts number target text out) := by
  refine (claimIdent_detours _).before fun payload => (note_detours rfl).before fun _ => ?_
  refine ((hhandled payload {}).handling payload).bind (g := fun p => (orelse p.enter).leave)
    fun chain => ?_
  dsimp only
  split
  · rename_i hnone
    exact mirrors_of_detours (horelse.absent hnone) (.pure _)
  · rename_i x hx
    exact (nested_mirrors _ (horelse.written x hx)).before fun _ => .pure _

/-- **A `try` statement.** Handlers are planned, whether they are written or not. -/
theorem tryBlock_mirrors (out : Buffer) (hbody : ∀ out, Mirrors plan f (parts.body out))
    (hhandled : ∀ payload out, Mirrors plan handled (parts.handlers payload out))
    (hskipped : Planner.PlansAside parts.choices handled)
    (horelse : PartMirrors plan orelse parts.orelse)
    (hfinally : PartMirrors plan closing parts.finally?) :
    Mirrors plan
      (fun p => (closing (orelse (handled (f p.enter).leave).enter).leave.enter).leave)
      (tryBlock parts out) := by
  have hnumber : Detours nextNumber := detours_of_eq fun _ _ => ⟨rfl, rfl, rfl⟩
  refine hnumber.before fun n => (claimIdent_detours _).before fun slot => ?_
  refine (((hbody {}).inBlock).catching _).bind
    (g := fun p => (closing (orelse (handled p).enter).leave.enter).leave) fun text => ?_
  dsimp only
  split
  case isTrue =>
    refine (guarded_mirrors n _ _ out hhandled horelse).bind
      (g := fun p => (closing p.enter).leave) fun out => ?_
    split
    · rename_i x hx
      exact (nested_mirrors _ (hfinally.written x hx)).before fun _ => .pure _
    · rename_i hnone
      exact mirrors_of_detours (hfinally.absent hnone) (.pure _)
  case isFalse =>
    refine (unguarded_mirrors _ out hskipped horelse).bind
      (g := fun p => (closing p.enter).leave) fun out => ?_
    split
    · rename_i x hx
      exact (nested_mirrors _ (hfinally.written x hx)).before fun _ => .pure _
    · rename_i hnone
      exact mirrors_of_detours (hfinally.absent hnone) (.pure _)

end Bodies

/-! ## The tree -/

/-- A part without statements is left out; the planner opens a block for it all the same. -/
theorem partMirrors_stmts (o : Oracle) (ss : List Stmt)
    (h : ∀ out, Mirrors plan (Planner.stmts o ss) (stmts ss out)) :
    PartMirrors plan (Planner.stmts o ss) (if ss.isEmpty then none else some (stmts ss)) := by
  cases ss with
  | nil => exact ⟨fun x hx => absurd hx (Option.not_mem_none x), fun _ => (Planner.stmts_plans o []).block⟩
  | cons s rest =>
    refine ⟨fun x hx => ?_, fun hnone => nomatch hnone⟩
    obtain rfl := Option.mem_some.mp hx
    exact h

mutual

theorem delete_detours : ∀ (t : Target) (out : Buffer), Detours (delete t out)
  | .subscript e i, out => Detours.hereditary.delete_subscript out
      (Detours.rendering.renderOperand e) (Detours.rendering.renderExpr i) trivial
  | .name n, out => by
    rw [delete]
    exact (tell_detours _).bind fun _ => .pure _
  | .tuple parts, out => by
    rw [delete]
    exact deleteAll_detours parts out
  | .attribute _ _, _ | .starred _, _ => by
    rw [delete]
    exact Detours.hereditary.unsupported _

theorem deleteAll_detours : ∀ (ts : List Target) (out : Buffer), Detours (deleteAll ts out)
  | [], out => by
    rw [deleteAll]
    exact .pure _
  | t :: ts, out => by
    rw [deleteAll]
    exact (delete_detours t out).bind fun out => deleteAll_detours ts out

end

theorem raiseError_detours (e : Option Expr) : Detours (raiseError e) := by
  cases e with
  | none => exact Detours.bind (detours_of_eq fun _ _ => ⟨rfl, rfl, rfl⟩) fun _ => .pure _
  | some e =>
    refine Detours.hereditary.scope.bind fun s => ?_
    dsimp only
    split <;> exact .pure _

theorem returnValue_detours (v : Expr) (out : Buffer) :
    Detours (returnValue v (renderExpr v) out) := by
  have hreturning (value : Option String) (out : Buffer) : Detours (returning value out) := by
    refine (note_detours rfl).bind fun _ => ?_
    cases value <;> exact .pure _
  refine (Detours.hereditary.typeOf v).bind fun ty => ?_
  refine Detours.bind (detours_of_eq fun _ _ => ⟨rfl, rfl, rfl⟩) fun _ => ?_
  split
  · exact hreturning none out
  · exact (Detours.rendering.renderExpr v).bind fun t => (flushPrelude_detours out).bind fun out =>
      hreturning (some t) out

theorem jump_detours (keyword : String) (out : Buffer) : Detours (jump keyword out) :=
  Detours.bind (detours_of_eq fun _ _ => ⟨rfl, rfl, rfl⟩) fun _ => (note_detours rfl).bind fun _ =>
    .pure _

/-- A nested function is declared where it stands. -/
theorem function_mirrors (f : Function) (out : Buffer) :
    Mirrors plan (fun p => p.function f) (function f out) := by
  refine mirrors_of_nameSteps (n := f.name) (fun p => Planner.function_step p f)
    fun w c out' c' hc h => ?_
  obtain ⟨name, params, vararg, kwarg, declaredResult, body, decorators, span⟩ := f
  rw [function] at h
  obtain ⟨⟨built, out₁⟩, c₁, hsynthesize, h⟩ := bind_eq_ok h
  have hdecorators : ∀ x ∈ decorators.map renderExpr, Detours x := by
    intro x hx
    obtain ⟨e, -, rfl⟩ := List.mem_map.mp hx
    exact Detours.rendering.renderExpr e
  obtain ⟨isVar, hdeclares, hdecisions⟩ :=
    synthesize_declares (.inl rfl) hdecorators hc hsynthesize
  cases h
  exact ⟨_, .declares built.ident isVar ⟨hdeclares.leveled, hdeclares.layers, hdeclares.stores⟩,
    congrArg (some _ :: ·) hdecisions⟩

end Emit

/-- The `else` part of a statement, which has a block of its own unless it is empty. -/
def Planner.elseBlock (o : Oracle) : List Stmt → Planner → Planner
  | [], p => p
  | e, p => (stmts o e p.enter).leave

theorem Planner.stmt_ifElse (o : Oracle) (test : Expr) (b e : List Stmt) (p : Planner) :
    stmt o (.ifElse test b e) p = elseBlock o e (stmts o b p.enter).leave := by
  cases e with
  | nil => rw [stmt, elseBlock]
  | cons s ss => rw [stmt, elseBlock] <;> exact List.cons_ne_nil s ss

namespace Emit

variable {plan : BodyPlan}

/-- What planning a statement does, with its blocks in the order of the text. -/
theorem mirrors_of_eq {α : Type} {f g : Planner → Planner} {x : Emit α} (h : ∀ p, g p = f p)
    (hx : Mirrors plan f x) : Mirrors plan g x := by
  obtain rfl : g = f := funext h
  exact hx

mutual

/-- **A statement goes along with its plan.** -/
theorem stmt_mirrors (o : Oracle) : ∀ (s : Stmt) (out : Buffer),
    Mirrors plan (Planner.stmt o s) (stmt s out)
  | .assign t v declared, out => by
    rw [stmt]
    intro p
    rw [Planner.stmt]
    exact assign_mirrors t v declared _ v.name? out p
  | .augAssign t op v, out => by
    rw [stmt]
    exact augAssign_mirrors o t op v out
  | .expr e, out => by
    rw [stmt]
    refine mirrors_of_eq (fun p => by rw [Planner.stmt]) ?_
    exact (Detours.hereditary.exprStmt out (Detours.rendering.renderExpr e)).mirrors
  | .ret none, out => by
    rw [stmt]
    refine mirrors_of_eq (fun p => by rw [Planner.stmt]) ?_
    exact ((note_detours rfl).bind fun _ => .pure _).mirrors
  | .ret (some v), out => by
    rw [stmt]
    refine mirrors_of_detours (Planner.plansAside_of_eq ?_ ?_ ?_) (returnValue_detours v out)
    all_goals intro p; rw [Planner.stmt]
    exact ⟨List.Subset.refl _, List.Subset.refl _⟩
  | .ifElse test b e, out => by
    rw [stmt]
    refine mirrors_of_eq (Planner.stmt_ifElse o test b e) ?_
    refine (Detours.rendering.renderCondition test).before fun t => ?_
    refine (flushPrelude_detours out).before fun out => ?_
    exact (nested_mirrors _ (stmts_mirrors o b)).bind (elseTail_mirrors o e)
  | .whileLoop test b, out => by
    rw [stmt]
    refine mirrors_of_eq (fun p => by rw [Planner.stmt]) ?_
    exact whileLoop_mirrors test out (stmts_mirrors o b)
  | .forLoop t i b, out => by
    rw [stmt]
    intro p
    rw [Planner.stmt]
    exact forLoop_mirrors t i _ b out (stmts_mirrors o b) p
  | .breakLoop, out | .continueLoop, out => by
    rw [stmt]
    refine mirrors_of_eq (fun p => by rw [Planner.stmt]) ?_
    exact (jump_detours _ out).mirrors
  | .pass, out | .nonlocal _, out => by
    rw [stmt]
    refine mirrors_of_eq (fun p => by rw [Planner.stmt]) ?_
    exact (Detours.pure out).mirrors
  | .raise e, out => by
    rw [stmt]
    refine mirrors_of_eq (fun p => by rw [Planner.stmt]) ?_
    exact ((raiseError_detours e).bind fun error => errorExit_detours _ error out).mirrors
  | .assert test _, out => by
    rw [stmt]
    refine mirrors_of_eq (fun p => by rw [Planner.stmt]) ?_
    exact (Detours.hereditary.assertion out (Detours.rendering.renderCondition test)
      trivial).mirrors
  | .tryExcept b hs e f, out => by
    rw [stmt]
    refine Detours.before ?_ fun _ => ?_
    · exact Detours.sequential.ite (Detours.hereditary.unsupported _) (.pure _)
    · refine mirrors_of_eq (fun p => by rw [Planner.stmt]) ?_
      refine tryBlock_mirrors out (stmts_mirrors o b) (fun payload out =>
        handlers_mirrors o payload hs true out) (Planner.handlers_plans o hs) ?_ ?_
      · exact partMirrors_stmts o e (stmts_mirrors o e)
      · exact partMirrors_stmts o f (stmts_mirrors o f)
  | .withItems items b, out => by
    rw [stmt]
    refine mirrors_of_eq (fun p => by rw [Planner.stmt]) ?_
    refine Mirrors.before ?_ fun _ => .pure _
    exact Mirrors.inBlock (f := fun p => Planner.stmts o b (items.foldl (Planner.withItem o) p))
      ((withItems_mirrors o items _).bind fun out =>
        (stmts_mirrors o b out).before fun _ => .pure _)
  | .functionDef f, out => by
    rw [stmt]
    refine mirrors_of_eq (fun p => by rw [Planner.stmt]) ?_
    exact function_mirrors f out
  | .global names, out => by
    rw [stmt]
    refine mirrors_of_detours (Planner.plansAside_of_eq ?_ ?_ ?_)
      (Detours.bind (detours_of_eq fun _ _ => ⟨rfl, rfl, rfl⟩) fun _ => .pure _)
    all_goals intro p; rw [Planner.stmt]
    exact .refl _
  | .delete ts, out => by
    rw [stmt]
    refine mirrors_of_eq (fun p => by rw [Planner.stmt]) ?_
    exact (deleteAll_detours ts out).mirrors

theorem stmts_mirrors (o : Oracle) : ∀ (ss : List Stmt) (out : Buffer),
    Mirrors plan (Planner.stmts o ss) (stmts ss out)
  | [], out => by
    rw [stmts]
    refine mirrors_of_eq (fun p => by rw [Planner.stmts]) ?_
    exact (Detours.pure out).mirrors
  | s :: ss, out => by
    rw [stmts]
    refine mirrors_of_eq (fun p => by rw [Planner.stmts]) ?_
    exact (stmt_mirrors o s out).bind (stmts_mirrors o ss)

theorem elseTail_mirrors (o : Oracle) : ∀ (ss : List Stmt) (out : Buffer),
    Mirrors plan (Planner.elseBlock o ss) (elseTail ss out)
  | [], out => by
    rw [elseTail]
    exact (Detours.pure _).mirrors
  | s :: rest, out => by
    have hblock (hother : ∀ test b e, s = .ifElse test b e → rest = [] → False) :
        Mirrors plan (Planner.elseBlock o (s :: rest)) (elseTail (s :: rest) out) := by
      rw [elseTail]
      · refine Mirrors.before (Mirrors.inBlock (f := Planner.stmts o (s :: rest)) ?_) fun _ => .pure _
        refine mirrors_of_eq (fun p => by rw [Planner.stmts]) (Mirrors.before ?_ fun _ => .pure _)
        exact (stmt_mirrors o s _).bind (stmts_mirrors o rest)
      · exact hother
    cases s with
    | ifElse test b e =>
      cases rest with
      | nil =>
        rw [elseTail]
        refine Mirrors.inBlock (f := Planner.stmts o [.ifElse test b e]) ?_
        refine mirrors_of_eq (fun p => by rw [Planner.stmts, Planner.stmts, Planner.stmt_ifElse]) ?_
        have htail (out : Buffer) : Mirrors plan _ _ :=
          (nested_mirrors out (stmts_mirrors o b)).bind (elseTail_mirrors o e)
        refine (isolated_detours (Detours.rendering.renderCondition test)).before
          fun ⟨t, before⟩ => ?_
        dsimp only
        split
        · exact htail _
        · exact (htail _).before fun _ => .pure _
      | cons => exact hblock (by simp)
    | _ => exact hblock (by simp)

theorem handlers_mirrors (o : Oracle) (payload : String) :
    ∀ (hs : List Handler) (first : Bool) (out : Buffer),
    Mirrors plan (Planner.handlers o hs) (handlers payload hs first out)
  | [], first, out => by
    rw [handlers]
    refine mirrors_of_eq (fun p => by rw [Planner.handlers]) ?_
    exact (Detours.hereditary.reraise payload first out trivial).mirrors
  | ⟨kind, name, body⟩ :: hs, first, out => by
    rw [handlers]
    refine mirrors_of_eq (fun p => by rw [Planner.handlers]) ?_
    refine Mirrors.bind (f := fun p => (Planner.stmts o body (Planner.bindHandler name p.enter)).leave)
      (g := Planner.handlers o hs) ?_ fun out => ?_
    · refine Mirrors.inBlock (f := fun p => Planner.stmts o body (Planner.bindHandler name p)) ?_
      exact (bindHandler_mirrors name body payload _).bind fun out =>
        (stmts_mirrors o body out).before fun _ => .pure _
    · split
      · exact (mirrors_undecided (Planner.handlers_plans o hs)).before fun _ => .pure _
      · exact handlers_mirrors o payload hs false out

end

end Emit

end ClosureConversion
