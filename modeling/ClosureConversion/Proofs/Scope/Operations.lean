import ClosureConversion.Proofs.Scope.Stacks
import ClosureConversion.Scope.Assignment

/-! # Operations on scopes -/

set_option autoImplicit false

namespace ClosureConversion

/-! ## Operations -/

namespace Scope

/-- A change inside the frames that are open. -/
inductive Change where
  | declareAs (name ident : String) (b : Binding)
  | declareInFunction (name ident : String) (b : Binding)
  /-- Declare a name under a fresh identifier, which may be claimed first, in the innermost frame
  or in the innermost function's. -/
  | declareFresh (claimed hoisted : Bool) (base name : String) (b : Binding)
  /-- Plan an assignment and carry it out. -/
  | assign (name : String) (ty : Ty) (isMutable : Bool) (source : Option String)
  | recordShadow (name : String) (ty : Ty)
  | setType (name : String) (ty : Ty)
  | setMutable (name : String)
  | recordAlias (name target : String)
  | clearAlias (name : String)
  /-- Write to the binding that a name refers to. -/
  | update (name : String) (ty : Ty → Ty) (kind : BindingKind → BindingKind)
      (isMutable : Bool → Bool) (aliasOf : Option String → Option String)
  | reserveIdent (ident : String)
  | claimIdent (base : String)
  | reserveModuleIdent (ident : String)
  | claimModuleIdent (base : String)

inductive Op where
  | pushFunction (name : String) (formals : List String)
  | pushBlock
  /-- Leave the innermost frame; the module's own frame is not left. -/
  | pop
  | declareGlobal (name : String) (ty : Ty)
  | change (c : Change)

/-- Declare in the innermost function's frame or in the innermost frame. -/
def declareOn (hoisted : Bool) (s : Scope) (name ident : String) (b : Binding) : Scope :=
  if hoisted then s.declareInFunction name ident b else s.declareAs name ident b

def Change.apply : Change → Scope → Scope
  | .declareAs name ident b, s => s.declareAs name ident b
  | .declareInFunction name ident b, s => s.declareInFunction name ident b
  | .declareFresh claimed hoisted base name b, s =>
    declareOn hoisted (if claimed then (s.claimIdent base).2 else s) name (s.freshIdent base) b
  | .assign name ty isMutable source, s => (Assignment.plan s name ty).commit s isMutable source
  | .recordShadow name ty, s => s.recordShadow name ty
  | .setType name ty, s => s.setType name ty
  | .setMutable name, s => s.setMutable name
  | .recordAlias name target, s => s.recordAlias name target
  | .clearAlias name, s => s.clearAlias name
  | .update name ty kind isMutable aliasOf, s =>
    s.modifyBinding name fun b =>
      { b with
        ty := ty b.ty, kind := kind b.kind
        isMutable := isMutable b.isMutable, aliasOf := aliasOf b.aliasOf }
  | .reserveIdent ident, s => s.reserveIdent ident
  | .claimIdent base, s => (s.claimIdent base).2
  | .reserveModuleIdent ident, s => s.reserveModuleIdent ident
  | .claimModuleIdent base, s => (s.claimModuleIdent base).2

/-- Leave the innermost frame if there is one above the module's. -/
def popped (s : Scope) : Scope :=
  match s.pop with
  | .ok left => left.scope
  | .error _ => s

def Op.apply : Op → Scope → Scope
  | .pushFunction name formals, s => s.pushFunction name formals
  | .pushBlock, s => s.pushBlock
  | .pop, s => s.popped
  | .declareGlobal name ty, s => s.declareGlobal name ty
  | .change c, s => c.apply s

/-- One operation after the other. -/
def runFrom (s : Scope) (ops : List Op) : Scope := ops.foldl (fun s op => op.apply s) s

/-- The scope that operations lead to from the scope of an empty module. -/
def run (ops : List Op) : Scope := runFrom {} ops

theorem runFrom_append (s : Scope) (ops more : List Op) :
    s.runFrom (ops ++ more) = (s.runFrom ops).runFrom more :=
  List.foldl_append

theorem run_append (ops more : List Op) : run (ops ++ more) = (run ops).runFrom more :=
  runFrom_append {} ops more

/-- What holds of the empty scope and is kept by the operations of a sequence holds of the scope
that the sequence leads to. -/
theorem run_induction {P : Scope → Prop} {ops : List Op} (hempty : P {})
    (hstep : ∀ s, ∀ op ∈ ops, P s → P (op.apply s)) : P (run ops) := by
  have hfold : ∀ (rest : List Op) (s : Scope), rest ⊆ ops → P s → P (s.runFrom rest) := by
    intro rest
    induction rest with
    | nil => exact fun s _ hs => hs
    | cons op rest ih =>
      intro s hsubset hs
      rw [List.cons_subset] at hsubset
      exact ih _ hsubset.2 (hstep s op hsubset.1 hs)
  exact hfold ops {} (List.Subset.refl _) hempty

/-! ## Declarations -/

/-- A name that is spelled `ident` from now on, in the frame at `index`; 0 is the module. -/
structure Declaration where
  index : Nat
  name : String
  ident : String
  deriving DecidableEq

/-- Where a hoisted name is declared. -/
def hoistIndex (s : Scope) : Nat :=
  if s.frames.any Frame.isFunction then functionStart s.frames else s.depth - 1

/-- The declaration that a change makes. -/
def Change.declares? : Change → Scope → Option Declaration
  | .declareAs name ident _, s => some ⟨s.depth - 1, name, ident⟩
  | .declareInFunction name ident _, s => some ⟨s.hoistIndex, name, ident⟩
  | .declareFresh _ hoisted base name _, s =>
    some ⟨if hoisted then s.hoistIndex else s.depth - 1, name, s.freshIdent base⟩
  | .assign name ty _ _, s =>
    let a := Assignment.plan s name ty
    if a.declares then some ⟨s.depth - 1, name, a.ident⟩ else none
  | _, _ => none

/-- The change writes no kind to a binding that is there. -/
def Change.KeepsKinds : Change → Prop
  | .update _ _ kind _ _ => ∀ k, kind k = k
  | _ => True

def Op.declares? : Op → Scope → Option Declaration
  | .change c, s => c.declares? s
  | _, _ => none

/-! ## Adjustments -/

end Scope

/-- What a binding is, apart from what is known of its value; with its kind or without. -/
def Binding.outline (kinds : Bool) (b : Binding) : Binding :=
  { b with
    ty := .unknown, isMutable := false, aliasOf := none
    kind := if kinds then b.kind else .local }

/-- The frame binds the same names as before, types, mutability and aliases apart, and has reserved
what was reserved before. With `kinds`, the names are also bound to the same kinds of things. -/
structure Frame.Adjusts (kinds : Bool) (f g : Frame) : Prop where
  kind : g.kind = f.kind
  outline : ∀ n, (g.get? n).map (Binding.outline kinds) = (f.get? n).map (Binding.outline kinds)
  idents : f.idents ⊆ g.idents

namespace Frame

variable {kinds : Bool} {f g h : Frame}

theorem Adjusts.refl (f : Frame) : f.Adjusts kinds f := ⟨rfl, fun _ => rfl, List.Subset.refl _⟩

theorem Adjusts.trans (hfg : f.Adjusts kinds g) (hgh : g.Adjusts kinds h) : f.Adjusts kinds h :=
  ⟨hgh.kind.trans hfg.kind, fun n => (hgh.outline n).trans (hfg.outline n),
    List.Subset.trans hfg.idents hgh.idents⟩

theorem Adjusts.isSome (hfg : f.Adjusts kinds g) (n : String) :
    (g.get? n).isSome = (f.get? n).isSome := by
  rw [← Option.isSome_map (f := Binding.outline kinds), hfg.outline n, Option.isSome_map]

theorem Adjusts.isFunction (hfg : f.Adjusts kinds g) : g.isFunction = f.isFunction := by
  unfold Frame.isFunction
  rw [hfg.kind]

theorem adjusts_reserve (f : Frame) (ident : String) : f.Adjusts kinds (f.reserve ident) :=
  ⟨rfl, fun _ => rfl, Scope.subset_pushNew f.idents ident⟩

theorem adjusts_modify (f : Frame) (name : String) {change : Binding → Binding}
    (h : ∀ b, (change b).outline kinds = b.outline kinds) :
    f.Adjusts kinds { f with bindings := f.bindings.modify name change } := by
  refine ⟨rfl, fun n => ?_, List.Subset.refl _⟩
  show ((f.bindings.modify name change).get? n).map (Binding.outline kinds) =
    (f.bindings.get? n).map (Binding.outline kinds)
  rw [NameMap.get?_modify]
  split
  · rw [Option.map_map]
    exact congrArg (Option.map · _) (funext h)
  · rfl

end Frame

namespace Scope

/-- No name is declared, and every frame is at most adjusted. -/
structure Adjusts (kinds : Bool) (s t : Scope) : Prop where
  renames : t.renames = s.renames
  frames : List.Forall₂ (Frame.Adjusts kinds) s.frames t.frames
  base : s.base.Adjusts kinds t.base

variable {kinds : Bool} {s t u v : Scope}

theorem forall₂_adjusts_refl (frames : List Frame) : List.Forall₂ (Frame.Adjusts kinds) frames frames :=
  List.forall₂_same.mpr fun f _ => .refl f

theorem forall₂_adjusts_trans {fs gs hs : List Frame} (hfg : List.Forall₂ (Frame.Adjusts kinds) fs gs)
    (hgh : List.Forall₂ (Frame.Adjusts kinds) gs hs) : List.Forall₂ (Frame.Adjusts kinds) fs hs :=
  forall₂_trans (R := Frame.Adjusts kinds) (fun _ _ _ => .trans) hfg hgh

theorem Adjusts.refl (s : Scope) : s.Adjusts kinds s := ⟨rfl, forall₂_adjusts_refl _, .refl _⟩

theorem Adjusts.trans (h : s.Adjusts kinds t) (h' : t.Adjusts kinds u) : s.Adjusts kinds u :=
  ⟨h'.renames.trans h.renames, forall₂_adjusts_trans h.frames h'.frames, h.base.trans h'.base⟩

theorem Adjusts.allFrames (h : s.Adjusts kinds t) :
    List.Forall₂ (Frame.Adjusts kinds) s.allFrames t.allFrames :=
  List.rel_append h.frames (.cons h.base .nil)

theorem Adjusts.depth (h : s.Adjusts kinds t) : t.depth = s.depth :=
  congrArg (· + 1) h.frames.length_eq.symm

theorem Adjusts.leveled (h : s.Adjusts kinds t) (hs : s.Leveled) : t.Leveled := by
  unfold Leveled at *
  rw [h.renames, hs, h.allFrames.length_eq]

theorem functionStart_of_adjusts {fs gs : List Frame} (h : List.Forall₂ (Frame.Adjusts kinds) fs gs) :
    functionStart gs = functionStart fs ∧ gs.any Frame.isFunction = fs.any Frame.isFunction := by
  induction h with
  | nil => exact ⟨rfl, rfl⟩
  | cons hhead htail ih =>
    rw [functionStart, functionStart, hhead.isFunction, htail.length_eq, ih.1, List.any_cons,
      List.any_cons, hhead.isFunction, ih.2]
    exact ⟨rfl, rfl⟩

theorem Adjusts.hoistIndex (h : s.Adjusts kinds t) : t.hoistIndex = s.hoistIndex := by
  obtain ⟨hstart, hany⟩ := functionStart_of_adjusts h.frames
  unfold Scope.hoistIndex
  rw [hstart, hany, h.depth]

/-! ## Changes that declare nothing -/

theorem adjusts_onInnermost {f : Frame → Frame} (h : ∀ g, Frame.Adjusts kinds g (f g)) (s : Scope) :
    s.Adjusts kinds (s.onInnermost f) := by
  refine ⟨renames_onInnermost f s, ?_, ?_⟩
  · unfold onInnermost
    split
    · exact forall₂_adjusts_refl _
    · rename_i g rest hframes
      rw [hframes]
      exact .cons (h g) (forall₂_adjusts_refl rest)
  · unfold onInnermost
    split
    · exact h s.base
    · exact .refl _

theorem adjusts_reserveIdent (s : Scope) (ident : String) : s.Adjusts kinds (s.reserveIdent ident) :=
  adjusts_onInnermost (fun f => f.adjusts_reserve ident) s

theorem adjusts_reserveModuleIdent (s : Scope) (ident : String) :
    s.Adjusts kinds (s.reserveModuleIdent ident) :=
  ⟨rfl, forall₂_adjusts_refl _, s.base.adjusts_reserve ident⟩

theorem adjusts_recordShadow (s : Scope) (name : String) (ty : Ty) :
    s.Adjusts kinds (s.recordShadow name ty) :=
  adjusts_onInnermost (f := fun g => { g with shadowed := g.shadowed ++ [(name, ty)] })
    (fun g => ⟨rfl, fun _ => rfl, List.Subset.refl g.idents⟩) s

theorem adjusts_modifyIn {name : String} {change : Binding → Binding}
    (h : ∀ b, (change b).outline kinds = b.outline kinds) {frames frames' : List Frame}
    (hmod : modifyIn name change frames = some frames') :
    List.Forall₂ (Frame.Adjusts kinds) frames frames' := by
  induction frames generalizing frames' with
  | nil => cases hmod
  | cons f rest ih =>
    rw [modifyIn] at hmod
    split at hmod
    · cases hmod
      exact .cons (f.adjusts_modify name h) (forall₂_adjusts_refl rest)
    · obtain ⟨rest', hrest, rfl⟩ := Option.map_eq_some_iff.mp hmod
      exact .cons (.refl f) (ih hrest)

/-- A change of what a binding says of its value. -/
theorem adjusts_modifyBinding {change : Binding → Binding}
    (h : ∀ b, (change b).outline kinds = b.outline kinds) (s : Scope) (name : String) :
    s.Adjusts kinds (s.modifyBinding name change) := by
  unfold modifyBinding
  split
  · rename_i frames hmod
    exact ⟨rfl, adjusts_modifyIn h hmod, .refl _⟩
  · exact ⟨rfl, forall₂_adjusts_refl _, s.base.adjusts_modify name h⟩

theorem adjusts_clearAlias (s : Scope) (name : String) : s.Adjusts kinds (s.clearAlias name) :=
  adjusts_modifyBinding (fun _ => by rfl) s name

theorem adjusts_recordAlias (s : Scope) (name target : String) :
    s.Adjusts kinds (s.recordAlias name target) := by
  obtain ⟨link, hrecord⟩ := s.recordAlias_eq name target
  rw [hrecord]
  exact adjusts_modifyBinding (fun _ => by rfl) s name

theorem adjusts_foldl_widen (shadowed : List (String × Ty)) (s : Scope) :
    s.Adjusts kinds (shadowed.foldl (fun s e => s.widen e.1 e.2) s) := by
  have hwiden : ∀ (s : Scope) (e : String × Ty), s.Adjusts kinds (s.widen e.1 e.2) := by
    intro s e
    unfold widen
    split
    · exact adjusts_modifyBinding (fun _ => by rfl) s e.1
    · exact .refl s
  induction shadowed generalizing s with
  | nil => exact .refl s
  | cons e rest ih => exact (hwiden s e).trans (ih _)

/-! ## Changes that declare a name -/

/-- The declaration is made: the frame binds the name and reserves its spelling, and the renames
of that frame say how it is spelled. -/
structure Binds (d : Declaration) (s t : Scope) : Prop where
  index : d.index < s.depth
  frames : ∃ b, t.allFrames = s.allFrames.modify (s.depth - 1 - d.index) (.bind d.name d.ident b)
  renames : t.renames.frames =
    s.renames.frames.modify (s.depth - 1 - d.index) (·.insert d.name d.ident)

/-- What a change does: it adjusts the scope, and makes one declaration at most. -/
inductive Effect (kinds : Bool) (s : Scope) : Option Declaration → Scope → Prop
  | adjusts {t : Scope} (h : s.Adjusts kinds t) : Effect kinds s none t
  | declares {d : Declaration} {u v t : Scope} (hbefore : s.Adjusts kinds u) (hbinds : Binds d u v)
      (hafter : v.Adjusts kinds t) : Effect kinds s (some d) t

theorem binds_declareAs (hs : s.Leveled) (name ident : String) (b : Binding) :
    Binds ⟨s.depth - 1, name, ident⟩ s (s.declareAs name ident b) := by
  have hpos : 0 < s.depth := Nat.succ_pos _
  refine ⟨Nat.sub_lt hpos Nat.one_pos, ⟨b, ?_⟩, ?_⟩
  · show (s.onInnermost (Frame.bind name ident b)).allFrames = _
    rw [allFrames_onInnermost, Nat.sub_self, List.modifyHead_eq_modify_zero]
  · show (s.renames.insert name ident).frames = _
    rw [insert_frames hs, Nat.sub_self, List.modifyHead_eq_modify_zero]

/-- The innermost function is found at the same place from the inside and from the outside. -/
theorem findIdx?_isFunction {frames : List Frame} {i : Nat}
    (h : frames.findIdx? Frame.isFunction = some i) :
    i < frames.length ∧ frames.any Frame.isFunction = true ∧
      functionStart frames = frames.length - i := by
  induction frames generalizing i with
  | nil => cases h
  | cons f rest ih =>
    rw [List.findIdx?_cons] at h
    rw [functionStart, List.any_cons]
    split at h
    · rename_i hf
      obtain rfl := Option.some.inj h
      rw [if_pos hf, hf]
      exact ⟨Nat.succ_pos _, rfl, rfl⟩
    · rename_i hf
      obtain ⟨j, hj, rfl⟩ := Option.map_eq_some_iff.mp h
      obtain ⟨hlt, hany, hstart⟩ := ih hj
      rw [if_neg hf, hany, hstart, Bool.or_true]
      refine ⟨Nat.succ_lt_succ hlt, rfl, ?_⟩
      rw [List.length_cons, Nat.add_sub_add_right]

theorem allFrames_onFunction {i : Nat} (h : s.frames.findIdx? Frame.isFunction = some i)
    (change : Frame → Frame) : (s.onFunction change).allFrames = s.allFrames.modify i change := by
  have hlt := (findIdx?_isFunction h).1
  have hframes : (s.onFunction change).allFrames = s.frames.modify i change ++ [s.base] := by
    unfold onFunction
    rw [h]
    rfl
  rw [hframes, allFrames]
  refine List.ext_getElem? fun k => ?_
  rw [List.getElem?_modify]
  rcases Nat.lt_or_ge k s.frames.length with hk | hk
  · rw [List.getElem?_append_left (by rw [List.length_modify]; exact hk),
      List.getElem?_append_left hk, List.getElem?_modify]
  · rw [List.getElem?_append_right (by rw [List.length_modify]; exact hk),
      List.getElem?_append_right hk, List.length_modify]
    have hne : i ≠ k := by omega
    simp only [if_neg hne, id_map']

theorem binds_declareInFunction (hs : s.Leveled) (name ident : String) (b : Binding) :
    Binds ⟨s.hoistIndex, name, ident⟩ s (s.declareInFunction name ident b) := by
  have hdepth : s.renames.depth = s.depth := hs.trans (length_allFrames s)
  rcases hfind : s.frames.findIdx? Frame.isFunction with _ | i
  · -- no function: the innermost frame is meant
    have hany : s.frames.any Frame.isFunction = false := by
      rw [List.any_eq_false]
      exact fun f hf => by simpa using List.findIdx?_eq_none_iff.mp hfind f hf
    have hindex : s.hoistIndex = s.depth - 1 := by
      unfold hoistIndex
      rw [hany]
      rfl
    have heq : s.declareInFunction name ident b = s.declareAs name ident b := by
      unfold declareInFunction declareAs onFunction
      simp only [hany, hfind, Bool.false_eq_true, if_false, insertAt_eq_insert hs]
    rw [hindex, heq]
    exact binds_declareAs hs name ident b
  · obtain ⟨hlt, hany, hstart⟩ := findIdx?_isFunction hfind
    have hindex : s.hoistIndex = s.frames.length - i := by
      unfold hoistIndex
      rw [hany, if_pos rfl, hstart]
    have hplace : s.depth - 1 - s.hoistIndex = i := by
      rw [hindex]
      unfold depth
      omega
    have hlow : s.hoistIndex < s.depth := by
      rw [hindex]
      unfold depth
      omega
    refine ⟨hlow, ⟨b, ?_⟩, ?_⟩
    · show (s.onFunction (Frame.bind name ident b)).allFrames = _
      rw [hplace, allFrames_onFunction hfind]
    · show (s.renames.insertAt s.hoistIndex name ident).frames = _
      unfold RenameTable.insertAt
      rw [hdepth, if_pos hlow]

theorem binds_declareOn (hs : s.Leveled) (hoisted : Bool) (name ident : String) (b : Binding) :
    Binds ⟨if hoisted then s.hoistIndex else s.depth - 1, name, ident⟩ s
      (declareOn hoisted s name ident b) := by
  cases hoisted with
  | true => exact binds_declareInFunction hs name ident b
  | false => exact binds_declareAs hs name ident b

/-- Carrying out an assignment that was just planned. -/
theorem effect_assign (hs : s.Leveled) (name : String) (ty : Ty) (isMutable : Bool)
    (source : Option String) :
    let a := Assignment.plan s name ty
    s.Effect kinds (if a.declares then some ⟨s.depth - 1, name, a.ident⟩ else none)
      (a.commit s isMutable source) := by
  intro a
  have halias : (a.bind s isMutable).Adjusts kinds (a.commit s isMutable source) := by
    obtain ⟨link, hcommit⟩ := a.commit_eq s isMutable source
    rw [hcommit]
    exact adjusts_modifyBinding (fun _ => by rfl) _ name
  rcases hres : a.resolution with _ | _ | ident
  · have hdeclares : a.declares = true := by rw [Assignment.declares, hres]
    rw [hdeclares, if_pos rfl]
    rw [Assignment.bind_of_fresh hres] at halias
    exact .declares (.refl s) (binds_declareAs hs name a.ident _) halias
  · have hdeclares : a.declares = false := by rw [Assignment.declares, hres]
    rw [hdeclares, if_neg Bool.false_ne_true]
    refine .adjusts (Adjusts.trans ?_ halias)
    rw [Assignment.bind_of_reuse hres]
    exact adjusts_modifyBinding (fun _ => by rfl) s a.name
  · have hdeclares : a.declares = true := by rw [Assignment.declares, hres]
    have hident : a.ident = ident := Assignment.plan_shadow hres
    rw [hdeclares, if_pos rfl, hident]
    have hshadow : (s.declareAs name ident
        { ty := a.ty, slot := ⟨ident, .declared isMutable⟩, isMutable }).Adjusts kinds
        (a.bind s isMutable) := by
      rw [Assignment.bind_of_shadow hres]
      split
      · exact adjusts_recordShadow ..
      · exact .refl _
    exact .declares (.refl s) (binds_declareAs hs name ident _) (hshadow.trans halias)

/-- **What a change does** to the two stacks. A change that writes no kind leaves the kinds of all
bindings alone. -/
theorem Change.effect (c : Change) (hc : kinds = true → c.KeepsKinds) (hs : s.Leveled) :
    s.Effect kinds (c.declares? s) (c.apply s) := by
  cases c with
  | declareAs name ident b => exact .declares (.refl s) (binds_declareAs hs name ident b) (.refl _)
  | declareInFunction name ident b =>
    exact .declares (.refl s) (binds_declareInFunction hs name ident b) (.refl _)
  | declareFresh claimed hoisted base name b =>
    have hclaim : s.Adjusts kinds (if claimed then (s.claimIdent base).2 else s) := by
      split
      · exact adjusts_reserveIdent s _
      · exact .refl s
    have hbinds := binds_declareOn (hclaim.leveled hs) hoisted name (s.freshIdent base) b
    rw [hclaim.hoistIndex, hclaim.depth] at hbinds
    exact .declares hclaim hbinds (.refl _)
  | assign name ty isMutable source => exact effect_assign hs name ty isMutable source
  | recordShadow name ty => exact .adjusts (adjusts_recordShadow s name ty)
  | setType name ty => exact .adjusts (adjusts_modifyBinding (fun _ => by rfl) s name)
  | setMutable name => exact .adjusts (adjusts_modifyBinding (fun _ => by rfl) s name)
  | recordAlias name target => exact .adjusts (adjusts_recordAlias s name target)
  | clearAlias name => exact .adjusts (adjusts_clearAlias s name)
  | update name ty kind isMutable aliasOf =>
    refine .adjusts (adjusts_modifyBinding (fun b => ?_) s name)
    cases kinds with
    | false => rfl
    | true =>
      have hkind : kind b.kind = b.kind := hc rfl b.kind
      simp only [Binding.outline, hkind]
  | reserveIdent ident => exact .adjusts (adjusts_reserveIdent s ident)
  | claimIdent base => exact .adjusts (adjusts_reserveIdent s _)
  | reserveModuleIdent ident => exact .adjusts (adjusts_reserveModuleIdent s ident)
  | claimModuleIdent base => exact .adjusts (adjusts_reserveModuleIdent s _)

/-- What every change does, also one that writes a kind. -/
theorem Change.effect_any (c : Change) (hs : s.Leveled) :
    s.Effect false (c.declares? s) (c.apply s) :=
  c.effect Bool.noConfusion hs

/-! ## Frames that are entered and left -/

/-- Leaving a frame takes it off both stacks and adjusts what is left; the module's own frame is
not left. -/
theorem popped_cases (kinds : Bool) (hs : s.Leveled) :
    s.frames = [] ∧ s.popped = s ∨
      ∃ f frames r renames, s.frames = f :: frames ∧ s.renames.frames = r :: renames ∧
        Adjusts kinds { s with frames, renames := ⟨renames⟩ } s.popped := by
  unfold popped pop
  rcases hframes : s.frames with _ | ⟨f, frames⟩
  · exact .inl ⟨rfl, rfl⟩
  · refine .inr ?_
    unfold Leveled at hs
    rw [length_allFrames, hframes] at hs
    rcases hren : s.renames.frames with _ | ⟨r, _ | ⟨r', renames⟩⟩
    · rw [hren] at hs
      cases hs
    · rw [hren] at hs
      cases hs
    · have hpop : s.renames.pop = ⟨r' :: renames⟩ := by
        unfold RenameTable.pop RenameTable.pop?
        rw [hren]
      refine ⟨f, frames, r, r' :: renames, rfl, rfl, ?_⟩
      dsimp only
      rw [hpop]
      by_cases hblock : f.isBlock = true
      · rw [if_pos hblock]
        exact adjusts_foldl_widen ..
      · rw [if_neg hblock]
        exact .refl _

theorem Binds.leveled {d : Declaration} (h : Binds d s t) (hs : s.Leveled) : t.Leveled := by
  obtain ⟨b, hframes⟩ := h.frames
  unfold Leveled
  rw [h.renames, hframes, List.length_modify, List.length_modify]
  exact hs

theorem Effect.leveled {d : Option Declaration} (h : s.Effect kinds d t) (hs : s.Leveled) :
    t.Leveled := by
  cases h with
  | adjusts h => exact h.leveled hs
  | declares hbefore hbinds hafter => exact hafter.leveled (hbinds.leveled (hbefore.leveled hs))

/-- **The stacks stay equally high.** -/
theorem Op.leveled (op : Op) (hs : s.Leveled) : (op.apply s).Leveled := by
  cases op with
  | pushFunction name formals => exact leveled_push hs _
  | pushBlock => exact leveled_push hs _
  | pop =>
    show s.popped.Leveled
    rcases popped_cases true hs with
      ⟨-, heq⟩ | ⟨f, frames, r, renames, hframes, hren, hadjusts⟩
    · rw [heq]
      exact hs
    · refine hadjusts.leveled ?_
      unfold Leveled at hs ⊢
      rw [length_allFrames, hframes, hren] at hs
      rw [length_allFrames]
      exact Nat.succ.inj hs
  | declareGlobal name ty =>
    exact hs.trans ((length_allFrames s).trans (length_allFrames (s.declareGlobal name ty)).symm)
  | change c => exact (c.effect_any hs).leveled hs

theorem run_leveled (ops : List Op) : (run ops).Leveled :=
  run_induction (P := Leveled) rfl fun _ op _ hs => op.leveled hs

end Scope

end ClosureConversion
