import ClosureConversion.Proofs.Scope.Lookup
import ClosureConversion.Proofs.Scope.Operations

/-! # What the frames say of one name -/

set_option autoImplicit false

namespace ClosureConversion

/-! ## What the frames say of one name -/

/-- Bindings of this kind cannot be declared anew. -/
def BindingKind.isPinned : BindingKind → Bool
  | .captured | .selfHandle | .global => true
  | _ => false

/-- What one frame says of one name. -/
@[ext] structure Cell where
  kind : FrameKind
  /-- The name's binding, without spelling and aliases. -/
  bound : Option (BindingKind × Ty)
  /-- The types with which the name was recorded as declared anew. -/
  noted : List Ty

def Frame.cell (f : Frame) (x : String) : Cell where
  kind := f.kind
  bound := (f.get? x).map fun b => (b.kind, b.ty)
  noted := (f.shadowed.filter (·.1 = x)).map Prod.snd

/-- What all frames say of one name, innermost first. -/
def Scope.column (s : Scope) (x : String) : List Cell := s.allFrames.map (·.cell x)

namespace Cell

def isFunction (c : Cell) : Bool :=
  match c.kind with
  | .function _ _ => true
  | _ => false

/-- What the name means. -/
def front (column : List Cell) : Option (BindingKind × Ty) := column.findSome? bound

/-- What the name means in the innermost function. -/
def held : List Cell → Option (BindingKind × Ty)
  | [] => none
  | c :: rest => c.bound.or (if c.isFunction then none else held rest)

/-- Change the type of the binding that the name has. -/
def retype (f : Ty → Ty) : List Cell → List Cell
  | [] => []
  | c :: rest =>
    if c.bound.isSome then { c with bound := c.bound.map fun b => (b.1, f b.2) } :: rest
    else c :: retype f rest

/-- Leave the innermost frame, a block: the binding around it becomes wider by the types that were
recorded. -/
def leave : List Cell → List Cell
  | [] => []
  | c :: rest => c.noted.foldl (fun column t => retype (·.join t) column) rest

variable {c : Cell} {rest column : List Cell} {f g : Ty → Ty}

theorem front_of_held {b : BindingKind × Ty} (h : held column = some b) :
    front column = some b := by
  induction column with
  | nil => cases h
  | cons c rest ih =>
    unfold front at *
    rw [held] at h
    rw [List.findSome?_cons]
    cases hc : c.bound with
    | some _ => simpa [hc] using h
    | none =>
      simp only [hc, Option.none_or] at h
      split at h
      · cases h
      · exact ih h

theorem retype_congr (h : ∀ b, front column = some b → f b.2 = g b.2) :
    retype f column = retype g column := by
  induction column with
  | nil => rfl
  | cons c rest ih =>
    unfold front at *
    rw [retype, retype]
    cases hc : c.bound with
    | some b =>
      have hb : f b.2 = g b.2 := h b (by rw [List.findSome?_cons, hc])
      simp [hb]
    | none =>
      have hrest := ih fun b hb => h b (by rw [List.findSome?_cons, hc, hb])
      simp [hrest]

theorem retype_id : retype id column = column := by
  induction column with
  | nil => rfl
  | cons c rest ih =>
    rw [retype]
    cases hc : c.bound with
    | some b =>
      simp only [Option.isSome_some, if_true, Option.map_some, id]
      rw [← hc]
    | none => simp [ih]

theorem retype_singleton :
    retype f [c] = [{ c with bound := c.bound.map fun b => (b.1, f b.2) }] := by
  rw [retype]
  cases hc : c.bound with
  | some b => rfl
  | none => exact congrArg ([·]) (Cell.ext rfl hc rfl)

theorem retype_of_front {b : BindingKind × Ty} (h : front column = some b) :
    retype f column = retype (fun _ => f b.2) column :=
  retype_congr fun b' hb' => by rw [Option.some.inj (h.symm.trans hb')]

/-- The type that the binding has already. -/
theorem retype_self {b : BindingKind × Ty} (h : front column = some b) :
    retype (fun _ => b.2) column = column :=
  (retype_of_front (f := id) h).symm.trans retype_id

theorem retype_retype : retype g (retype f column) = retype (g ∘ f) column := by
  induction column with
  | nil => rfl
  | cons c rest ih =>
    rw [retype, retype]
    cases hc : c.bound <;> simp [retype, hc, ih]

theorem held_retype : held (retype f column) = (held column).map fun b => (b.1, f b.2) := by
  induction column with
  | nil => rfl
  | cons c rest ih =>
    rw [retype, held]
    cases hc : c.bound with
    | some b => simp [held]
    | none =>
      simp only [Option.isSome_none, Bool.false_eq_true, if_false, held, hc, Option.none_or, ih]
      split <;> rfl

end Cell

/-! ## What the operations do to a column -/

namespace Scope

variable {s : Scope} {x : String}

theorem column_eq_cons (s : Scope) (x : String) : ∃ c rest, s.column x = c :: rest := by
  unfold column allFrames
  cases s.frames <;> exact ⟨_, _, rfl⟩

theorem front_column (s : Scope) (x : String) :
    Cell.front (s.column x) = (s.lookup x).map fun b => (b.kind, b.ty) := by
  unfold Cell.front column lookup
  induction s.allFrames with
  | nil => rfl
  | cons f rest ih =>
    rw [List.map_cons, List.findSome?_cons, List.findSome?_cons, ih]
    cases hf : f.get? x <;> simp [Frame.cell, hf]

theorem held_column (s : Scope) (x : String) :
    Cell.held (s.column x) = (s.lookupInFunction x).map fun b => (b.kind, b.ty) := by
  unfold column lookupInFunction
  induction s.allFrames with
  | nil => rfl
  | cons f rest ih =>
    have hkind : (f.cell x).isFunction = f.isFunction := rfl
    rw [List.map_cons, Cell.held, innerFrames, hkind, ih]
    cases hf : f.get? x <;> cases f.isFunction <;> simp [Frame.cell, hf]

theorem column_pushBlock (s : Scope) (x : String) :
    s.pushBlock.column x = ⟨.block, none, []⟩ :: s.column x :=
  rfl

theorem column_onInnermost {f : Frame → Frame} {g : Cell → Cell}
    (h : ∀ a, (f a).cell x = g (a.cell x)) (s : Scope) :
    (s.onInnermost f).column x = (s.column x).modifyHead g := by
  unfold column
  rw [allFrames_onInnermost]
  cases s.allFrames with
  | nil => rfl
  | cons a rest => exact congrArg (· :: _) (h a)

theorem column_declareAs (s : Scope) (name ident : String) (b : Binding) :
    (s.declareAs name ident b).column x = (s.column x).modifyHead fun c =>
      if name = x then { c with bound := some (b.kind, b.ty) } else c := by
  refine column_onInnermost (fun a => ?_) s
  have hget : (a.bind name ident b).get? x = if name = x then some b else a.get? x :=
    NameMap.get?_insert a.bindings name x b
  unfold Frame.cell
  rw [hget]
  split <;> rfl

theorem column_recordShadow (s : Scope) (name : String) (t : Ty) :
    (s.recordShadow name t).column x = (s.column x).modifyHead fun c =>
      if name = x then { c with noted := c.noted ++ [t] } else c := by
  refine column_onInnermost (fun a => ?_) s
  unfold Frame.cell
  by_cases h : name = x <;> simp [h, List.filter_append, Frame.get?]

section Modify

variable {change : Binding → Binding} {g : Ty → Ty}

theorem cell_modify (hkind : ∀ b, (change b).kind = b.kind) (hty : ∀ b, (change b).ty = g b.ty)
    (f : Frame) (x : String) :
    ({ f with bindings := f.bindings.modify x change } : Frame).cell x =
      { f.cell x with bound := (f.cell x).bound.map fun b => (b.1, g b.2) } := by
  unfold Frame.cell
  rw [get?_modify]
  simp [Function.comp_def, hkind, hty]

theorem cell_modify_of_ne {n : String} (h : n ≠ x) (f : Frame) :
    ({ f with bindings := f.bindings.modify n change } : Frame).cell x = f.cell x := by
  unfold Frame.cell
  rw [get?_modify_of_ne h]

theorem column_modifyIn (hkind : ∀ b, (change b).kind = b.kind)
    (hty : ∀ b, (change b).ty = g b.ty) {frames frames' : List Frame}
    (h : modifyIn x change frames = some frames') (base : Frame) :
    (frames' ++ [base]).map (·.cell x) = Cell.retype g ((frames ++ [base]).map (·.cell x)) := by
  induction frames generalizing frames' with
  | nil => cases h
  | cons f rest ih =>
    have hbound : (f.cell x).bound.isSome = (f.get? x).isSome := Option.isSome_map
    rw [modifyIn] at h
    rw [List.cons_append, List.map_cons, Cell.retype, hbound]
    split at h
    · rename_i hsome
      cases h
      rw [if_pos hsome, ← cell_modify hkind hty]
      rfl
    · rename_i hnone
      obtain ⟨rest', hrest, rfl⟩ := Option.map_eq_some_iff.mp h
      rw [if_neg hnone, ← ih hrest]
      rfl

theorem retype_of_modifyIn_eq_none {frames : List Frame} (h : modifyIn x change frames = none)
    (base : List Cell) :
    Cell.retype g (frames.map (·.cell x) ++ base) =
      frames.map (·.cell x) ++ Cell.retype g base := by
  induction frames with
  | nil => rfl
  | cons f rest ih =>
    have hbound : (f.cell x).bound.isSome = (f.get? x).isSome := Option.isSome_map
    rw [modifyIn] at h
    split at h
    · cases h
    · rename_i hnone
      rw [List.map_cons, List.cons_append, Cell.retype, hbound, if_neg hnone,
        ih (Option.map_eq_none_iff.mp h)]
      rfl

/-- The binding that is changed is the one that the name has. -/
theorem column_modifyBinding (hkind : ∀ b, (change b).kind = b.kind)
    (hty : ∀ b, (change b).ty = g b.ty) (s : Scope) (x : String) :
    (s.modifyBinding x change).column x = Cell.retype g (s.column x) := by
  unfold modifyBinding column allFrames
  split
  · rename_i frames hmod
    exact column_modifyIn hkind hty hmod s.base
  · rename_i hmod
    rw [List.map_append, List.map_append, retype_of_modifyIn_eq_none hmod]
    have hbase : [({ s.base with bindings := s.base.bindings.modify x change } : Frame)].map
        (·.cell x) = Cell.retype g ([s.base].map (·.cell x)) := by
      rw [List.map_singleton, List.map_singleton, cell_modify hkind hty, Cell.retype_singleton]
    rw [hbase]

theorem map_cell_modifyIn_of_ne {n : String} (hne : n ≠ x) {frames frames' : List Frame}
    (h : modifyIn n change frames = some frames') :
    frames'.map (·.cell x) = frames.map (·.cell x) := by
  induction frames generalizing frames' with
  | nil => cases h
  | cons f rest ih =>
    rw [modifyIn] at h
    split at h
    · cases h
      exact congrArg (· :: _) (cell_modify_of_ne hne f)
    · obtain ⟨rest', hrest, rfl⟩ := Option.map_eq_some_iff.mp h
      exact congrArg (_ :: ·) (ih hrest)

theorem column_modifyBinding_of_ne {n : String} (hne : n ≠ x) (s : Scope) :
    (s.modifyBinding n change).column x = s.column x := by
  unfold modifyBinding column allFrames
  split
  · rename_i frames hmod
    rw [List.map_append, List.map_append, map_cell_modifyIn_of_ne hne hmod]
  · rw [List.map_append, List.map_append]
    exact congrArg (_ ++ [·]) (cell_modify_of_ne hne s.base)

/-- What a binding says of aliases does not show. -/
theorem column_modifyBinding_aliasOf (s : Scope) (n : String) (link : Option String) :
    (s.modifyBinding n ({ · with aliasOf := link })).column x = s.column x := by
  by_cases h : n = x
  · subst h
    have hretype : (s.modifyBinding n ({ · with aliasOf := link })).column n =
        Cell.retype id (s.column n) := column_modifyBinding (fun _ => by rfl) (fun _ => by rfl) s n
    exact hretype.trans Cell.retype_id
  · exact column_modifyBinding_of_ne h s

end Modify

theorem column_widen (s : Scope) (t : Ty) :
    (s.widen x t).column x = Cell.retype (·.join t) (s.column x) := by
  have hfront := front_column s x
  unfold widen
  cases hb : s.lookup x with
  | some b =>
    rw [hb] at hfront
    rw [Cell.retype_of_front hfront]
    show (s.modifyBinding x ({ · with ty := b.ty.join t })).column x = _
    exact column_modifyBinding (fun _ => by rfl) (fun _ => by rfl) s x
  | none =>
    rw [hb] at hfront
    exact (Cell.retype_congr fun b hb => nomatch hfront.symm.trans hb).trans Cell.retype_id |>.symm

theorem column_widen_of_ne {n : String} (h : n ≠ x) (s : Scope) (t : Ty) :
    (s.widen n t).column x = s.column x := by
  unfold widen
  split
  · exact column_modifyBinding_of_ne h s
  · rfl

theorem column_foldl_widen (shadowed : List (String × Ty)) (s : Scope) :
    (shadowed.foldl (fun s e => s.widen e.1 e.2) s).column x =
      ((shadowed.filter (·.1 = x)).map Prod.snd).foldl
        (fun column t => Cell.retype (·.join t) column) (s.column x) := by
  induction shadowed generalizing s with
  | nil => rfl
  | cons e rest ih =>
    rw [List.foldl_cons, ih]
    by_cases h : e.1 = x
    · rw [List.filter_cons_of_pos (by simpa using h), List.map_cons, List.foldl_cons, h,
        column_widen]
    · rw [List.filter_cons_of_neg (by simpa using h), column_widen_of_ne h]

theorem column_of_pop {left : Left} (h : s.pop = .ok left) (hblock : s.inBlock = true) :
    left.scope.column x = Cell.leave (s.column x) := by
  unfold pop at h
  split at h
  · cases h
  · rename_i f frames hframes
    unfold inBlock at hblock
    rw [hframes] at hblock
    dsimp only at h
    rw [if_pos hblock] at h
    cases h
    have hcolumn : s.column x = f.cell x :: (frames ++ [s.base]).map (·.cell x) := by
      rw [column, allFrames, hframes]
      rfl
    rw [hcolumn]
    exact column_foldl_widen f.shadowed _

theorem Keeps.inBlock {t : Scope} (h : s.Keeps t) : t.inBlock = s.inBlock := by
  have hkinds := h.kinds
  have hlength := h.frames
  unfold Scope.inBlock allFrames at *
  rcases hs : s.frames with _ | ⟨f, rest⟩ <;> rcases ht : t.frames with _ | ⟨g, rest'⟩ <;>
    simp only [hs, ht, List.length_nil, List.length_cons, List.cons_append, List.map_cons,
      List.cons.injEq] at hlength hkinds ⊢
  · cases hlength
  · cases hlength
  · rw [Frame.isBlock, Frame.isBlock, hkinds.1]

end Scope

/-! ## Assignments -/

/-- The type of a binding that is assigned a value of type `t` and reused. -/
def Ty.settle (u t : Ty) : Ty := if u.isUnknown then t else u

namespace Scope

variable {s : Scope} {x : String}

theorem resolve_of_lookupInFunction {b : Binding} (h : s.lookupInFunction x = some b) (t : Ty) :
    s.resolve x t =
      if b.kind.isPinned || b.ty.holds t then .reuse else .shadow (s.freshIdent x) := by
  unfold resolve
  rw [h]
  cases hkind : b.kind <;> simp [BindingKind.isPinned, hkind]

theorem lookupInFunction_of_held {k : BindingKind} {u : Ty}
    (h : Cell.held (s.column x) = some (k, u)) :
    ∃ b, s.lookupInFunction x = some b ∧ b.kind = k ∧ b.ty = u := by
  rw [held_column, Option.map_eq_some_iff] at h
  obtain ⟨b, hb, hku⟩ := h
  exact ⟨b, hb, congrArg Prod.fst hku, congrArg Prod.snd hku⟩

/-- Aliases do not show in a column. -/
theorem column_commit (a : Assignment) (s : Scope) (isMutable : Bool) (source : Option String) :
    (a.commit s isMutable source).column x = (a.bind s isMutable).column x := by
  obtain ⟨link, hcommit⟩ := a.commit_eq s isMutable source
  rw [hcommit]
  exact column_modifyBinding_aliasOf ..

variable (isMutable : Bool) (source : Option String) {t u : Ty} {k : BindingKind}

theorem column_commit_of_ne (a : Assignment) (h : a.name ≠ x) (s : Scope) :
    (a.commit s isMutable source).column x = s.column x := by
  obtain ⟨c, rest, hcolumn⟩ := column_eq_cons s x
  rw [column_commit]
  refine a.bind_elim s isMutable (fun ident b => ?_) (fun f => ?_) fun t ht => ?_
  · rw [column_declareAs, hcolumn, List.modifyHead_cons, if_neg h]
  · exact column_modifyBinding_of_ne h s
  · rw [column_recordShadow, ht, hcolumn, List.modifyHead_cons, if_neg h]

theorem column_commit_reuse (hheld : Cell.held (s.column x) = some (k, u))
    (hfits : (k.isPinned || u.holds t) = true) :
    (Assignment.plan s x t).resolution = .reuse ∧
      ((Assignment.plan s x t).commit s isMutable source).column x =
        Cell.retype (fun _ => u.settle t) (s.column x) := by
  obtain ⟨b, hb, rfl, rfl⟩ := lookupInFunction_of_held hheld
  have hresolve : (Assignment.plan s x t).resolution = .reuse :=
    (resolve_of_lookupInFunction hb t).trans (if_pos hfits)
  refine ⟨hresolve, ?_⟩
  rw [column_commit, ← Cell.retype_of_front (f := (·.settle t)) (Cell.front_of_held hheld)]
  rw [Assignment.bind_of_reuse hresolve]
  exact column_modifyBinding (fun _ => by rfl) (fun _ => by rfl) s x

theorem column_bind_shadow {a : Assignment} {ident : String} (h : a.resolution = .shadow ident)
    {c : Cell} {rest : List Cell} (hcolumn : s.column a.name = c :: rest) :
    (a.bind s isMutable).column a.name =
      { c with
        bound := some (.local, a.ty)
        noted := if c.bound.isNone && s.inBlock then c.noted ++ [a.ty] else c.noted } :: rest := by
  have hlocal : (s.lookupLocal a.name).isNone = c.bound.isNone := by
    obtain ⟨f, frames, hframes⟩ : ∃ f frames, s.allFrames = f :: frames :=
      List.exists_cons_of_ne_nil fun hnil => by rw [column, hnil] at hcolumn; cases hcolumn
    rw [column, hframes] at hcolumn
    obtain ⟨rfl, -⟩ := List.cons.inj hcolumn
    rw [lookupLocal, hframes]
    exact Option.isNone_map.symm
  have hinner : ∀ ident b, (s.declareAs a.name ident b).inBlock = s.inBlock := fun ident b =>
    (keeps_declareAs s a.name ident b).inBlock
  rw [Assignment.bind_of_shadow h, hlocal, hinner]
  split
  · rw [column_recordShadow, column_declareAs, hcolumn]
    simp
  · rw [column_declareAs, hcolumn]
    simp

theorem column_commit_shadow (hheld : Cell.held (s.column x) = some (k, u))
    (hfits : (k.isPinned || u.holds t) = false) {c : Cell} {rest : List Cell}
    (hcolumn : s.column x = c :: rest) :
    (Assignment.plan s x t).resolution = .shadow (Assignment.plan s x t).ident ∧
      ((Assignment.plan s x t).commit s isMutable source).column x =
        { c with
          bound := some (.local, t)
          noted := if c.bound.isNone && s.inBlock then c.noted ++ [t] else c.noted } :: rest := by
  obtain ⟨b, hb, rfl, rfl⟩ := lookupInFunction_of_held hheld
  have hresolve : s.resolve x t = .shadow (s.freshIdent x) :=
    (resolve_of_lookupInFunction hb t).trans (if_neg (by rw [hfits]; exact Bool.false_ne_true))
  have hident : (Assignment.plan s x t).ident = s.freshIdent x := by
    unfold Assignment.plan
    rw [hresolve]
  refine ⟨hresolve.trans (congrArg Resolution.shadow hident.symm), ?_⟩
  rw [column_commit]
  exact column_bind_shadow isMutable (a := Assignment.plan s x t) hresolve hcolumn

end Scope

end ClosureConversion
