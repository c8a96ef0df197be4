import ClosureConversion.Proofs.Scope.Layers
import Mathlib.Data.List.Forall2

/-! # The stacks of a scope -/

set_option autoImplicit false

namespace ClosureConversion

/-- Stacks that are compared frame by frame. -/
theorem forall₂_trans {α : Type} {R : α → α → Prop}
    (htrans : ∀ a b c, R a b → R b c → R a c) {xs ys zs : List α}
    (h : List.Forall₂ R xs ys) (h' : List.Forall₂ R ys zs) : List.Forall₂ R xs zs := by
  induction h generalizing zs with
  | nil => exact h'
  | cons hhead _ ih =>
    cases h' with
    | cons hhead' htail' => exact .cons (htrans _ _ _ hhead hhead') (ih htail')

theorem exists_mem_of_forall₂ {α : Type} {R : α → α → Prop} {xs ys : List α}
    (h : List.Forall₂ R xs ys) {x : α} (hx : x ∈ xs) : ∃ y ∈ ys, R x y := by
  induction h with
  | nil => cases hx
  | cons hhead _ ih =>
    rcases List.mem_cons.mp hx with rfl | hrest
    · exact ⟨_, List.mem_cons_self, hhead⟩
    · obtain ⟨y, hy, hrel⟩ := ih hrest
      exact ⟨y, List.mem_cons_of_mem _ hy, hrel⟩

/-! ## Tables of renames -/

namespace RenameTable

/-- The table is as deep as before, or was empty and now has its outermost frame. -/
def Levels (t u : RenameTable) : Prop := u.depth = t.depth ∨ t.depth = 0 ∧ u.depth = 1

variable {t u v : RenameTable}

theorem Levels.refl (t : RenameTable) : t.Levels t := .inl rfl

theorem Levels.trans (h : t.Levels u) (h' : u.Levels v) : t.Levels v := by
  unfold Levels at *
  omega

theorem levels_insert (t : RenameTable) (name ident : String) :
    t.Levels (t.insert name ident) := by
  unfold Levels insert depth
  rcases t.frames with _ | ⟨f, rest⟩
  · exact .inr ⟨rfl, rfl⟩
  · exact .inl rfl

theorem levels_insertAt (t : RenameTable) (index : Nat) (name ident : String) :
    t.Levels (t.insertAt index name ident) := by
  unfold insertAt
  split
  · exact .inl (List.length_modify ..)
  · exact levels_insert t name ident

/-- Leaving the frame that was entered. -/
theorem levels_pop (h : t.push.Levels u) : t.Levels u.pop := by
  have hdepth : u.depth = t.depth + 1 := by
    have hpush : t.push.depth = t.depth + 1 := rfl
    unfold Levels at h
    omega
  unfold Levels
  rcases hframes : u.frames with _ | ⟨f, _ | ⟨g, rest⟩⟩
  · rw [depth, hframes] at hdepth
    cases hdepth
  · -- the table was empty, and its outermost frame is never left
    have hpop : u.pop = u := by
      unfold pop pop?
      rw [hframes]
    rw [depth, hframes] at hdepth
    rw [hpop, depth, hframes]
    exact .inr ⟨(Nat.succ.inj hdepth).symm, rfl⟩
  · have hpop : u.pop = ⟨g :: rest⟩ := by
      unfold pop pop?
      rw [hframes]
    rw [depth, hframes] at hdepth
    rw [hpop]
    exact .inl (Nat.succ.inj hdepth)

end RenameTable

/-! ## Scopes -/

namespace Scope

/-- The stacks are as high as before, frame by frame of the same kind, and what was reserved for
the module stays reserved. -/
structure Keeps (s t : Scope) : Prop where
  kinds : t.allFrames.map Frame.kind = s.allFrames.map Frame.kind
  renames : s.renames.Levels t.renames
  idents : s.base.idents ⊆ t.base.idents

variable {s t : Scope}

theorem Keeps.refl (s : Scope) : s.Keeps s := ⟨rfl, .refl _, List.Subset.refl _⟩

theorem Keeps.trans {u : Scope} (h : s.Keeps t) (h' : t.Keeps u) : s.Keeps u :=
  ⟨h'.kinds.trans h.kinds, h.renames.trans h'.renames, List.Subset.trans h.idents h'.idents⟩

theorem Keeps.frames (h : s.Keeps t) : t.frames.length = s.frames.length := by
  have hlength := congrArg List.length h.kinds
  rw [List.length_map, List.length_map, length_allFrames, length_allFrames] at hlength
  exact Nat.succ.inj hlength

/-- Renames in any frame show in no frame. -/
theorem keeps_renames {renames : RenameTable} (h : s.renames.Levels renames) :
    s.Keeps { s with renames } :=
  ⟨rfl, h, List.Subset.refl _⟩

theorem subset_pushNew (names : List String) (name : String) : names ⊆ pushNew names name :=
  fun _ hn => mem_pushNew.mpr (.inl hn)

section Frames

variable {f : Frame → Frame} (hkind : ∀ g, (f g).kind = g.kind)
  (hidents : ∀ g, g.idents ⊆ (f g).idents)

include hkind hidents

/-- A change of the innermost frame. -/
theorem keeps_onInnermost (s : Scope) : s.Keeps (s.onInnermost f) := by
  refine ⟨?_, by rw [renames_onInnermost]; exact .refl _, ?_⟩
  · rw [allFrames_onInnermost]
    cases s.allFrames with
    | nil => rfl
    | cons g rest => exact congrArg (· :: _) (hkind g)
  · unfold onInnermost
    split
    · exact hidents s.base
    · exact List.Subset.refl _

theorem keeps_onFunction (s : Scope) : s.Keeps (s.onFunction f) := by
  unfold onFunction
  split
  · rename_i i _
    refine ⟨?_, .refl _, List.Subset.refl _⟩
    have hmodify : (s.frames.modify i f).map Frame.kind = s.frames.map Frame.kind := by
      refine List.ext_getElem? fun k => ?_
      rw [List.getElem?_map, List.getElem?_map, List.getElem?_modify, Option.map_eq_map,
        Option.map_map]
      refine congrArg (Option.map · _) (funext fun g => ?_)
      by_cases h : i = k
      · rw [Function.comp_apply, if_pos h, hkind]
      · rw [Function.comp_apply, if_neg h]
    simp only [allFrames, List.map_append, hmodify]
  · exact keeps_onInnermost hkind hidents s

end Frames

/-! ## Names -/

theorem keeps_declareAs (s : Scope) (name ident : String) (b : Binding) :
    s.Keeps (s.declareAs name ident b) := by
  have hframe : s.Keeps (s.onInnermost (Frame.bind name ident b)) :=
    keeps_onInnermost (f := Frame.bind name ident b) (fun _ => rfl)
      (fun g => subset_pushNew g.idents ident) s
  refine hframe.trans (keeps_renames ?_)
  rw [renames_onInnermost]
  exact RenameTable.levels_insert ..

theorem renames_onFunction (f : Frame → Frame) (s : Scope) :
    (s.onFunction f).renames = s.renames := by
  unfold onFunction
  split
  · rfl
  · exact renames_onInnermost f s

theorem keeps_declareInFunction (s : Scope) (name ident : String) (b : Binding) :
    s.Keeps (s.declareInFunction name ident b) := by
  have hframe : s.Keeps (s.onFunction (Frame.bind name ident b)) :=
    keeps_onFunction (f := Frame.bind name ident b) (fun _ => rfl)
      (fun g => subset_pushNew g.idents ident) s
  refine hframe.trans (keeps_renames ?_)
  rw [renames_onFunction]
  exact RenameTable.levels_insertAt ..

theorem keeps_reserveIdent (s : Scope) (ident : String) : s.Keeps (s.reserveIdent ident) :=
  keeps_onInnermost (f := Frame.reserve ident) (fun _ => rfl)
    (fun g => subset_pushNew g.idents ident) s

theorem keeps_reserveModuleIdent (s : Scope) (ident : String) :
    s.Keeps (s.reserveModuleIdent ident) := by
  refine ⟨?_, .refl _, subset_pushNew s.base.idents ident⟩
  simp only [allFrames, reserveModuleIdent, Frame.reserve, List.map_append, List.map_cons,
    List.map_nil]

theorem keeps_recordShadow (s : Scope) (name : String) (ty : Ty) :
    s.Keeps (s.recordShadow name ty) :=
  keeps_onInnermost (f := fun f => { f with shadowed := f.shadowed ++ [(name, ty)] })
    (fun _ => rfl) (fun g => List.Subset.refl g.idents) s

theorem map_kind_modifyIn {name : String} {change : Binding → Binding} {frames frames' : List Frame}
    (h : modifyIn name change frames = some frames') :
    frames'.map Frame.kind = frames.map Frame.kind := by
  induction frames generalizing frames' with
  | nil => cases h
  | cons g rest ih =>
    rw [modifyIn] at h
    split at h
    · cases h
      rfl
    · obtain ⟨rest', hrest, rfl⟩ := Option.map_eq_some_iff.mp h
      exact congrArg (g.kind :: ·) (ih hrest)

theorem keeps_modifyBinding (s : Scope) (name : String) (change : Binding → Binding) :
    s.Keeps (s.modifyBinding name change) := by
  unfold modifyBinding
  split
  · rename_i frames hmod
    refine ⟨?_, .refl _, List.Subset.refl _⟩
    simp only [allFrames, List.map_append, map_kind_modifyIn hmod]
  · refine ⟨?_, .refl _, List.Subset.refl _⟩
    simp only [allFrames, List.map_append, List.map_cons, List.map_nil]

theorem keeps_widen (s : Scope) (name : String) (ty : Ty) : s.Keeps (s.widen name ty) := by
  unfold widen
  split
  · exact keeps_modifyBinding ..
  · exact .refl s

/-- One change after the other. -/
theorem keeps_foldl {α : Type} {f : Scope → α → Scope}
    (h : ∀ (s : Scope) a, s.Keeps (f s a)) (as : List α)
    (s : Scope) : s.Keeps (as.foldl f s) := by
  induction as generalizing s with
  | nil => exact .refl s
  | cons a rest ih => exact (h s a).trans (ih (f s a))

theorem keeps_foldl_widen (shadowed : List (String × Ty)) (s : Scope) :
    s.Keeps (shadowed.foldl (fun s e => s.widen e.1 e.2) s) :=
  keeps_foldl (fun s e => keeps_widen s e.1 e.2) shadowed s

/-! ## Frames that are entered and left -/

/-- Leaving a frame gives up nothing that was reserved for the module. -/
theorem idents_of_pop {left : Left} (h : s.pop = .ok left) :
    s.base.idents ⊆ left.scope.base.idents := by
  unfold pop at h
  split at h
  · cases h
  · rename_i f frames _
    dsimp only at h
    split at h
    · cases h
      exact (keeps_foldl_widen f.shadowed { s with frames, renames := s.renames.pop }).idents
    · cases h
      exact List.Subset.refl _

/-- **A frame that was entered can be left**, whatever happened to the scope in between, and then
the stacks are what they were. -/
theorem exists_pop_of_keeps {kind : FrameKind} (h : (s.push kind).Keeps t) :
    ∃ left, t.pop = .ok left ∧ s.Keeps left.scope := by
  have hkinds := h.kinds
  unfold pop
  rcases hframes : t.frames with _ | ⟨f, frames⟩
  · have hlength := h.frames
    rw [hframes] at hlength
    cases hlength
  · have hpopped : s.Keeps { t with frames, renames := t.renames.pop } := by
      refine ⟨?_, RenameTable.levels_pop h.renames, h.idents⟩
      rw [allFrames, hframes] at hkinds
      exact (List.cons.inj hkinds).2
    dsimp only
    split
    · exact ⟨_, rfl, hpopped.trans (keeps_foldl_widen f.shadowed _)⟩
    · exact ⟨_, rfl, hpopped⟩

end Scope

theorem Assignment.keeps_commit (a : Assignment) (s : Scope) (isMutable : Bool)
    (source : Option String) : s.Keeps (a.commit s isMutable source) := by
  have hbind : s.Keeps (a.bind s isMutable) :=
    a.bind_elim s isMutable (fun _ _ => Scope.keeps_declareAs ..)
      (fun _ => Scope.keeps_modifyBinding ..) fun _ h => h.trans (Scope.keeps_recordShadow ..)
  obtain ⟨link, hcommit⟩ := a.commit_eq s isMutable source
  rw [hcommit]
  exact hbind.trans (Scope.keeps_modifyBinding ..)

end ClosureConversion
