import ClosureConversion.Proofs.Scope.Stacks

/-! # Changes confined to inner frames -/

set_option autoImplicit false

namespace ClosureConversion

/-! ## Frames -/

/-- Between the two frames identifiers were reserved, and nothing else was done. -/
structure Frame.Reserves (f g : Frame) : Prop where
  kind : g.kind = f.kind
  bindings : g.bindings = f.bindings
  shadowed : g.shadowed = f.shadowed
  idents : f.idents ⊆ g.idents

/-- The frame binds what it bound and has reserved what was reserved before. -/
structure Frame.Grows (f g : Frame) : Prop where
  kind : g.kind = f.kind
  binds : ∀ n, (f.get? n).isSome → (g.get? n).isSome
  idents : f.idents ⊆ g.idents

namespace Frame

variable {f g h : Frame}

theorem Reserves.refl (f : Frame) : f.Reserves f := ⟨rfl, rfl, rfl, List.Subset.refl _⟩

theorem Reserves.trans (hfg : f.Reserves g) (hgh : g.Reserves h) : f.Reserves h :=
  ⟨hgh.kind.trans hfg.kind, hgh.bindings.trans hfg.bindings, hgh.shadowed.trans hfg.shadowed,
    List.Subset.trans hfg.idents hgh.idents⟩

theorem Reserves.eq (hfg : f.Reserves g) : g = { f with idents := g.idents } := by
  rw [← hfg.kind, ← hfg.bindings, ← hfg.shadowed]

theorem reserves_reserve (f : Frame) (ident : String) : f.Reserves (f.reserve ident) :=
  ⟨rfl, rfl, rfl, fun _ hn => mem_pushNew.mpr (.inl hn)⟩

theorem Grows.refl (f : Frame) : f.Grows f := ⟨rfl, fun _ h => h, List.Subset.refl _⟩

theorem Grows.trans (hfg : f.Grows g) (hgh : g.Grows h) : f.Grows h :=
  ⟨hgh.kind.trans hfg.kind, fun n hn => hgh.binds n (hfg.binds n hn),
    List.Subset.trans hfg.idents hgh.idents⟩

theorem Grows.isFunction (hfg : f.Grows g) : g.isFunction = f.isFunction := by
  unfold Frame.isFunction
  rw [hfg.kind]

theorem Reserves.grows (hfg : f.Reserves g) : f.Grows g := by
  refine ⟨hfg.kind, fun n hn => ?_, hfg.idents⟩
  rwa [Frame.get?, hfg.bindings]

theorem grows_bind (f : Frame) (name ident : String) (b : Binding) :
    f.Grows (f.bind name ident b) := by
  refine ⟨rfl, fun n hn => ?_, fun _ hn => mem_pushNew.mpr (.inl hn)⟩
  show ((f.bindings.insert name b).get? n).isSome
  rw [NameMap.get?_insert]
  split
  · rfl
  · exact hn

theorem grows_modify (f : Frame) (name : String) (change : Binding → Binding) :
    f.Grows { f with bindings := f.bindings.modify name change } := by
  refine ⟨rfl, fun n hn => ?_, List.Subset.refl _⟩
  show ((f.bindings.modify name change).get? n).isSome
  rw [NameMap.get?_modify]
  split
  · rw [Option.isSome_map]
    exact hn
  · exact hn

end Frame

namespace Scope

theorem forall₂_grows_refl (frames : List Frame) : List.Forall₂ Frame.Grows frames frames :=
  List.forall₂_same.mpr fun f _ => .refl f

theorem exists_binds_of_grows {fs gs : List Frame} {n : String}
    (h : List.Forall₂ Frame.Grows fs gs) (hn : ∃ f ∈ fs, (f.get? n).isSome) :
    ∃ g ∈ gs, (g.get? n).isSome := by
  obtain ⟨f, hf, hfn⟩ := hn
  obtain ⟨g, hg, hgrows⟩ := exists_mem_of_forall₂ h hf
  exact ⟨g, hg, hgrows.binds n hfn⟩

/-! ## The frames of a function -/

/-- How many frames there are down to the one of the innermost function; all if there is none. -/
def reach (s : Scope) : Nat := (innerFrames s.allFrames).length

/-- One of the innermost `k` frames binds the name. -/
def BindsWithin (k : Nat) (s : Scope) (n : String) : Prop :=
  ∃ f ∈ s.allFrames.take k, (f.get? n).isSome

theorem innerFrames_eq_take (frames : List Frame) :
    innerFrames frames = frames.take (innerFrames frames).length := by
  induction frames with
  | nil => rfl
  | cons f rest ih =>
    rw [innerFrames]
    split
    · rfl
    · exact congrArg (f :: ·) ih

theorem head_mem_innerFrames (f : Frame) (rest : List Frame) : f ∈ innerFrames (f :: rest) := by
  rw [innerFrames]
  split <;> exact List.mem_cons_self

theorem grows_innerFrames {fs gs : List Frame} (h : List.Forall₂ Frame.Grows fs gs) :
    List.Forall₂ Frame.Grows (innerFrames fs) (innerFrames gs) := by
  induction h with
  | nil => exact .nil
  | cons hhead _ ih =>
    rw [innerFrames, innerFrames, hhead.isFunction]
    split
    · exact .cons hhead .nil
    · exact .cons hhead ih

variable {s t u : Scope} {k : Nat} {n : String}

theorem reach_pos (s : Scope) : 1 ≤ s.reach := by
  unfold reach allFrames
  cases s.frames with
  | nil => exact List.length_pos_of_mem (head_mem_innerFrames s.base [])
  | cons f rest => exact List.length_pos_of_mem (head_mem_innerFrames f (rest ++ [s.base]))

theorem reach_pushFunction (s : Scope) {kind : FrameKind} (hkind : (Layer.new kind).isFunction) :
    (s.push kind).reach = 1 := by
  have hfun : ({ kind } : Frame).isFunction = true := hkind
  unfold reach allFrames push
  rw [List.cons_append, innerFrames, if_pos hfun]
  rfl

theorem bindsWithin_reach (h : (s.lookupInFunction n).isSome) : s.BindsWithin s.reach n := by
  rw [lookupInFunction, List.findSome?_isSome_iff] at h
  obtain ⟨f, hf, hn⟩ := h
  rw [innerFrames_eq_take] at hf
  exact ⟨f, hf, hn⟩

theorem BindsWithin.mono {k' : Nat} (h : s.BindsWithin k n) (hk : k ≤ k') : s.BindsWithin k' n := by
  obtain ⟨f, hf, hn⟩ := h
  exact ⟨f, List.take_subset_take_left _ hk hf, hn⟩

/-! ## Confinement -/

/-- Only the innermost `k` frames and the identifiers of the module differ, and nothing is lost
there. If there are fewer frames than `k`, the module's own frame counts among them. -/
structure Confined (k : Nat) (s t : Scope) : Prop where
  grows : List.Forall₂ Frame.Grows s.allFrames t.allFrames
  frames : t.frames.drop k = s.frames.drop k
  renames : t.renames.frames.drop k = s.renames.frames.drop k
  depth : t.renames.frames.length = s.renames.frames.length
  base : k ≤ s.frames.length → s.base.Reserves t.base

namespace Confined

theorem refl (k : Nat) (s : Scope) : Confined k s s :=
  ⟨forall₂_grows_refl _, rfl, rfl, rfl, fun _ => .refl _⟩

theorem length (h : Confined k s t) : t.frames.length = s.frames.length := by
  have hlength := h.grows.length_eq
  rw [length_allFrames, length_allFrames] at hlength
  exact (Nat.succ.inj hlength).symm

theorem trans (h : Confined k s t) (h' : Confined k t u) : Confined k s u :=
  ⟨forall₂_trans (R := Frame.Grows) (fun _ _ _ => .trans) h.grows h'.grows,
    h'.frames.trans h.frames, h'.renames.trans h.renames, h'.depth.trans h.depth,
    fun hk => (h.base hk).trans (h'.base (h.length ▸ hk))⟩

theorem mono {k' : Nat} (h : Confined k s t) (hk : k ≤ k') : Confined k' s t := by
  obtain ⟨d, rfl⟩ := Nat.exists_eq_add_of_le hk
  refine ⟨h.grows, ?_, ?_, h.depth, fun hk' => h.base (Nat.le_trans hk hk')⟩
  · rw [← List.drop_drop, ← List.drop_drop, h.frames]
  · rw [← List.drop_drop, ← List.drop_drop, h.renames]

theorem leveled (h : Confined k s t) (hs : s.Leveled) : t.Leveled := by
  unfold Leveled at *
  rw [h.depth, hs, h.grows.length_eq]

theorem reach (h : Confined k s t) : t.reach = s.reach :=
  (grows_innerFrames h.grows).length_eq.symm

theorem bindsWithin {j : Nat} (h : Confined k s t) (hn : s.BindsWithin j n) : t.BindsWithin j n :=
  exists_binds_of_grows (List.forall₂_take j h.grows) hn

/-- Nothing but identifiers of the module differs. -/
theorem eq_of_zero (h : Confined 0 s t) :
    t = { s with base := { s.base with idents := t.base.idents } } := by
  have hbase := (h.base (Nat.zero_le _)).eq
  have hframes : t.frames = s.frames := h.frames
  have hrenames : t.renames = s.renames := congrArg RenameTable.mk h.renames
  rw [← hbase, ← hframes, ← hrenames]

end Confined

/-- The names declared anew in each frame. -/
def shadows (s : Scope) : List (List (String × Ty)) := s.allFrames.map Frame.shadowed

theorem Confined.shadows_of_zero (h : Confined 0 s t) : t.shadows = s.shadows := by
  have hframes : t.frames = s.frames := h.frames
  rw [shadows, shadows, allFrames, allFrames, List.map_append, List.map_append, hframes,
    List.map_singleton, List.map_singleton, (h.base (Nat.zero_le _)).shadowed]

/-! ## Operations -/

theorem confined_onInnermost {f : Frame → Frame} (h : ∀ g : Frame, g.Grows (f g)) (s : Scope) :
    Confined 1 s (s.onInnermost f) := by
  refine ⟨?_, ?_, by rw [renames_onInnermost], by rw [renames_onInnermost], fun hk => ?_⟩
  · rw [allFrames_onInnermost]
    cases s.allFrames with
    | nil => exact .nil
    | cons g rest => exact .cons (h g) (forall₂_grows_refl rest)
  · unfold onInnermost
    split
    · rfl
    · rename_i hframes
      rw [hframes]
      rfl
  · unfold onInnermost
    split
    · rename_i hframes
      rw [hframes] at hk
      cases hk
    · exact .refl _

theorem shadows_onInnermost {f : Frame → Frame} (h : ∀ g, (f g).shadowed = g.shadowed)
    (s : Scope) : (s.onInnermost f).shadows = s.shadows := by
  rw [shadows, shadows, allFrames_onInnermost]
  cases s.allFrames with
  | nil => rfl
  | cons g rest => exact congrArg (· :: _) (h g)

theorem confined_reserveIdent (s : Scope) (ident : String) : Confined 1 s (s.reserveIdent ident) :=
  confined_onInnermost (fun g => (g.reserves_reserve ident).grows) s

theorem confined_recordShadow (s : Scope) (name : String) (ty : Ty) :
    Confined 1 s (s.recordShadow name ty) :=
  confined_onInnermost (f := fun g => { g with shadowed := g.shadowed ++ [(name, ty)] })
    (fun g => ⟨rfl, fun _ h => h, List.Subset.refl g.idents⟩) s

theorem confined_reserveModuleIdent (s : Scope) (ident : String) :
    Confined 0 s (s.reserveModuleIdent ident) := by
  have hreserves := s.base.reserves_reserve ident
  exact ⟨List.rel_append (forall₂_grows_refl _) (.cons hreserves.grows .nil), rfl, rfl, rfl,
    fun _ => hreserves⟩

theorem confined_declareAs (hs : s.Leveled) (name ident : String) (b : Binding) :
    Confined 1 s (s.declareAs name ident b) := by
  have hinner := confined_onInnermost (fun g : Frame => g.grows_bind name ident b) s
  have hrenames : (s.declareAs name ident b).renames.frames =
      s.renames.frames.modifyHead (·.insert name ident) := insert_frames hs name ident
  refine ⟨hinner.grows, hinner.frames, ?_, ?_, hinner.base⟩
  · rw [hrenames]
    cases s.renames.frames <;> rfl
  · rw [hrenames, List.length_modifyHead]

theorem shadows_declareAs (s : Scope) (name ident : String) (b : Binding) :
    (s.declareAs name ident b).shadows = s.shadows :=
  shadows_onInnermost (fun _ => by rfl) s

theorem bindsWithin_declareAs (s : Scope) (name ident : String) (b : Binding) :
    (s.declareAs name ident b).BindsWithin 1 name := by
  have hframes : (s.declareAs name ident b).allFrames =
      s.allFrames.modifyHead (Frame.bind name ident b) := allFrames_onInnermost _ s
  have hbound : ∀ f : Frame, ((f.bind name ident b).get? name).isSome := fun f => by
    show ((f.bindings.insert name b).get? name).isSome
    rw [NameMap.get?_insert_self]
    rfl
  unfold BindsWithin
  rw [hframes, allFrames]
  cases s.frames with
  | nil => exact ⟨_, List.mem_singleton.mpr rfl, hbound s.base⟩
  | cons f rest => exact ⟨_, List.mem_singleton.mpr rfl, hbound f⟩

/-- The innermost frame that binds a name is changed, and it is among those that are known to. -/
theorem modifyIn_of_take {name : String} (change : Binding → Binding) {frames : List Frame}
    (h : ∃ f ∈ frames.take k, (f.get? name).isSome) :
    ∃ frames', modifyIn name change frames = some frames' ∧
      frames'.drop k = frames.drop k ∧ List.Forall₂ Frame.Grows frames frames' ∧
      frames'.map Frame.shadowed = frames.map Frame.shadowed := by
  induction frames generalizing k with
  | nil =>
    obtain ⟨f, hf, -⟩ := h
    rw [List.take_nil] at hf
    cases hf
  | cons g rest ih =>
    cases k with
    | zero =>
      obtain ⟨f, hf, -⟩ := h
      cases hf
    | succ k =>
      rw [modifyIn]
      by_cases hg : (g.get? name).isSome
      · rw [if_pos hg]
        exact ⟨_, rfl, rfl, .cons (g.grows_modify name change) (forall₂_grows_refl rest), rfl⟩
      · rw [if_neg hg]
        obtain ⟨f, hf, hfn⟩ := h
        rw [List.take_succ_cons, List.mem_cons] at hf
        rcases hf with rfl | hmem
        · exact absurd hfn hg
        · obtain ⟨rest', hrest, hdrop, hgrows, hshadowed⟩ := ih ⟨f, hmem, hfn⟩
          refine ⟨g :: rest', by rw [hrest]; rfl, hdrop, .cons (.refl g) hgrows, ?_⟩
          exact congrArg (g.shadowed :: ·) hshadowed

theorem grows_modifyIn {name : String} {change : Binding → Binding} {frames frames' : List Frame}
    (hmod : modifyIn name change frames = some frames') :
    List.Forall₂ Frame.Grows frames frames' ∧
      frames'.map Frame.shadowed = frames.map Frame.shadowed := by
  induction frames generalizing frames' with
  | nil => cases hmod
  | cons f rest ih =>
    rw [modifyIn] at hmod
    split at hmod
    · cases hmod
      exact ⟨.cons (f.grows_modify name change) (forall₂_grows_refl rest), rfl⟩
    · obtain ⟨rest', hrest, rfl⟩ := Option.map_eq_some_iff.mp hmod
      exact ⟨.cons (.refl f) (ih hrest).1, congrArg (f.shadowed :: ·) (ih hrest).2⟩

/-- A binding is changed where the name is bound. -/
theorem confined_modifyBinding {name : String} (change : Binding → Binding)
    (h : s.BindsWithin k name) : Confined k s (s.modifyBinding name change) := by
  unfold modifyBinding
  by_cases hk : k ≤ s.frames.length
  · have hwithin : ∃ f ∈ s.frames.take k, (f.get? name).isSome := by
      obtain ⟨f, hf, hfn⟩ := h
      rw [allFrames, List.take_append_of_le_length hk] at hf
      exact ⟨f, hf, hfn⟩
    obtain ⟨frames', hmod, hdrop, hgrows, -⟩ := modifyIn_of_take change hwithin
    rw [hmod]
    exact ⟨List.rel_append hgrows (.cons (.refl _) .nil), hdrop, rfl, rfl, fun _ => .refl _⟩
  · have hdrop : ∀ frames' : List Frame, frames'.length = s.frames.length →
        frames'.drop k = s.frames.drop k := fun frames' hlength => by
      rw [List.drop_eq_nil_of_le (by omega), List.drop_eq_nil_of_le (by omega)]
    split
    · rename_i frames' hmod
      have hgrows := (grows_modifyIn hmod).1
      exact ⟨List.rel_append hgrows (.cons (.refl _) .nil), hdrop _ hgrows.length_eq.symm, rfl, rfl,
        fun hle => absurd hle hk⟩
    · exact ⟨List.rel_append (forall₂_grows_refl _) (.cons (s.base.grows_modify name change) .nil),
        rfl, rfl, rfl, fun hle => absurd hle hk⟩

theorem shadows_modifyBinding (s : Scope) (name : String) (change : Binding → Binding) :
    (s.modifyBinding name change).shadows = s.shadows := by
  unfold modifyBinding shadows allFrames
  split
  · rename_i frames' hmod
    rw [List.map_append, List.map_append, (grows_modifyIn hmod).2]
  · rw [List.map_append, List.map_append]
    rfl

theorem confined_widen {name : String} (ty : Ty) (h : s.BindsWithin k name) :
    Confined k s (s.widen name ty) := by
  unfold widen
  split
  · exact confined_modifyBinding _ h
  · exact .refl k s

theorem shadows_widen (s : Scope) (name : String) (ty : Ty) :
    (s.widen name ty).shadows = s.shadows := by
  unfold widen
  split
  · exact shadows_modifyBinding ..
  · rfl

theorem confined_foldl_widen {shadowed : List (String × Ty)}
    (h : ∀ e ∈ shadowed, s.BindsWithin k e.1) :
    Confined k s (shadowed.foldl (fun s e => s.widen e.1 e.2) s) ∧
      (shadowed.foldl (fun s e => s.widen e.1 e.2) s).shadows = s.shadows := by
  induction shadowed generalizing s with
  | nil => exact ⟨.refl k s, rfl⟩
  | cons e rest ih =>
    rw [List.forall_mem_cons] at h
    have hfirst := confined_widen e.2 h.1
    obtain ⟨hrest, hshadows⟩ := ih (s := s.widen e.1 e.2) fun e' he' =>
      hfirst.bindsWithin (h.2 e' he')
    exact ⟨hfirst.trans hrest, hshadows.trans (shadows_widen s e.1 e.2)⟩

/-! ## Reservations -/

/-- Identifiers were reserved, in the innermost frame and in the module's, and nothing else was
done. -/
structure Reserves (s t : Scope) : Prop where
  frames : List.Forall₂ Frame.Reserves s.frames t.frames
  tail : t.frames.tail = s.frames.tail
  base : s.base.Reserves t.base
  renames : t.renames = s.renames

namespace Reserves

theorem refl (s : Scope) : s.Reserves s :=
  ⟨List.forall₂_same.mpr fun f _ => .refl f, rfl, .refl _, rfl⟩

theorem trans (h : s.Reserves t) (h' : t.Reserves u) : s.Reserves u :=
  ⟨forall₂_trans (R := Frame.Reserves) (fun _ _ _ => .trans) h.frames h'.frames,
    h'.tail.trans h.tail, h.base.trans h'.base, h'.renames.trans h.renames⟩

theorem confined (h : s.Reserves t) : Confined 1 s t := by
  refine ⟨?_, ?_, by rw [h.renames], by rw [h.renames], fun _ => h.base⟩
  · exact List.rel_append (h.frames.imp fun _ _ => Frame.Reserves.grows)
      (.cons h.base.grows .nil)
  · rw [List.drop_one, List.drop_one, h.tail]

theorem shadows (h : s.Reserves t) : t.shadows = s.shadows := by
  have hmap : ∀ {fs gs : List Frame}, List.Forall₂ Frame.Reserves fs gs →
      gs.map Frame.shadowed = fs.map Frame.shadowed := by
    intro fs gs hsame
    induction hsame with
    | nil => rfl
    | cons hhead _ ih => rw [List.map_cons, List.map_cons, hhead.shadowed, ih]
  exact hmap (List.rel_append h.frames (.cons h.base .nil))

theorem sameLayers (h : s.Reserves t) : s.SameLayers t := by
  have hlayer : ∀ {f g : Frame}, f.Reserves g → ∀ r, Layer.ofFrame g r = Layer.ofFrame f r := by
    intro f g hfg r
    unfold Layer.ofFrame Frame.get?
    rw [hfg.kind, hfg.bindings]
  have hall : ∀ {fs gs : List Frame} (rs : List (NameMap String)),
      List.Forall₂ Frame.Reserves fs gs → Layer.all gs rs = Layer.all fs rs := by
    intro fs gs rs hsame
    induction hsame generalizing rs with
    | nil => rfl
    | cons hhead _ ih =>
      cases rs with
      | nil => rfl
      | cons r rs =>
        unfold Layer.all at ih ⊢
        rw [List.zipWith_cons_cons, List.zipWith_cons_cons, hlayer hhead, ih]
  refine ⟨?_, h.frames.length_eq.symm, by rw [h.renames]⟩
  rw [layers, layers, h.renames]
  exact hall _ (List.rel_append h.frames (.cons h.base .nil))

end Reserves

theorem reserves_reserveIdent (s : Scope) (ident : String) : s.Reserves (s.reserveIdent ident) := by
  unfold reserveIdent onInnermost
  split
  · exact ⟨List.forall₂_same.mpr fun f _ => .refl f, rfl, s.base.reserves_reserve ident, rfl⟩
  · rename_i f rest hframes
    refine ⟨?_, by rw [hframes]; rfl, .refl _, rfl⟩
    rw [hframes]
    exact .cons (f.reserves_reserve ident) (List.forall₂_same.mpr fun g _ => .refl g)

theorem reserves_reserveModuleIdent (s : Scope) (ident : String) :
    s.Reserves (s.reserveModuleIdent ident) :=
  ⟨List.forall₂_same.mpr fun f _ => .refl f, rfl, s.base.reserves_reserve ident, rfl⟩

/-! ## Leaving a frame -/

/-- The frame that was entered is still on top, and without it the scope is the old one up to
one frame less. -/
theorem Confined.exists_cons {kind : FrameKind} (h : Confined (k + 1) (s.push kind) t)
    (hs : s.Leveled) :
    ∃ f rest, t.frames = f :: rest ∧ f.kind = kind ∧
      Confined k s { t with frames := rest, renames := t.renames.pop } := by
  have hgrows := h.grows
  rcases hframes : t.frames with _ | ⟨f, rest⟩
  · have hlength := h.length
    rw [hframes] at hlength
    cases hlength
  · refine ⟨f, rest, rfl, ?_⟩
    rw [allFrames, allFrames, hframes] at hgrows
    cases hgrows with
    | cons hhead htail =>
      refine ⟨hhead.kind, ?_⟩
      have hdepth : t.renames.frames.length = s.renames.frames.length + 1 := h.depth
      unfold Leveled at hs
      rw [hs, length_allFrames] at hdepth
      rcases hren : t.renames.frames with _ | ⟨r, _ | ⟨r', rs⟩⟩
      · rw [hren] at hdepth
        cases hdepth
      · rw [hren] at hdepth
        cases hdepth
      · have hpop : t.renames.pop = ⟨r' :: rs⟩ := by
          unfold RenameTable.pop RenameTable.pop?
          rw [hren]
        have hdrop := h.frames
        have hrenames := h.renames
        rw [hframes] at hdrop
        rw [hren] at hrenames hdepth
        refine ⟨htail, hdrop, ?_, ?_, fun hk => h.base (Nat.succ_le_succ hk)⟩
        · rw [hpop]
          exact hrenames
        · rw [hpop, hs, length_allFrames]
          exact Nat.succ.inj hdepth

/-- The innermost frame has the kind it was entered with. -/
theorem Confined.exists_head {kind : FrameKind} (h : Confined k (s.push kind) t) :
    ∃ f rest, t.allFrames = f :: rest ∧ f.isFunction = ({ kind } : Frame).isFunction := by
  have hgrows := h.grows
  rcases hframes : t.allFrames with _ | ⟨f, rest⟩
  · rw [hframes] at hgrows
    cases hgrows
  · rw [hframes] at hgrows
    cases hgrows with
    | cons hhead _ => exact ⟨f, rest, rfl, hhead.isFunction⟩

/-- **Leaving a function** restores the scope around it. -/
theorem Confined.popFunction {kind : FrameKind} {left : Left} (h : Confined 1 (s.push kind) t)
    (hs : s.Leveled) (hkind : (Layer.new kind).isFunction) (hpop : t.pop = .ok left) :
    Confined 0 s left.scope := by
  obtain ⟨f, rest, hframes, hf, hrest⟩ := h.exists_cons hs
  have hblock : f.isBlock = false := by
    unfold Frame.isBlock
    rw [hf]
    cases kind <;> first | rfl | cases hkind
  unfold pop at hpop
  rw [hframes] at hpop
  dsimp only at hpop
  rw [hblock] at hpop
  cases hpop
  exact hrest

/-- Leaving a block, whose shadowed names are bound in the frames that may change. -/
theorem Confined.popBlock {left : Left} (h : Confined (k + 1) s.pushBlock t) (hs : s.Leveled)
    (hpop : t.pop = .ok left)
    (hback : ∀ f rest, t.allFrames = f :: rest → ∀ e ∈ f.shadowed,
      ∃ g ∈ rest.take k, (g.get? e.1).isSome) :
    Confined k s left.scope ∧ List.Forall₂ Frame.Grows t.allFrames.tail left.scope.allFrames ∧
      left.scope.shadows = t.shadows.tail := by
  obtain ⟨f, rest, hframes, -, hrest⟩ := h.exists_cons hs
  have hall : t.allFrames = f :: (rest ++ [t.base]) := by rw [allFrames, hframes]; rfl
  have htail : ({ t with frames := rest, renames := t.renames.pop } : Scope).shadows =
      t.shadows.tail := by
    rw [shadows, shadows, hall]
    rfl
  rw [hall, List.tail_cons]
  unfold pop at hpop
  rw [hframes] at hpop
  dsimp only at hpop
  split at hpop
  · cases hpop
    obtain ⟨hwiden, hshadows⟩ := confined_foldl_widen
      (s := { t with frames := rest, renames := t.renames.pop }) (hback f _ hall)
    exact ⟨hrest.trans hwiden, hwiden.grows, hshadows.trans htail⟩
  · cases hpop
    exact ⟨hrest, forall₂_grows_refl _, htail⟩

/-! ## Names declared anew in blocks -/

/-- In the frames of the innermost function: what a block declares anew, the function binds outside
the block. -/
def Backed : List Frame → Prop
  | [] => True
  | f :: rest => f.isFunction = true ∨
    (∀ e ∈ f.shadowed, ∃ g ∈ innerFrames rest, (g.get? e.1).isSome) ∧ Backed rest

theorem Backed.grows {fs gs : List Frame} (h : Backed fs) (hgrows : List.Forall₂ Frame.Grows fs gs)
    (hshadowed : gs.map Frame.shadowed = fs.map Frame.shadowed) : Backed gs := by
  induction hgrows with
  | nil => exact trivial
  | cons hhead htail ih =>
    obtain ⟨hsame, hrest⟩ := List.cons.inj hshadowed
    rcases h with hfun | ⟨hback, hbelow⟩
    · exact .inl (hhead.isFunction.trans hfun)
    · refine .inr ⟨fun e he => ?_, ih hbelow hrest⟩
      rw [hsame] at he
      exact exists_binds_of_grows (grows_innerFrames htail) (hback e he)

theorem Confined.backed (h : Confined k s t) (hshadows : t.shadows = s.shadows)
    (hs : Backed s.allFrames) : Backed t.allFrames :=
  hs.grows h.grows hshadows

theorem backed_pushBlock (h : Backed s.allFrames) : Backed s.pushBlock.allFrames :=
  .inr ⟨fun _ he => absurd he List.not_mem_nil, h⟩

/-- **Leaving a block** of a function: the types it widens belong to the function. -/
theorem Confined.popBacked {left : Left} (h : Confined (s.reach + 1) s.pushBlock t)
    (hs : s.Leveled) (hback : Backed t.allFrames) (hpop : t.pop = .ok left) :
    Confined s.reach s left.scope ∧ Backed left.scope.allFrames := by
  obtain ⟨f, rest, hframes, hkind, -⟩ := h.exists_cons hs
  have hall : t.allFrames = f :: (rest ++ [t.base]) := by rw [allFrames, hframes]; rfl
  have hblock : f.isFunction = false := by
    unfold Frame.isFunction
    rw [hkind]
  have hreach : (innerFrames (rest ++ [t.base])).length = s.reach := by
    have hsame : t.reach = s.reach + 1 := h.reach
    rw [Scope.reach, hall, innerFrames, hblock] at hsame
    exact Nat.succ.inj hsame
  rw [hall] at hback
  obtain ⟨hshadowed, hbelow⟩ := hback.resolve_left (by rw [hblock]; exact Bool.false_ne_true)
  rw [innerFrames_eq_take, hreach] at hshadowed
  obtain ⟨hleft, hgrows, hshadows⟩ := h.popBlock hs hpop fun g gs hg => by
    obtain ⟨rfl, rfl⟩ := List.cons.inj (hall.symm.trans hg)
    exact hshadowed
  refine ⟨hleft, ?_⟩
  rw [hall, List.tail_cons] at hgrows
  refine hbelow.grows hgrows (hshadows.trans ?_)
  rw [shadows, hall]
  rfl

theorem isBlock_head {f : Frame} {rest : List Frame} (hblock : s.inBlock = true)
    (hframes : s.allFrames = f :: rest) : f.isBlock = true := by
  unfold inBlock at hblock
  split at hblock
  · rename_i g _ hg
    rw [allFrames, hg] at hframes
    obtain ⟨rfl, -⟩ := List.cons.inj hframes
    exact hblock
  · cases hblock

/-- Below the innermost frame nothing was declared. -/
theorem exists_allFrames_of_onInnermost {g : Frame → Frame} {f : Frame} {rest : List Frame}
    (h : (s.onInnermost g).allFrames = f :: rest) : ∃ f₀, s.allFrames = f₀ :: rest ∧ f = g f₀ := by
  rw [allFrames_onInnermost] at h
  rcases hold : s.allFrames with _ | ⟨f₀, rest₀⟩
  · rw [hold] at h
    cases h
  · rw [hold] at h
    obtain ⟨rfl, rfl⟩ := List.cons.inj h
    exact ⟨f₀, rfl, rfl⟩

/-- A name of the function is declared anew in a block that did not bind it before. -/
theorem backed_recordShadow {name : String} (ty : Ty) (h : Backed s.allFrames)
    (hbound : ∀ f rest, s.allFrames = f :: rest → f.isBlock = true →
      ∃ g ∈ innerFrames rest, (g.get? name).isSome) (hblock : s.inBlock = true) :
    Backed (s.recordShadow name ty).allFrames := by
  rw [recordShadow, allFrames_onInnermost]
  rcases hframes : s.allFrames with _ | ⟨f, rest⟩
  · exact trivial
  · rw [hframes] at h
    rcases h with hfun | ⟨hback, hbelow⟩
    · exact .inl hfun
    · refine .inr ⟨fun e he => ?_, hbelow⟩
      rcases List.mem_append.mp he with hold | hnew
      · exact hback e hold
      · rw [List.mem_singleton.mp hnew]
        exact hbound f rest hframes (isBlock_head hblock hframes)

end Scope

/-! ## Assignments -/

namespace Assignment

variable {s t : Scope} {name : String} {ty : Ty}

/-- What is not declared for the first time was bound in the function. -/
theorem isSome_of_resolution (h : (plan s name ty).resolution ≠ .fresh) :
    (s.lookupInFunction name).isSome := by
  cases hlookup : s.lookupInFunction name with
  | some b => rfl
  | none =>
    refine absurd ?_ h
    show s.resolve name ty = .fresh
    unfold Scope.resolve
    rw [hlookup]

/-- What the function binds, but not in its innermost block, it binds outside that block. -/
theorem exists_outside_block (hbound : t.BindsWithin t.reach name)
    (hlocal : (t.lookupLocal name).isNone) {f : Frame} {rest : List Frame}
    (hframes : t.allFrames = f :: rest) (hblock : f.isBlock = true) :
    ∃ g ∈ Scope.innerFrames rest, (g.get? name).isSome := by
  have hfun := Frame.isFunction_of_isBlock hblock
  obtain ⟨g, hg, hgn⟩ := hbound
  rw [Scope.reach, ← Scope.innerFrames_eq_take, hframes, Scope.innerFrames, hfun] at hg
  rw [Scope.lookupLocal, hframes] at hlocal
  rcases List.mem_cons.mp hg with rfl | hmem
  · rw [Option.isSome_iff_ne_none] at hgn
    exact absurd (Option.isNone_iff_eq_none.mp hlocal) hgn
  · exact ⟨g, hmem, hgn⟩

/-- The binding that an assignment makes or changes belongs to the innermost function. -/
theorem confined_bind (ht : t.Leveled) (hback : Scope.Backed t.allFrames) (isMutable : Bool)
    (hbound : (plan s name ty).resolution ≠ .fresh → t.BindsWithin t.reach name) :
    let u := (plan s name ty).bind t isMutable
    Scope.Confined t.reach t u ∧ Scope.Backed u.allFrames ∧ u.BindsWithin t.reach name := by
  intro u
  have hreach := t.reach_pos
  rcases hres : (plan s name ty).resolution with _ | _ | ident
  · have hu : u = t.declareAs name (plan s name ty).ident
        { ty := (plan s name ty).ty, slot := ⟨(plan s name ty).ident, .declared isMutable⟩,
          isMutable } := bind_of_fresh hres
    rw [hu]
    have hdeclare := Scope.confined_declareAs ht name (plan s name ty).ident
      { ty := (plan s name ty).ty, slot := ⟨(plan s name ty).ident, .declared isMutable⟩,
        isMutable }
    exact ⟨hdeclare.mono hreach, hdeclare.backed (Scope.shadows_declareAs ..) hback,
      (Scope.bindsWithin_declareAs ..).mono hreach⟩
  · have hname := hbound (by rw [hres]; exact Resolution.noConfusion)
    have hu : Scope.Confined t.reach t u ∧ u.shadows = t.shadows := by
      rw [show u = _ from bind_of_reuse hres]
      exact ⟨Scope.confined_modifyBinding _ hname, Scope.shadows_modifyBinding ..⟩
    exact ⟨hu.1, hu.1.backed hu.2 hback, hu.1.bindsWithin hname⟩
  · have hname := hbound (by rw [hres]; exact Resolution.noConfusion)
    let declared := t.declareAs name ident
      { ty := (plan s name ty).ty, slot := ⟨ident, .declared isMutable⟩, isMutable }
    have hdeclare : Scope.Confined 1 t declared := Scope.confined_declareAs ht ..
    have hback' : Scope.Backed declared.allFrames :=
      hdeclare.backed (Scope.shadows_declareAs ..) hback
    have hname' : declared.BindsWithin t.reach name := hdeclare.bindsWithin hname
    have hu : u = if (t.lookupLocal name).isNone && declared.inBlock then
        declared.recordShadow name (plan s name ty).ty else declared := bind_of_shadow hres
    rw [hu]
    split
    · rename_i hshadow
      obtain ⟨hlocal, hblock⟩ := Bool.and_eq_true_iff.mp hshadow
      have hrecord : Scope.Confined 1 declared
          (declared.recordShadow name (plan s name ty).ty) :=
        Scope.confined_recordShadow ..
      refine ⟨(hdeclare.trans hrecord).mono hreach, ?_, hrecord.bindsWithin hname'⟩
      refine Scope.backed_recordShadow _ hback' (fun f rest hframes hf => ?_) hblock
      obtain ⟨f₀, hold, rfl⟩ := Scope.exists_allFrames_of_onInnermost hframes
      exact exists_outside_block hname hlocal hold hf
    · exact ⟨hdeclare.mono hreach, hback', hname'⟩

/-- **Assignments stay inside the innermost function**, if what was bound there when they were
planned still is. -/
theorem confined_commit (ht : t.Leveled) (hback : Scope.Backed t.allFrames) (isMutable : Bool)
    (source : Option String)
    (hbound : (plan s name ty).resolution ≠ .fresh → t.BindsWithin t.reach name) :
    let u := (plan s name ty).commit t isMutable source
    Scope.Confined t.reach t u ∧ Scope.Backed u.allFrames := by
  intro u
  obtain ⟨hbind, hback', hname⟩ := confined_bind ht hback isMutable hbound
  have halias : Scope.Confined t.reach ((plan s name ty).bind t isMutable) u ∧
      u.shadows = ((plan s name ty).bind t isMutable).shadows := by
    obtain ⟨link, hu⟩ := (plan s name ty).commit_eq t isMutable source
    rw [show u = _ from hu]
    exact ⟨Scope.confined_modifyBinding _ hname, Scope.shadows_modifyBinding ..⟩
  exact ⟨hbind.trans halias.1, halias.1.backed halias.2 hback'⟩

end Assignment

end ClosureConversion
