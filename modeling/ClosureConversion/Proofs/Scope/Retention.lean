import ClosureConversion.Proofs.Scope.Columns
import ClosureConversion.Proofs.Scope.Confinement

/-! # Bindings that are retained -/

set_option autoImplicit false

namespace ClosureConversion

/-! ## Bindings and frames -/

/-- A binding after changes that keep what it stands for. A type that was not known is found, and
the binding becomes mutable, only where the name is stored to. -/
structure Binding.Settles (stores : Prop) (b b' : Binding) : Prop where
  kind : b'.kind = b.kind
  slot : b'.slot = b.slot
  ty : b'.ty = b.ty ∨ stores ∧ b.ty = .unknown
  isMutable : b'.isMutable = b.isMutable ∨ stores ∧ b'.isMutable = true

namespace Binding.Settles

variable {stores : Prop} {b b' b'' : Binding}

theorem refl (b : Binding) : b.Settles stores b := ⟨rfl, rfl, .inl rfl, .inl rfl⟩

theorem trans (h : b.Settles stores b') (h' : b'.Settles stores b'') : b.Settles stores b'' := by
  refine ⟨h'.kind.trans h.kind, h'.slot.trans h.slot, ?_, ?_⟩
  · rcases h.ty with hty | hstores
    · rw [← hty]
      exact h'.ty
    · exact .inr hstores
  · rcases h'.isMutable with hsame | hstores
    · rw [hsame]
      exact h.isMutable
    · exact .inr hstores

end Binding.Settles

/-- The frame binds what it bound, and every pinned binding of it is an old one, settled. -/
structure Frame.Retains (stores : String → Prop) (f g : Frame) : Prop extends f.Grows g where
  pinned : ∀ n b', g.get? n = some b' → b'.kind.isPinned = true →
    ∃ b, f.get? n = some b ∧ b.Settles (stores n) b'

namespace Frame

variable {stores : String → Prop} {f g h : Frame}

theorem Retains.refl (f : Frame) : f.Retains stores f := ⟨.refl f, fun _ b hb _ => ⟨b, hb, .refl b⟩⟩

theorem Retains.trans (hfg : f.Retains stores g) (hgh : g.Retains stores h) :
    f.Retains stores h := by
  refine ⟨hfg.toGrows.trans hgh.toGrows, fun n b'' hb'' hpinned => ?_⟩
  obtain ⟨b', hb', hsettles'⟩ := hgh.pinned n b'' hb'' hpinned
  obtain ⟨b, hb, hsettles⟩ := hfg.pinned n b' hb' (hsettles'.kind ▸ hpinned)
  exact ⟨b, hb, hsettles.trans hsettles'⟩

theorem retains_of_bindings (hgrows : f.Grows g) (hbindings : g.bindings = f.bindings) :
    f.Retains stores g := by
  refine ⟨hgrows, fun n b hb _ => ⟨b, ?_, .refl b⟩⟩
  rwa [Frame.get?, hbindings] at hb

theorem Reserves.retains (hfg : f.Reserves g) : f.Retains stores g :=
  retains_of_bindings hfg.grows hfg.bindings

/-- A declaration that is not pinned. -/
theorem retains_bind (f : Frame) (name ident : String) {b : Binding}
    (hb : b.kind.isPinned = false) : f.Retains stores (f.bind name ident b) := by
  refine ⟨f.grows_bind name ident b, fun n b' hb' hpinned => ?_⟩
  change (f.bindings.insert name b).get? n = some b' at hb'
  rw [NameMap.get?_insert] at hb'
  split at hb'
  · obtain rfl := Option.some.inj hb'
    rw [hb] at hpinned
    cases hpinned
  · exact ⟨b', hb', .refl b'⟩

/-- A change of one binding, which settles it if it is pinned. -/
theorem retains_modify {name : String} {change : Binding → Binding}
    (hkind : ∀ b, (change b).kind = b.kind)
    (hchange : ∀ b, f.get? name = some b → b.kind.isPinned = true →
      b.Settles (stores name) (change b)) :
    f.Retains stores { f with bindings := f.bindings.modify name change } := by
  refine ⟨f.grows_modify name change, fun n b' hb' hpinned => ?_⟩
  by_cases hn : name = n
  · subst hn
    rw [Scope.get?_modify] at hb'
    obtain ⟨b, hb, rfl⟩ := Option.map_eq_some_iff.mp hb'
    rw [hkind] at hpinned
    exact ⟨b, hb, hchange b hb hpinned⟩
  · rw [Scope.get?_modify_of_ne hn] at hb'
    exact ⟨b', hb', .refl b'⟩

end Frame

namespace Scope

variable {s t u : Scope} {stores : String → Prop} {n name : String}

/-- Frame by frame the second scope retains what the first one has. -/
def Retains (stores : String → Prop) (s t : Scope) : Prop :=
  List.Forall₂ (Frame.Retains stores) s.allFrames t.allFrames

theorem forall₂_retains_refl (frames : List Frame) :
    List.Forall₂ (Frame.Retains stores) frames frames :=
  List.forall₂_same.mpr fun f _ => .refl f

theorem Retains.refl (s : Scope) : Retains stores s s := forall₂_retains_refl _

theorem Retains.trans (h : Retains stores s t) (h' : Retains stores t u) : Retains stores s u :=
  forall₂_trans (R := Frame.Retains stores) (fun _ _ _ => .trans) h h'

theorem Retains.frames (h : Retains stores s t) :
    List.Forall₂ (Frame.Retains stores) s.frames t.frames := by
  have hlength : s.frames.length = t.frames.length := by
    have hall := h.length_eq
    rw [length_allFrames, length_allFrames] at hall
    exact Nat.succ.inj hall
  have htake := List.forall₂_take s.frames.length h
  nth_rewrite 2 [hlength] at htake
  rwa [allFrames, allFrames, List.take_left, List.take_left] at htake

/-- The frames of the innermost function correspond to each other. -/
theorem Retains.inner (h : Retains stores s t) :
    List.Forall₂ (Frame.Retains stores) (innerFrames s.allFrames) (innerFrames t.allFrames) := by
  have hgrows : List.Forall₂ Frame.Grows s.allFrames t.allFrames :=
    List.Forall₂.imp (fun _ _ hfg => hfg.toGrows) h
  have hreach := (grows_innerFrames hgrows).length_eq
  rw [innerFrames_eq_take s.allFrames, innerFrames_eq_take t.allFrames, ← hreach]
  exact List.forall₂_take _ h

/-! ## Operations -/

theorem Reserves.retains (h : s.Reserves t) : Retains stores s t :=
  List.rel_append (h.frames.imp fun _ _ => Frame.Reserves.retains) (.cons h.base.retains .nil)

theorem Confined.retains_of_zero (h : Confined 0 s t) : Retains stores s t := by
  have hframes : t.frames = s.frames := h.frames
  unfold Retains allFrames
  rw [hframes]
  exact List.rel_append (forall₂_retains_refl _)
    (.cons (h.base (Nat.zero_le _)).retains .nil)

theorem retains_onInnermost {f : Frame → Frame} (hf : ∀ g : Frame, g.Retains stores (f g))
    (s : Scope) : Retains stores s (s.onInnermost f) := by
  unfold Retains
  rw [allFrames_onInnermost]
  cases s.allFrames with
  | nil => exact .nil
  | cons g rest => exact .cons (hf g) (forall₂_retains_refl rest)

theorem retains_declareAs (s : Scope) (name ident : String) {b : Binding}
    (hb : b.kind.isPinned = false) : Retains stores s (s.declareAs name ident b) :=
  retains_onInnermost (fun g => g.retains_bind name ident hb) s

theorem retains_recordShadow (s : Scope) (name : String) (ty : Ty) :
    Retains stores s (s.recordShadow name ty) :=
  retains_onInnermost (f := fun g => { g with shadowed := g.shadowed ++ [(name, ty)] })
    (fun g => Frame.retains_of_bindings ⟨rfl, fun _ h => h, List.Subset.refl g.idents⟩ rfl) s

theorem retains_modifyIn {change : Binding → Binding} {frames frames' : List Frame}
    (hkind : ∀ b, (change b).kind = b.kind)
    (hchange : ∀ b, frames.findSome? (·.get? name) = some b → b.kind.isPinned = true →
      b.Settles (stores name) (change b))
    (h : modifyIn name change frames = some frames') :
    List.Forall₂ (Frame.Retains stores) frames frames' := by
  induction frames generalizing frames' with
  | nil => cases h
  | cons f rest ih =>
    rw [modifyIn] at h
    simp only [List.findSome?_cons] at hchange
    split at h
    · cases h
      refine .cons (Frame.retains_modify hkind fun b hb => hchange b ?_) (forall₂_retains_refl rest)
      rw [hb]
    · rename_i hnone
      have hb : f.get? name = none := by simpa using hnone
      obtain ⟨rest', hrest, rfl⟩ := Option.map_eq_some_iff.mp h
      rw [hb] at hchange
      exact .cons (.refl f) (ih hchange hrest)

/-- The binding that is changed is the one that the name has. -/
theorem retains_modifyBinding {change : Binding → Binding} (hkind : ∀ b, (change b).kind = b.kind)
    (hchange : ∀ b, s.lookup name = some b → b.kind.isPinned = true →
      b.Settles (stores name) (change b)) : Retains stores s (s.modifyBinding name change) := by
  unfold Retains modifyBinding
  unfold lookup allFrames at hchange
  split
  · rename_i frames' hmod
    refine List.rel_append (retains_modifyIn hkind (fun b hb => hchange b ?_) hmod)
      (.cons (.refl _) .nil)
    rw [List.findSome?_append, hb]
    rfl
  · rename_i hmod
    refine List.rel_append (forall₂_retains_refl _)
      (.cons (Frame.retains_modify hkind fun b hb => hchange b ?_) .nil)
    rw [List.findSome?_append, findSome?_of_modifyIn_eq_none hmod, Option.none_or,
      List.findSome?_singleton, hb]

theorem retains_modifyAlias (s : Scope) (name : String) (link : Option String) :
    Retains stores s (s.modifyBinding name ({ · with aliasOf := link })) :=
  retains_modifyBinding (fun _ => rfl) fun _ _ _ => ⟨rfl, rfl, .inl rfl, .inl rfl⟩

/-! ## Names that can be declared anew -/

/-- The innermost function binds the name, and not as something pinned. -/
def Unpinned (frames : List Frame) (n : String) : Prop :=
  ∃ b, (innerFrames frames).findSome? (·.get? n) = some b ∧ b.kind.isPinned = false

/-- In the frames of the innermost function: what a block declares anew is not pinned around it. -/
def Loose : List Frame → Prop
  | [] => True
  | f :: rest => f.isFunction = true ∨ (∀ e ∈ f.shadowed, Unpinned rest e.1) ∧ Loose rest

theorem Unpinned.retains {fs gs : List Frame} (h : Unpinned fs n)
    (hretains : List.Forall₂ (Frame.Retains stores) fs gs) : Unpinned gs n := by
  induction hretains with
  | nil => exact h
  | @cons f g fs gs hhead _ ih =>
    obtain ⟨b, hb, hunpinned⟩ := h
    unfold Unpinned
    rw [innerFrames] at hb ⊢
    rw [hhead.isFunction]
    cases hg : g.get? n with
    | some b' =>
      have hb' : b'.kind.isPinned = false := by
        rw [← Bool.not_eq_true]
        intro hpinned
        obtain ⟨b₀, hb₀, hsettles⟩ := hhead.pinned n b' hg hpinned
        obtain rfl : b₀ = b := by
          split at hb <;> simpa [hb₀] using hb
        rw [hsettles.kind, hunpinned] at hpinned
        cases hpinned
      refine ⟨b', ?_, hb'⟩
      split <;> simp [hg]
    | none =>
      have hf : f.get? n = none := by
        rw [← Option.not_isSome_iff_eq_none]
        intro hsome
        have hgrown := hhead.binds n hsome
        rw [hg] at hgrown
        cases hgrown
      split at hb
      · simp [hf] at hb
      · rename_i hblock
        rw [if_neg hblock, List.findSome?_cons, hg]
        exact ih ⟨b, by simpa [hf] using hb, hunpinned⟩

theorem Loose.backed {frames : List Frame} (h : Loose frames) : Backed frames := by
  induction frames with
  | nil => exact trivial
  | cons f rest ih =>
    refine h.imp_right fun ⟨hshadowed, hrest⟩ => ⟨fun e he => ?_, ih hrest⟩
    obtain ⟨b, hb, -⟩ := hshadowed e he
    rw [← List.findSome?_isSome_iff, hb]
    rfl

theorem Loose.retains {fs gs : List Frame} (h : Loose fs)
    (hretains : List.Forall₂ (Frame.Retains stores) fs gs)
    (hshadowed : gs.map Frame.shadowed = fs.map Frame.shadowed) : Loose gs := by
  induction hretains with
  | nil => exact trivial
  | cons hhead htail ih =>
    obtain ⟨hsame, hrest⟩ := List.cons.inj hshadowed
    rcases h with hfun | ⟨hloose, hbelow⟩
    · exact .inl (hhead.isFunction.trans hfun)
    · refine .inr ⟨fun e he => ?_, ih hbelow hrest⟩
      rw [hsame] at he
      exact (hloose e he).retains htail

theorem loose_pushBlock (h : Loose s.allFrames) : Loose s.pushBlock.allFrames :=
  .inr ⟨fun _ he => absurd he List.not_mem_nil, h⟩

/-- Types are widened only of what is not pinned. -/
theorem retains_foldl_widen (stores : String → Prop) {shadowed : List (String × Ty)}
    (h : ∀ e ∈ shadowed, Unpinned s.allFrames e.1) :
    Retains stores s (shadowed.foldl (fun s e => s.widen e.1 e.2) s) ∧
      (shadowed.foldl (fun s e => s.widen e.1 e.2) s).shadows = s.shadows := by
  induction shadowed generalizing s with
  | nil => exact ⟨.refl s, rfl⟩
  | cons e rest ih =>
    rw [List.forall_mem_cons] at h
    obtain ⟨⟨b, hb, hunpinned⟩, hothers⟩ := h
    have hlookup : s.lookup e.1 = some b := lookup_of_lookupInFunction hb
    have hfirst : Retains stores s (s.widen e.1 e.2) := by
      unfold widen
      rw [hlookup]
      refine retains_modifyBinding (fun _ => rfl) fun b' hb' hpinned => ?_
      obtain rfl := Option.some.inj (hlookup.symm.trans hb')
      rw [hunpinned] at hpinned
      cases hpinned
    obtain ⟨hrest, hshadows⟩ := ih fun e' he' => (hothers e' he').retains hfirst
    exact ⟨hfirst.trans hrest, hshadows.trans (shadows_widen s e.1 e.2)⟩

/-- **Leaving a block** retains what lies below it. -/
theorem Retains.pop {left : Left} (h : Retains stores s.pushBlock t) (hloose : Loose t.allFrames)
    (hpop : t.pop = .ok left) : Retains stores s left.scope ∧ Loose left.scope.allFrames := by
  unfold Retains at h
  rcases hframes : t.frames with _ | ⟨f, rest⟩
  · unfold Scope.pop at hpop
    rw [hframes] at hpop
    cases hpop
  · let outer : Scope := { t with frames := rest, renames := t.renames.pop }
    have hall : t.allFrames = f :: outer.allFrames := by
      rw [allFrames, hframes]
      rfl
    rw [hall] at h hloose
    cases h with
    | cons hhead htail =>
      have hkind : f.kind = .block := hhead.kind
      obtain ⟨hshadowed, hbelow⟩ := hloose.resolve_left (by simp [Frame.isFunction, hkind])
      unfold Scope.pop at hpop
      rw [hframes] at hpop
      dsimp only at hpop
      rw [if_pos (by simp [Frame.isBlock, hkind])] at hpop
      cases hpop
      obtain ⟨hwiden, hshadows⟩ := retains_foldl_widen stores (s := outer) hshadowed
      exact ⟨Retains.trans (t := outer) htail hwiden, hbelow.retains hwiden hshadows⟩

/-- A name that is not pinned is declared anew in a block that did not bind it before. -/
theorem loose_recordShadow (ty : Ty) (h : Loose s.allFrames)
    (hname : ∀ f rest, s.allFrames = f :: rest → f.isBlock = true → Unpinned rest name)
    (hblock : s.inBlock = true) : Loose (s.recordShadow name ty).allFrames := by
  rw [recordShadow, allFrames_onInnermost]
  rcases hframes : s.allFrames with _ | ⟨f, rest⟩
  · exact trivial
  · rw [hframes] at h
    rcases h with hfun | ⟨hshadowed, hbelow⟩
    · exact .inl hfun
    · refine .inr ⟨fun e he => ?_, hbelow⟩
      rcases List.mem_append.mp he with hold | hnew
      · exact hshadowed e hold
      · rw [List.mem_singleton.mp hnew]
        exact hname f rest hframes (isBlock_head hblock hframes)

end Scope

/-! ## Assignments -/

namespace Assignment

variable {s t : Scope} {stores : String → Prop} {name : String} {ty : Ty}

/-- What is declared anew was not pinned when the assignment was planned. -/
theorem unpinned_of_shadow {ident : String} (h : (plan s name ty).resolution = .shadow ident) :
    Scope.Unpinned s.allFrames name := by
  change s.resolve name ty = .shadow ident at h
  unfold Scope.resolve at h
  split at h
  · cases h
  · rename_i b hb
    refine ⟨b, hb, ?_⟩
    cases hkind : b.kind <;> rw [hkind] at h <;> first | rfl | cases h

/-- What is not pinned, and not bound in the innermost block, is not pinned around the block. -/
theorem unpinned_outside_block (h : Scope.Unpinned t.allFrames name)
    (hlocal : (t.lookupLocal name).isNone) {f : Frame} {rest : List Frame}
    (hframes : t.allFrames = f :: rest) (hblock : f.isBlock = true) :
    Scope.Unpinned rest name := by
  have hfun := Frame.isFunction_of_isBlock hblock
  obtain ⟨b, hb, hunpinned⟩ := h
  rw [Scope.lookupLocal, hframes] at hlocal
  have hnone : f.get? name = none := Option.isNone_iff_eq_none.mp hlocal
  rw [hframes, Scope.innerFrames, hfun] at hb
  exact ⟨b, by simpa [hnone] using hb, hunpinned⟩

theorem retains_bind (isMutable : Bool) (hloose : Scope.Loose t.allFrames) (hstores : stores name)
    (hshadow : ∀ ident, (plan s name ty).resolution = .shadow ident →
      Scope.Unpinned t.allFrames name) :
    let u := (plan s name ty).bind t isMutable
    Scope.Retains stores t u ∧ Scope.Loose u.allFrames := by
  intro u
  rcases hres : (plan s name ty).resolution with _ | _ | ident
  · let b : Binding := { ty := (plan s name ty).ty
                         slot := ⟨(plan s name ty).ident, .declared isMutable⟩, isMutable }
    have hu : u = t.declareAs name (plan s name ty).ident b := bind_of_fresh hres
    have hdeclare : Scope.Retains stores t u := by
      rw [hu]
      exact Scope.retains_declareAs t name _ rfl
    refine ⟨hdeclare, hloose.retains hdeclare ?_⟩
    rw [hu]
    exact Scope.shadows_declareAs ..
  · have hu : u = t.modifyBinding name fun b =>
        { b with ty := if b.ty.isUnknown then (plan s name ty).ty else b.ty
                 isMutable := b.isMutable || isMutable } := bind_of_reuse hres
    rw [hu]
    have hmodify : Scope.Retains stores t (t.modifyBinding name fun b =>
        { b with ty := if b.ty.isUnknown then (plan s name ty).ty else b.ty
                 isMutable := b.isMutable || isMutable }) := by
      refine Scope.retains_modifyBinding (fun _ => rfl) fun b _ _ => ⟨rfl, rfl, ?_, ?_⟩
      · by_cases hunknown : b.ty.isUnknown = true
        · exact .inr ⟨hstores, Ty.isUnknown_iff.mp hunknown⟩
        · exact .inl (if_neg hunknown)
      · cases isMutable with
        | false => exact .inl (Bool.or_false _)
        | true => exact .inr ⟨hstores, Bool.or_true _⟩
    exact ⟨hmodify, hloose.retains hmodify (Scope.shadows_modifyBinding ..)⟩
  · have hname := hshadow ident hres
    let declared := t.declareAs name ident
      { ty := (plan s name ty).ty, slot := ⟨ident, .declared isMutable⟩, isMutable }
    have hdeclare : Scope.Retains stores t declared := Scope.retains_declareAs t name ident rfl
    have hloose' : Scope.Loose declared.allFrames :=
      hloose.retains hdeclare (Scope.shadows_declareAs ..)
    have hu : u = if (t.lookupLocal name).isNone && declared.inBlock then
        declared.recordShadow name (plan s name ty).ty else declared := bind_of_shadow hres
    rw [hu]
    split
    · rename_i hrecord
      obtain ⟨hlocal, hblock⟩ := Bool.and_eq_true_iff.mp hrecord
      refine ⟨hdeclare.trans (Scope.retains_recordShadow ..), ?_⟩
      refine Scope.loose_recordShadow _ hloose' (fun f rest hframes hf => ?_) hblock
      obtain ⟨f₀, hold, rfl⟩ := Scope.exists_allFrames_of_onInnermost hframes
      exact unpinned_outside_block hname hlocal hold hf
    · exact ⟨hdeclare, hloose'⟩

/-- **An assignment retains what is pinned**, and may settle what it stores to. -/
theorem retains_commit (isMutable : Bool) (source : Option String)
    (hloose : Scope.Loose t.allFrames) (hstores : stores name)
    (hshadow : ∀ ident, (plan s name ty).resolution = .shadow ident →
      Scope.Unpinned t.allFrames name) :
    let u := (plan s name ty).commit t isMutable source
    Scope.Retains stores t u ∧ Scope.Loose u.allFrames := by
  intro u
  obtain ⟨hbind, hloose'⟩ := retains_bind isMutable hloose hstores hshadow
  have halias : Scope.Retains stores ((plan s name ty).bind t isMutable) u ∧
      u.shadows = ((plan s name ty).bind t isMutable).shadows := by
    obtain ⟨link, hu⟩ := (plan s name ty).commit_eq t isMutable source
    rw [show u = _ from hu]
    exact ⟨Scope.retains_modifyAlias .., Scope.shadows_modifyBinding ..⟩
  exact ⟨hbind.trans halias.1, hloose'.retains halias.1 halias.2⟩

end Assignment

end ClosureConversion
