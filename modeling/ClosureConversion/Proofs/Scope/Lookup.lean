import ClosureConversion.Scope.Fresh

/-! # Looking up names -/

set_option autoImplicit false

namespace ClosureConversion

namespace Scope

variable {n : String}

theorem lookup_declareAs (s : Scope) (n ident : String) (b : Binding) (k : String) :
    (s.declareAs n ident b).lookup k = if n = k then some b else s.lookup k := by
  have hbind : ∀ g : Frame, (g.bind n ident b).get? k = if n = k then some b else g.get? k :=
    fun g => NameMap.get?_insert g.bindings n k b
  unfold lookup allFrames declareAs onInnermost
  cases s.frames <;> simp only [List.nil_append, List.cons_append, List.findSome?_cons, hbind] <;>
    by_cases hk : n = k <;> simp only [hk, if_true, if_false]

/-- What a name means within the function it means altogether. -/
theorem lookup_of_lookupInFunction {s : Scope} {b : Binding} (h : s.lookupInFunction n = some b) :
    s.lookup n = some b := by
  unfold lookup
  unfold lookupInFunction at h
  generalize s.allFrames = frames at h
  induction frames with
  | nil => cases h
  | cons f rest ih =>
    rw [innerFrames] at h
    rw [List.findSome?_cons]
    cases hf : f.get? n with
    | some b' => split at h <;> simpa [hf] using h
    | none =>
      split at h
      · simp [hf] at h
      · exact ih (by simpa [hf] using h)

theorem lookup_recordShadow (s : Scope) (name : String) (ty : Ty) (k : String) :
    (s.recordShadow name ty).lookup k = s.lookup k := by
  unfold lookup allFrames recordShadow onInnermost
  cases s.frames <;> rfl

theorem lookup_reserveIdent (s : Scope) (ident k : String) :
    (s.reserveIdent ident).lookup k = s.lookup k := by
  unfold lookup allFrames reserveIdent onInnermost
  cases s.frames <;> rfl

theorem get?_modify (g : Frame) (n : String) (f : Binding → Binding) :
    ({ g with bindings := g.bindings.modify n f } : Frame).get? n = (g.get? n).map f :=
  (NameMap.get?_modify g.bindings n n f).trans (if_pos rfl)

/-- The binding that is changed is the one that is found. -/
theorem findSome?_modifyIn {f : Binding → Binding} {frames frames' : List Frame}
    (h : modifyIn n f frames = some frames') :
    ∃ b, frames.findSome? (·.get? n) = some b ∧ frames'.findSome? (·.get? n) = some (f b) := by
  induction frames generalizing frames' with
  | nil => cases h
  | cons g rest ih =>
    rw [modifyIn] at h
    split at h
    · rename_i hsome
      obtain ⟨b, hb⟩ := Option.isSome_iff_exists.mp hsome
      cases h
      refine ⟨b, by rw [List.findSome?_cons, hb], ?_⟩
      rw [List.findSome?_cons, get?_modify, hb]
      rfl
    · rename_i hnone
      have hb : g.get? n = none := by simpa using hnone
      obtain ⟨rest', hrest, rfl⟩ := Option.map_eq_some_iff.mp h
      obtain ⟨b, hfound, hchanged⟩ := ih hrest
      exact ⟨b, by rw [List.findSome?_cons, hb, hfound], by rw [List.findSome?_cons, hb, hchanged]⟩

theorem findSome?_of_modifyIn_eq_none {f : Binding → Binding} {frames : List Frame}
    (h : modifyIn n f frames = none) : frames.findSome? (·.get? n) = none := by
  induction frames with
  | nil => rfl
  | cons g rest ih =>
    rw [modifyIn] at h
    split at h
    · cases h
    · rename_i hnone
      have hb : g.get? n = none := by simpa using hnone
      rw [List.findSome?_cons, hb]
      exact ih (Option.map_eq_none_iff.mp h)

theorem lookup_modifyBinding (s : Scope) (n : String) (f : Binding → Binding) :
    (s.modifyBinding n f).lookup n = (s.lookup n).map f := by
  unfold modifyBinding lookup allFrames
  split
  · rename_i frames' hmod
    obtain ⟨b, hfound, hchanged⟩ := findSome?_modifyIn hmod
    rw [List.findSome?_append, List.findSome?_append, hfound, hchanged]
    rfl
  · rename_i hmod
    rw [List.findSome?_append, List.findSome?_append, findSome?_of_modifyIn_eq_none hmod,
      Option.none_or, Option.none_or, List.findSome?_singleton, List.findSome?_singleton,
      get?_modify]

theorem get?_modify_of_ne {k : String} (h : n ≠ k) (g : Frame) (f : Binding → Binding) :
    ({ g with bindings := g.bindings.modify n f } : Frame).get? k = g.get? k :=
  (NameMap.get?_modify g.bindings n k f).trans (if_neg h)

theorem lookup_modifyBinding_of_ne {k : String} (h : n ≠ k) (s : Scope) (f : Binding → Binding) :
    (s.modifyBinding n f).lookup k = s.lookup k := by
  have hframes : ∀ {frames frames' : List Frame}, modifyIn n f frames = some frames' →
      frames'.findSome? (·.get? k) = frames.findSome? (·.get? k) := by
    intro frames
    induction frames with
    | nil => exact fun hmod => nomatch hmod
    | cons g rest ih =>
      intro frames' hmod
      rw [modifyIn] at hmod
      split at hmod
      · cases hmod
        rw [List.findSome?_cons, List.findSome?_cons, get?_modify_of_ne h]
      · obtain ⟨rest', hrest, rfl⟩ := Option.map_eq_some_iff.mp hmod
        rw [List.findSome?_cons, List.findSome?_cons, ih hrest]
  unfold modifyBinding lookup allFrames
  split
  · rename_i frames' hmod
    rw [List.findSome?_append, List.findSome?_append, hframes hmod]
  · rw [List.findSome?_append, List.findSome?_append, List.findSome?_singleton,
      List.findSome?_singleton, get?_modify_of_ne h]

end Scope

end ClosureConversion
