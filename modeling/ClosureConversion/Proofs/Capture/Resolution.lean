import ClosureConversion.Capture.Resolve

/-! # What resolution captures -/

set_option autoImplicit false

namespace ClosureConversion

/-- The names that a nested function takes from around it, if they are bound there. -/
structure Function.Frees (f : Function) (n : String) : Prop where
  candidate : n ∈ (Usage.ofFunction f).candidates
  formal : f.hasFormal n = false
  own : ((Usage.ofFunction f).selfRecursive && n == f.name) = false
  global : (Usage.ofFunction f).isGlobal n = false
  assigned : (Usage.ofFunction f).isAssigned n = false

namespace Scope

/-- Some frame above the module's binds the name. -/
def BoundInFrames (s : Scope) (n : String) : Prop := ∃ f ∈ s.frames, (f.get? n).isSome

/-- Every frame of a function binds the formals of the function. -/
def FormalsBound (s : Scope) : Prop := ∀ f ∈ s.frames, ∀ n ∈ f.formals, (f.get? n).isSome

variable {s : Scope} {n : String}

theorem lookup_isSome_iff :
    (s.lookup n).isSome ↔ s.BoundInFrames n ∨ (s.base.get? n).isSome := by
  unfold lookup allFrames BoundInFrames
  rw [List.findSome?_isSome_iff]
  constructor
  · rintro ⟨f, hf, hget⟩
    rcases List.mem_append.mp hf with hframe | hbase
    · exact .inl ⟨f, hframe, hget⟩
    · rw [List.mem_singleton.mp hbase] at hget
      exact .inr hget
  · rintro (⟨f, hf, hget⟩ | hget)
    · exact ⟨f, List.mem_append_left _ hf, hget⟩
    · exact ⟨s.base, List.mem_append_right _ (List.mem_singleton.mpr rfl), hget⟩

theorem isGlobal_iff : s.isGlobal n ↔ ¬ s.BoundInFrames n ∧ (s.base.get? n).isSome := by
  unfold isGlobal BoundInFrames
  rw [Bool.and_eq_true, List.all_eq_true]
  refine and_congr_left fun _ => ?_
  constructor
  · rintro h ⟨f, hf, hget⟩
    have hnone := h f hf
    rw [Option.isNone_iff_eq_none] at hnone
    rw [hnone] at hget
    cases hget
  · intro h f hf
    rw [Option.isNone_iff_eq_none]
    cases hget : f.get? n with
    | none => rfl
    | some b => exact absurd ⟨f, hf, by rw [hget]; rfl⟩ h

theorem boundInFrames_of_isEnclosingFormal (hs : s.FormalsBound)
    (h : s.isEnclosingFormal n = true) : s.BoundInFrames n := by
  obtain ⟨f, hf, hformal⟩ := List.any_eq_true.mp h
  exact ⟨f, hf, hs f hf n (List.mem_of_elem_eq_true hformal)⟩

end Scope

namespace CaptureSet

theorem mem_insert {s : CaptureSet} {c d : Capture} :
    c ∈ (s.insert d).toList ↔ c ∈ s.toList ∨ c = d ∧ ∀ x ∈ s.toList, x.name ≠ d.name := by
  have hcontains : s.contains d.name = true ↔ ∃ x ∈ s.toList, x.name = d.name := by
    simp [contains]
  unfold insert
  split
  · rename_i h
    obtain ⟨x, hx, hname⟩ := hcontains.mp h
    refine ⟨.inl, fun hc => hc.elim id fun ⟨_, hnone⟩ => ?_⟩
    exact absurd hname (hnone x hx)
  · rename_i h
    have hnone : ∀ x ∈ s.toList, x.name ≠ d.name := fun x hx hname =>
      h (hcontains.mpr ⟨x, hx, hname⟩)
    rw [List.mem_append, List.mem_singleton]
    exact or_congr_right ⟨fun hc => ⟨hc, hnone⟩, And.left⟩

end CaptureSet

namespace Capture

variable {f : Function} {u : Usage} {s : Scope} {qualname n : String} {r : Resolved}

/-- A capture holds the variable that the name stands for at this point. -/
theorem of_verdict {c : Capture} (h : verdict f u s n = .captured c) :
    c.name = n ∧ c.source = s.ident n := by
  unfold verdict at h
  dsimp only at h
  repeat' split at h
  all_goals cases h <;> exact ⟨rfl, rfl⟩

/-- What is captured does not belong to the function. -/
theorem unowned_of_verdict {c : Capture} (h : verdict f u s n = .captured c) :
    f.hasFormal n = false ∧ (u.selfRecursive && n == f.name) = false ∧ u.isGlobal n = false ∧
      u.isAssigned n = false := by
  unfold verdict at h
  split at h
  · cases h
  rename_i hformal
  split at h
  · cases h
  rename_i hown
  split at h
  · cases h
  rename_i hglobal
  split at h
  · cases h
  rename_i hassigned
  rw [Bool.not_eq_true] at hformal hown hglobal hassigned
  exact ⟨hformal, hown, hglobal, hassigned⟩

/-- What the body writes through is held by reference. -/
theorem mode_of_verdict {c : Capture} (h : verdict f u s n = .captured c)
    (hwrites : u.writesThrough n = true) : c.mode = .byReference := by
  obtain ⟨hformal, hown, hglobal, hassigned⟩ := unowned_of_verdict h
  simp only [verdict, hformal, hown, hglobal, hassigned, hwrites, Bool.false_eq_true, if_false,
    if_true] at h
  repeat' split at h
  all_goals cases h <;> rfl

/-- Adding a name adds what its verdict says. -/
theorem mem_add {r' : Resolved}
    (hr : ∀ c ∈ r.captures.toList, verdict f u s c.name = .captured c)
    (h : r.add f qualname n (verdict f u s n) = .ok r') {c : Capture} :
    c ∈ r'.captures.toList ↔
      c ∈ r.captures.toList ∨ c.name = n ∧ verdict f u s c.name = .captured c := by
  have hkept : (∀ d, verdict f u s n ≠ .captured d) → r'.captures = r.captures →
      (c ∈ r'.captures.toList ↔
        c ∈ r.captures.toList ∨ c.name = n ∧ verdict f u s c.name = .captured c) := by
    intro hno heq
    rw [heq]
    refine ⟨.inl, fun hc => hc.elim id ?_⟩
    rintro ⟨rfl, hcaptured⟩
    exact absurd hcaptured (hno c)
  cases hv : verdict f u s n with
  | own | deferred | free =>
    rw [hv] at h
    cases h
    exact hkept (by rw [hv]; exact fun _ => Verdict.noConfusion) rfl
  | captured d =>
    have hname := (of_verdict hv).1
    rw [hv, Resolved.add] at h
    split at h
    · cases h
    · cases h
      rw [CaptureSet.mem_insert]
      constructor
      · rintro (hc | ⟨rfl, -⟩)
        · exact .inl hc
        · exact .inr ⟨hname, by rw [hname]; exact hv⟩
      · rintro (hc | ⟨rfl, hcaptured⟩)
        · exact .inl hc
        · -- a capture of this name that is there already is this one
          obtain rfl : d = c := by
            rw [hv] at hcaptured
            exact Verdict.captured.inj hcaptured
          by_cases hmem : d ∈ r.captures.toList
          · exact .inl hmem
          · refine .inr ⟨rfl, fun x hx hxname => hmem ?_⟩
            have hx' := hr x hx
            rw [hxname, hv] at hx'
            rwa [Verdict.captured.inj hx']

theorem mem_foldlM_add {names : List String} {r' : Resolved}
    (hr : ∀ c ∈ r.captures.toList, verdict f u s c.name = .captured c)
    (h : names.foldlM (fun r name => r.add f qualname name (verdict f u s name)) r = .ok r')
    {c : Capture} :
    c ∈ r'.captures.toList ↔
      c ∈ r.captures.toList ∨ c.name ∈ names ∧ verdict f u s c.name = .captured c := by
  induction names generalizing r with
  | nil =>
    cases h
    exact ⟨.inl, fun hc => hc.elim id fun ⟨hnone, _⟩ => absurd hnone List.not_mem_nil⟩
  | cons n rest ih =>
    rw [List.foldlM_cons] at h
    cases hadd : r.add f qualname n (verdict f u s n) with
    | error e =>
      rw [hadd] at h
      cases h
    | ok r₁ =>
      rw [hadd] at h
      have hr₁ : ∀ d ∈ r₁.captures.toList, verdict f u s d.name = .captured d := fun d hd =>
        ((mem_add hr hadd).mp hd).elim (hr d) And.right
      rw [ih hr₁ h, mem_add hr hadd, List.mem_cons, or_assoc, ← or_and_right]

/-- **The captures are the candidates that are to be captured.** -/
theorem mem_captures_iff (h : resolve f u s qualname = .ok r) {c : Capture} :
    c ∈ r.captures.toList ↔ c.name ∈ u.candidates ∧ verdict f u s c.name = .captured c := by
  rw [mem_foldlM_add (fun c hc => absurd hc List.not_mem_nil) h]
  exact or_iff_right List.not_mem_nil

theorem source_of_mem_captures (h : resolve f u s qualname = .ok r) {c : Capture}
    (hc : c ∈ r.captures.toList) : c.source = s.ident c.name :=
  (of_verdict ((mem_captures_iff h).mp hc).2).2

/-- A name that does not belong to the function is captured if some frame above the module's
binds it. -/
theorem exists_captured_of_free (hs : s.FormalsBound) (hformal : f.hasFormal n = false)
    (hown : (u.selfRecursive && n == f.name) = false) (hglobal : u.isGlobal n = false)
    (hassigned : u.isAssigned n = false) :
    (∃ c, verdict f u s n = .captured c) ↔ s.BoundInFrames n := by
  simp only [verdict, hformal, hown, hglobal, hassigned, Bool.false_eq_true, if_false]
  cases hlookup : s.lookup n with
  | some b =>
    have hsome : s.BoundInFrames n ∨ (s.base.get? n).isSome :=
      Scope.lookup_isSome_iff.mp (by rw [hlookup]; rfl)
    by_cases hbound : s.BoundInFrames n
    · have hlocal : ¬ s.isGlobal n = true := fun h => (Scope.isGlobal_iff.mp h).1 hbound
      simp [hlocal, hbound]
    · have hmodule : s.isGlobal n = true :=
        Scope.isGlobal_iff.mpr ⟨hbound, hsome.resolve_left hbound⟩
      simp [hmodule, hbound]
  | none =>
    have hbound : ¬ s.BoundInFrames n := by
      intro h
      have hsome := Scope.lookup_isSome_iff.mpr (.inl h)
      rw [hlookup] at hsome
      cases hsome
    have hformals : ¬ s.isEnclosingFormal n = true := fun h =>
      hbound (Scope.boundInFrames_of_isEnclosingFormal hs h)
    simp [hformals, hbound]

theorem exists_captured_iff (hs : s.FormalsBound) :
    (∃ c, verdict f u s n = .captured c) ↔
      f.hasFormal n = false ∧ (u.selfRecursive && n == f.name) = false ∧ u.isGlobal n = false ∧
        u.isAssigned n = false ∧ s.BoundInFrames n := by
  constructor
  · rintro ⟨c, hc⟩
    obtain ⟨hformal, hown, hglobal, hassigned⟩ := unowned_of_verdict hc
    exact ⟨hformal, hown, hglobal, hassigned,
      (exists_captured_of_free hs hformal hown hglobal hassigned).mp ⟨c, hc⟩⟩
  · rintro ⟨hformal, hown, hglobal, hassigned, hbound⟩
    exact (exists_captured_of_free hs hformal hown hglobal hassigned).mpr hbound

/-- **A closure captures a name exactly if the name is free in its function and bound in a function
around it.** -/
theorem captures_name_iff (hs : s.FormalsBound)
    (h : resolve f (Usage.ofFunction f) s qualname = .ok r) :
    (∃ c ∈ r.captures.toList, c.name = n) ↔ f.Frees n ∧ s.BoundInFrames n := by
  constructor
  · rintro ⟨c, hc, rfl⟩
    obtain ⟨hcandidate, hcaptured⟩ := (mem_captures_iff h).mp hc
    obtain ⟨hformal, hown, hglobal, hassigned, hbound⟩ := (exists_captured_iff hs).mp ⟨c, hcaptured⟩
    exact ⟨⟨hcandidate, hformal, hown, hglobal, hassigned⟩, hbound⟩
  · rintro ⟨hfree, hbound⟩
    obtain ⟨c, hc⟩ := (exists_captured_iff hs).mpr
      ⟨hfree.formal, hfree.own, hfree.global, hfree.assigned, hbound⟩
    have hname := (of_verdict hc).1
    subst hname
    exact ⟨c, (mem_captures_iff h).mpr ⟨hfree.candidate, hc⟩, rfl⟩

end Capture

end ClosureConversion
