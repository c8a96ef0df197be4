import ClosureConversion.Scope.Fresh

/-! # Fresh identifiers and what is claimed of them -/

set_option autoImplicit false

namespace ClosureConversion

/-- A number can be read back from its digits. -/
theorem toString_injective {m n : Nat} (h : toString m = toString n) : m = n := by
  rw [Nat.toString_eq_ofList_toDigits, Nat.toString_eq_ofList_toDigits, String.ofList_inj] at h
  have hread := congrArg (Nat.ofDigitChars 10 · 0) h
  rwa [Nat.ofDigitChars_ten_toDigits, Nat.ofDigitChars_ten_toDigits] at hread

namespace Scope

/-- No spelling is tried twice. -/
theorem candidate_injective {base : String} {m n : Nat} (h : candidate base m = candidate base n) :
    m = n := by
  have hlonger : ∀ k, candidate base 0 ≠ candidate base (k + 1) := by
    intro k heq
    have hlength := congrArg String.length heq
    simp only [candidate, String.length_append, toString] at hlength
    have hsuffix : "__".length = 2 := rfl
    omega
  cases m with
  | zero =>
    cases n with
    | zero => rfl
    | succ n => exact absurd h (hlonger n)
  | succ m =>
    cases n with
    | zero => exact absurd h.symm (hlonger m)
    | succ n =>
      exact toString_injective ((String.append_right_inj _).mp h)

theorem firstFree_eq_candidate (base : String) (taken : List String) (n : Nat) :
    ∃ k, n ≤ k ∧ firstFree base taken n = candidate base k := by
  fun_induction firstFree base taken n with
  | case1 taken n _ ih =>
    obtain ⟨k, hk, heq⟩ := ih
    exact ⟨k, by omega, heq⟩
  | case2 taken n _ => exact ⟨n, Nat.le_refl n, rfl⟩

theorem firstFree_not_mem (base : String) (taken : List String) (n : Nat) :
    firstFree base taken n ∉ taken := by
  fun_induction firstFree base taken n with
  | case1 taken n _ ih =>
    intro hmem
    obtain ⟨k, hk, heq⟩ :=
      firstFree_eq_candidate base (without taken (candidate base n)) (n + 1)
    have hne : firstFree base (without taken (candidate base n)) (n + 1) ≠ candidate base n := by
      intro hsame
      have := candidate_injective (heq.symm.trans hsame)
      omega
    exact ih (List.mem_filter.mpr ⟨hmem, decide_eq_true hne⟩)
  | case2 taken n h => exact h

/-- All spellings before the one that is found are taken. -/
theorem candidate_mem_of_firstFree {base : String} {taken : List String} {n k m : Nat}
    (h : firstFree base taken n = candidate base k) (hn : n ≤ m) (hm : m < k) :
    candidate base m ∈ taken := by
  fun_induction firstFree base taken n with
  | case1 taken n htaken ih =>
    rcases Nat.eq_or_lt_of_le hn with rfl | hlater
    · exact htaken
    · exact (List.mem_filter.mp (ih h hlater)).1
  | case2 taken n _ =>
    have := candidate_injective h
    omega

/-- **A fresh identifier is not taken.** -/
theorem freshIdent_not_mem (s : Scope) (base : String) : s.freshIdent base ∉ s.taken :=
  firstFree_not_mem base s.taken 0

/-- Between the two scopes these identifiers were claimed for the module. -/
structure Claimed (s t : Scope) (names : List String) : Prop where
  grows : s.base.idents ⊆ t.base.idents
  nodup : names.Nodup
  fresh : ∀ n ∈ names, n ∉ s.base.idents
  reserved : ∀ n ∈ names, n ∈ t.base.idents

variable {s t u : Scope} {names more : List String}

theorem Claimed.nil (h : s.base.idents ⊆ t.base.idents) : s.Claimed t [] :=
  ⟨h, .nil, fun _ hn => absurd hn List.not_mem_nil, fun _ hn => absurd hn List.not_mem_nil⟩

/-- **Claims made one after the other.** What is claimed later differs from what was claimed
before, since that is reserved by then. -/
theorem Claimed.append (h : s.Claimed t names) (h' : t.Claimed u more) :
    s.Claimed u (names ++ more) := by
  refine ⟨List.Subset.trans h.grows h'.grows, ?_, fun n hn => ?_, fun n hn => ?_⟩
  · refine List.nodup_append.mpr ⟨h.nodup, h'.nodup, fun a ha b hb heq => ?_⟩
    exact h'.fresh b hb (heq ▸ h.reserved a ha)
  · rcases List.mem_append.mp hn with hfirst | hlater
    · exact h.fresh n hfirst
    · exact fun hmem => h'.fresh n hlater (h.grows hmem)
  · rcases List.mem_append.mp hn with hfirst | hlater
    · exact h'.grows (h.reserved n hfirst)
    · exact h'.reserved n hlater

theorem Claimed.perm (h : s.Claimed t names) (hperm : names.Perm more) : s.Claimed t more :=
  ⟨h.grows, hperm.nodup h.nodup, fun n hn => h.fresh n (hperm.mem_iff.mpr hn),
    fun n hn => h.reserved n (hperm.mem_iff.mpr hn)⟩

theorem claimed_claimModuleIdent (s : Scope) (base : String) :
    s.Claimed (s.claimModuleIdent base).2 [(s.claimModuleIdent base).1] := by
  have hreserve : (s.claimModuleIdent base).2.base.idents =
      pushNew s.base.idents (s.freshIdent base) := rfl
  refine ⟨fun n hn => ?_, List.pairwise_singleton _ _, fun n hn => ?_, fun n hn => ?_⟩
  · rw [hreserve]
    exact mem_pushNew.mpr (.inl hn)
  · obtain rfl := List.mem_singleton.mp hn
    intro hmem
    have htaken : s.freshIdent base ∈ s.taken := by
      simp only [taken, Frame.taken, List.mem_append]
      exact .inl (.inl (.inl (.inl hmem)))
    exact freshIdent_not_mem s base htaken
  · obtain rfl := List.mem_singleton.mp hn
    rw [hreserve]
    exact mem_pushNew.mpr (.inr rfl)

end Scope

end ClosureConversion
