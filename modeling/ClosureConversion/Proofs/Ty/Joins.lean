import ClosureConversion.Proofs.Ty.Wildcards
import Mathlib.Data.List.Pairwise
import Mathlib.Data.List.Permutation

/-! # Joining types in another order -/

set_option autoImplicit false

namespace ClosureConversion

/-! ## Types up to the order of members -/

mutual

/-- The same type up to the order of the members of unions, at any depth. -/
inductive Ty.Permuted : Ty → Ty → Prop
  | refl (t : Ty) : Permuted t t
  | list {t u : Ty} (h : Permuted t u) : Permuted (.list t) (.list u)
  | set {t u : Ty} (h : Permuted t u) : Permuted (.set t) (.set u)
  | dict {k k' v v' : Ty} (hk : Permuted k k') (hv : Permuted v v') :
      Permuted (.dict k v) (.dict k' v')
  | tuple {ts us : List Ty} (h : PermutedAll ts us) : Permuted (.tuple ts) (.tuple us)
  | function {s s' : Signature} (h : PermutedCall s s') : Permuted (.function s) (.function s')
  | closure (wrapper : String) {s s' : Signature} (h : PermutedCall s s') :
      Permuted (.closure wrapper s) (.closure wrapper s')
  | union {ts us vs : List Ty} (hperm : ts.Perm us) (h : PermutedAll us vs) :
      Permuted (.union ts) (.union vs)

inductive Ty.PermutedAll : List Ty → List Ty → Prop
  | nil : PermutedAll [] []
  | cons {t u : Ty} {ts us : List Ty} (h : Permuted t u) (hs : PermutedAll ts us) :
      PermutedAll (t :: ts) (u :: us)

inductive Ty.PermutedCall : Signature → Signature → Prop
  | call {ps qs : List Ty} {r r' : Ty} (fallible : Bool) (hps : PermutedAll ps qs)
      (hr : Permuted r r') : PermutedCall ⟨ps, r, fallible⟩ ⟨qs, r', fallible⟩

end

namespace Ty

theorem PermutedAll.refl (ts : List Ty) : PermutedAll ts ts := by
  induction ts with
  | nil => exact .nil
  | cons t _ ih => exact .cons (.refl t) ih

theorem PermutedAll.length_eq {ts us : List Ty} (h : PermutedAll ts us) :
    ts.length = us.length := by
  match h with
  | .nil => rfl
  | .cons _ hs => exact congrArg (· + 1) hs.length_eq

theorem permuted_of_perm {ts us : List Ty} (h : ts.Perm us) : Permuted (.union ts) (.union us) :=
  .union h (.refl us)

/-- Another order does not change how many members there are. -/
theorem Permuted.length_members {t u : Ty} (h : Permuted t u) :
    t.members.length = u.members.length := by
  cases h with
  | union hperm h => exact hperm.length_eq.trans h.length_eq
  | _ => rfl

/-- Joining the types in any other order gives the same type. -/
def OrderFree (ts : List Ty) : Prop :=
  ∀ us : List Ty, us.Perm ts → Permuted (joinAll us) (joinAll ts)

/-! ## The join of two types -/

/-- The type is known and no union. -/
def isPlain (t : Ty) : Bool := !t.isUnknown && !t.isUnion

theorem isPlain_iff {t : Ty} : t.isPlain = true ↔ t ≠ .unknown ∧ t.isUnion = false := by
  simp [isPlain, ← isUnknown_iff]

theorem members_of_isPlain {t : Ty} (h : t.isPlain = true) : t.members = [t] := by
  cases t <;> simp_all [isPlain, members, isUnion]

@[simp] theorem join_unknown_right (t : Ty) : t.join .unknown = t := by
  cases t <;> simp [join]

@[simp] theorem join_self (t : Ty) : t.join t = t := by
  cases t <;> simp [join]

/-- `a` and `b` have the one type `c` for both, without a union of the two. -/
inductive Merges : Ty → Ty → Ty → Prop
  | intFloat : Merges .int .float .float
  | floatInt : Merges .float .int .float
  | boolInt : Merges .bool .int .int
  | intBool : Merges .int .bool .int
  | list {s t : Ty} (h : s.holds t = true) : Merges (.list s) (.list t) (.list (s.join t))
  | set {s t : Ty} (h : s.holds t = true) : Merges (.set s) (.set t) (.set (s.join t))
  | dict {k k' v v' : Ty} (hk : k.holds k' = true) (hv : v.holds v' = true) :
      Merges (.dict k v) (.dict k' v') (.dict (k.join k') (v.join v'))

theorem Merges.isPlain {a b c : Ty} (h : Merges a b c) : c.isPlain = true := by
  cases h <;> rfl

/-- **The join of two different types** is what they merge into, or their union. -/
theorem join_cases {a b : Ty} (ha : a ≠ .unknown) (hb : b ≠ .unknown) (hne : a ≠ b) :
    Merges a b (a.join b) ∨ a.join b = unite a b := by
  fun_cases join a b with
  | case1 => exact absurd rfl ha
  | case2 => exact absurd rfl hb
  | case3 => exact absurd rfl hne
  | case4 => exact .inl .intFloat
  | case5 => exact .inl .floatInt
  | case6 => exact .inl .boolInt
  | case7 => exact .inl .intBool
  | case8 s t h => exact .inl (.list h)
  | case10 s t h => exact .inl (.set h)
  | case12 k v k' v' h =>
    rw [Bool.and_eq_true] at h
    exact .inl (.dict h.1 h.2)
  | case9 | case11 | case13 | case14 => exact .inr rfl

theorem join_list {s t : Ty} (h : s.holds t = true) :
    (Ty.list s).join (.list t) = .list (s.join t) := by
  by_cases heq : s = t
  · rw [heq, join_self, join_self]
  · simp [join, heq, h]

theorem join_set {s t : Ty} (h : s.holds t = true) :
    (Ty.set s).join (.set t) = .set (s.join t) := by
  by_cases heq : s = t
  · rw [heq, join_self, join_self]
  · simp [join, heq, h]

theorem join_dict {k k' v v' : Ty} (hk : k.holds k' = true) (hv : v.holds v' = true) :
    (Ty.dict k v).join (.dict k' v') = .dict (k.join k') (v.join v') := by
  by_cases heq : k = k' ∧ v = v'
  · rw [heq.1, heq.2, join_self, join_self, join_self]
  · simp [join, heq, hk, hv]

/-! ## Unions of members -/

theorem mem_foldl_keep {t : Ty} (ts acc : List Ty) :
    t ∈ ts.foldl (fun acc t => if t ∈ acc then acc else acc ++ [t]) acc ↔ t ∈ acc ∨ t ∈ ts := by
  induction ts generalizing acc with
  | nil => simp
  | cons u us ih =>
    rw [List.foldl_cons, ih]
    split <;> grind

theorem nodup_foldl_keep (ts : List Ty) {acc : List Ty} (h : acc.Nodup) :
    (ts.foldl (fun acc t => if t ∈ acc then acc else acc ++ [t]) acc).Nodup := by
  induction ts generalizing acc with
  | nil => exact h
  | cons u us ih =>
    rw [List.foldl_cons]
    split
    · exact ih h
    · exact ih (by grind)

theorem mem_mergeMembers {as bs : List Ty} {t : Ty} :
    t ∈ mergeMembers as bs ↔ t ∈ as ∨ t ∈ bs := by
  simp [mergeMembers, mem_foldl_keep]

theorem nodup_mergeMembers (as bs : List Ty) : (mergeMembers as bs).Nodup :=
  nodup_foldl_keep _ List.nodup_nil

theorem foldl_keep_of_nodup {ts acc : List Ty} (h : (acc ++ ts).Nodup) :
    ts.foldl (fun acc t => if t ∈ acc then acc else acc ++ [t]) acc = acc ++ ts := by
  induction ts generalizing acc with
  | nil => simp
  | cons u us ih =>
    have hnot : u ∉ acc := by grind
    rw [List.foldl_cons, if_neg hnot, ih (by simpa using h), List.append_assoc]
    rfl

/-- Different members are all kept. -/
theorem mergeMembers_of_nodup {as bs : List Ty} (h : (as ++ bs).Nodup) :
    mergeMembers as bs = as ++ bs :=
  foldl_keep_of_nodup h

/-- Two different members make a union. -/
theorem unite_eq_union {a b m n : Ty} (hm : m ∈ mergeMembers a.members b.members)
    (hn : n ∈ mergeMembers a.members b.members) (hne : m ≠ n) :
    unite a b = .union (mergeMembers a.members b.members) := by
  unfold unite
  split
  · next t heq =>
    rw [heq, List.mem_singleton] at hm hn
    exact absurd (hm.trans hn.symm) hne
  · rfl

theorem unite_of_isPlain {a b : Ty} (ha : a.isPlain = true) (hb : b.isPlain = true) (hne : a ≠ b) :
    unite a b = .union [a, b] := by
  have hmerge : mergeMembers a.members b.members = [a, b] := by
    rw [members_of_isPlain ha, members_of_isPlain hb]
    exact mergeMembers_of_nodup (by simpa using hne)
  rw [unite_eq_union (m := a) (n := b) (by simp [hmerge]) (by simp [hmerge]) hne, hmerge]

theorem holdsAny_iff {ts : List Ty} {z : Ty} :
    holdsAny ts z = true ↔ ∃ m ∈ ts, m.holds z = true := by
  induction ts with
  | nil => simp [holdsAny]
  | cons t ts ih => simp [holdsAny, ih]

theorem holds_iff_exists_member {a z : Ty} (hz : z ≠ .unknown) :
    a.holds z = true ↔ ∃ m ∈ a.members, m.holds z = true := by
  cases a with
  | union ts =>
    rw [show (Ty.union ts).members = ts from rfl, ← holdsAny_iff]
    cases z <;> simp_all [holds]
  | _ => simp [members]

/-- What two types bring together holds what the first of them holds. -/
theorem holds_unite {a z : Ty} (b : Ty) (h : a.holds z = true) : (unite a b).holds z = true := by
  by_cases hz : z = .unknown
  · rw [hz, holds_unknown]
  obtain ⟨m, hm, hholds⟩ := (holds_iff_exists_member hz).mp h
  have hmerge : m ∈ mergeMembers a.members b.members := mem_mergeMembers.mpr (.inl hm)
  unfold unite
  split
  · next t heq =>
    rw [heq, List.mem_singleton] at hmerge
    rwa [← hmerge]
  · exact (holds_iff_exists_member hz).mpr ⟨m, hmerge, hholds⟩

/-! ## Types that do not merge -/

/-- Every union among the elements, keys and values has two different members, as those that joining
makes have. -/
def isProper : Ty → Bool
  | .union ts => ts.any fun t => ts.any fun u => t ≠ u
  | .list t | .set t => t.isProper
  | .dict k v => k.isProper && v.isProper
  | _ => true

/-- No two of the types merge: different ones make a union. -/
def Unmixed (ts : List Ty) : Prop :=
  ∀ a ∈ ts, ∀ b ∈ ts, a.isPlain = true → b.isPlain = true → a ≠ b → (a.join b).isUnion = true

/-- Any two of the types merge: none make a union. -/
def Mixing (ts : List Ty) : Prop := ∀ a ∈ ts, ∀ b ∈ ts, (a.join b).isUnion = false

theorem Unmixed.subset {ts us : List Ty} (h : Unmixed ts) (hsub : us ⊆ ts) : Unmixed us :=
  fun a ha b hb => h a (hsub ha) b (hsub hb)

theorem Merges.isPlain_left {a b c : Ty} (h : Merges a b c) : a.isPlain = true := by
  cases h <;> rfl

theorem Merges.isPlain_right {a b c : Ty} (h : Merges a b c) : b.isPlain = true := by
  cases h <;> rfl

theorem Merges.isUnion {a b c : Ty} (h : Merges a b c) : c.isUnion = false :=
  (isPlain_iff.mp h.isPlain).2

/-- Two plain types merge if their join is no union. -/
theorem merges_of_isUnion {a b : Ty} (ha : a.isPlain = true) (hb : b.isPlain = true) (hne : a ≠ b)
    (h : (a.join b).isUnion = false) : Merges a b (a.join b) := by
  rcases join_cases (isPlain_iff.mp ha).1 (isPlain_iff.mp hb).1 hne with hmerges | hunite
  · exact hmerges
  · rw [hunite, unite_of_isPlain ha hb hne] at h
    cases h

theorem join_eq_unite {a b : Ty} (ha : a ≠ .unknown) (hb : b ≠ .unknown) (hne : a ≠ b)
    (h : a.isPlain = true → b.isPlain = true → (a.join b).isUnion = true) :
    a.join b = unite a b := by
  rcases join_cases ha hb hne with hmerges | hunite
  · have hunion := h hmerges.isPlain_left hmerges.isPlain_right
    rw [hmerges.isUnion] at hunion
    cases hunion
  · exact hunite

theorem exists_members_of_isUnion {t : Ty} (hproper : t.isProper = true) (h : t.isUnion = true) :
    ∃ m ∈ t.members, ∃ n ∈ t.members, m ≠ n := by
  cases t <;> simp_all [isUnion, isProper, members]

/-- Different types bring different members. -/
theorem exists_members {a b : Ty} (ha : a ≠ .unknown) (hb : b ≠ .unknown)
    (hpa : a.isProper = true) (hpb : b.isProper = true) (hne : a ≠ b) :
    ∃ m ∈ a.members ++ b.members, ∃ n ∈ a.members ++ b.members, m ≠ n := by
  cases hua : a.isUnion with
  | true =>
    obtain ⟨m, hm, n, hn, hmn⟩ := exists_members_of_isUnion hpa hua
    exact ⟨m, List.mem_append_left _ hm, n, List.mem_append_left _ hn, hmn⟩
  | false =>
    cases hub : b.isUnion with
    | true =>
      obtain ⟨m, hm, n, hn, hmn⟩ := exists_members_of_isUnion hpb hub
      exact ⟨m, List.mem_append_right _ hm, n, List.mem_append_right _ hn, hmn⟩
    | false =>
      rw [members_of_isPlain (isPlain_iff.mpr ⟨ha, hua⟩),
        members_of_isPlain (isPlain_iff.mpr ⟨hb, hub⟩)]
      exact ⟨a, by simp, b, by simp, hne⟩

/-- What the join of types comes to of which no two merge: nothing is known, or one type is, or the
known ones bring their members into a union. -/
inductive Gathers (us : List Ty) : Ty → Prop
  | nothing (h : ∀ t ∈ us, t = .unknown) : Gathers us .unknown
  | one {t : Ty} (hknown : t ≠ .unknown) (hmem : t ∈ us) (h : ∀ u ∈ us, u ≠ .unknown → u = t) :
      Gathers us t
  | several {ms : List Ty} {a b : Ty} (ha : a ∈ us ∧ a ≠ .unknown) (hb : b ∈ us ∧ b ≠ .unknown)
      (hne : a ≠ b) (hnodup : ms.Nodup)
      (h : ∀ m, m ∈ ms ↔ ∃ t ∈ us, t ≠ .unknown ∧ m ∈ t.members) : Gathers us (.union ms)

/-- One more type joins what was gathered. -/
theorem Gathers.join {us : List Ty} {acc t : Ty} (h : Gathers us acc)
    (hproper : ∀ u ∈ us ++ [t], u.isProper = true) (hunmixed : Unmixed (us ++ [t])) :
    Gathers (us ++ [t]) (acc.join t) := by
  by_cases ht : t = .unknown
  · subst ht
    rw [join_unknown_right]
    cases h with
    | nothing h => exact .nothing (by grind)
    | one hknown hmem h => exact .one hknown (by grind) (by grind)
    | several ha hb hne hnodup h =>
      exact .several (by grind) (by grind) hne hnodup (by grind)
  · cases h with
    | nothing h =>
      rw [join_unknown_left]
      exact .one ht (by simp) (by grind)
    | one hknown hmem h =>
      by_cases heq : acc = t
      · subst heq
        rw [join_self]
        exact .one ht (by simp) (by grind)
      · have hjoin : acc.join t = unite acc t := join_eq_unite hknown ht heq fun hpa hpt =>
          hunmixed acc (by simp [hmem]) t (by simp) hpa hpt heq
        obtain ⟨m, hm, n, hn, hmn⟩ := exists_members hknown ht (hproper acc (by simp [hmem]))
          (hproper t (by simp)) heq
        rw [hjoin, unite_eq_union (mem_mergeMembers.mpr (List.mem_append.mp hm))
          (mem_mergeMembers.mpr (List.mem_append.mp hn)) hmn]
        refine .several (a := acc) (b := t) (by simp [hmem, hknown]) (by simp [ht]) heq
          (nodup_mergeMembers _ _) fun m => ?_
        rw [mem_mergeMembers]
        grind
    | @several ms a b ha hb hne hnodup h =>
      have hmems : ∀ m, m ∈ mergeMembers ms t.members ↔
          ∃ u ∈ us ++ [t], u ≠ .unknown ∧ m ∈ u.members := by
        intro m
        rw [mem_mergeMembers, h]
        grind
      by_cases heq : Ty.union ms = t
      · rw [heq, join_self]
        rw [← heq] at hmems ⊢
        refine .several (by grind) (by grind) hne hnodup fun m => ?_
        rw [← hmems, mem_mergeMembers]
        exact ⟨.inl, fun hm => hm.elim id id⟩
      · have hjoin : (Ty.union ms).join t = unite (.union ms) t :=
          join_eq_unite (by simp) ht heq fun hplain => by cases hplain
        obtain ⟨m, hm, n, hn, hmn⟩ := exists_members ha.2 hb.2 (hproper a (by simp [ha.1]))
          (hproper b (by simp [hb.1])) hne
        rw [hjoin, unite_eq_union (a := .union ms) (b := t) ((hmems m).mpr (by grind))
          ((hmems n).mpr (by grind)) hmn]
        exact .several (by grind) (by grind) hne (nodup_mergeMembers _ _) hmems

theorem joinAll_concat (us : List Ty) (t : Ty) : joinAll (us ++ [t]) = (joinAll us).join t := by
  simp [joinAll]

theorem gathers_joinAll {us : List Ty} (hproper : ∀ u ∈ us, u.isProper = true)
    (hunmixed : Unmixed us) : Gathers us (joinAll us) := by
  induction us using List.reverseRecOn with
  | nil => exact .nothing (by simp)
  | append_singleton us t ih =>
    rw [joinAll_concat]
    refine (ih (fun u hu => hproper u (by simp [hu])) ?_).join hproper hunmixed
    exact hunmixed.subset (by simp)

/-- What is gathered depends on which types there are, apart from the order of the members. -/
theorem Gathers.permuted {us ts : List Ty} {t u : Ty} (hu : Gathers us u) (ht : Gathers ts t)
    (hperm : us.Perm ts) : Permuted u t := by
  have hmem : ∀ x, x ∈ us ↔ x ∈ ts := fun x => hperm.mem_iff
  cases hu with
  | nothing hu =>
    cases ht with
    | nothing => exact .refl _
    | one hknown hin => exact absurd (hu _ ((hmem _).mpr hin)) hknown
    | several ha => exact absurd (hu _ ((hmem _).mpr ha.1)) ha.2
  | one hknown hin hu =>
    cases ht with
    | nothing ht => exact absurd (ht _ ((hmem _).mp hin)) hknown
    | one hknown' hin' =>
      rw [hu _ ((hmem _).mpr hin') hknown']
      exact .refl _
    | several ha hb hne =>
      exact absurd ((hu _ ((hmem _).mpr ha.1) ha.2).trans (hu _ ((hmem _).mpr hb.1) hb.2).symm) hne
  | several ha hb hne hnodup hu =>
    cases ht with
    | nothing ht => exact absurd (ht _ ((hmem _).mp ha.1)) ha.2
    | one _ _ ht =>
      exact absurd ((ht _ ((hmem _).mp ha.1) ha.2).trans (ht _ ((hmem _).mp hb.1) hb.2).symm) hne
    | several _ _ _ hnodup' ht =>
      refine permuted_of_perm ((List.perm_ext_iff_of_nodup hnodup hnodup').mpr fun m => ?_)
      simp only [hu, ht, hmem]

/-- **Types of which no two merge** have one join, in whatever order they come. -/
theorem Unmixed.orderFree {ts : List Ty} (hproper : ∀ t ∈ ts, t.isProper = true)
    (h : Unmixed ts) : OrderFree ts := by
  intro us hperm
  have hsub : us ⊆ ts := hperm.subset
  exact (gathers_joinAll (fun u hu => hproper u (hsub hu)) (h.subset hsub)).permuted
    (gathers_joinAll hproper h) hperm

/-! ## Unknown types -/

def knowns (ts : List Ty) : List Ty := ts.filter (!·.isUnknown)

theorem mem_knowns {ts : List Ty} {t : Ty} : t ∈ knowns ts ↔ t ∈ ts ∧ t ≠ .unknown := by
  simp [knowns, ← isUnknown_iff]

theorem foldl_join_knowns (ts : List Ty) (acc : Ty) :
    (knowns ts).foldl join acc = ts.foldl join acc := by
  induction ts generalizing acc with
  | nil => rfl
  | cons t ts ih =>
    by_cases ht : t = .unknown
    · subst ht
      rw [List.foldl_cons, join_unknown_right, ← ih]
      rfl
    · have hhead : knowns (t :: ts) = t :: knowns ts :=
        List.filter_cons_of_pos (by simpa [← isUnknown_iff] using ht)
      rw [hhead, List.foldl_cons, List.foldl_cons, ih]

/-- Unknown types say nothing, at whatever place they stand. -/
theorem joinAll_knowns (ts : List Ty) : joinAll (knowns ts) = joinAll ts := foldl_join_knowns ts _

theorem orderFree_knowns {ts : List Ty} : OrderFree (knowns ts) ↔ OrderFree ts := by
  refine ⟨fun h us hperm => ?_, fun h us hperm => ?_⟩
  · have hknowns := h (knowns us) (hperm.filter _)
    rwa [joinAll_knowns, joinAll_knowns] at hknowns
  · have hall : ∀ u ∈ us, u ≠ .unknown := fun u hu => (mem_knowns.mp (hperm.subset hu)).2
    have hself : knowns us = us := List.filter_eq_self.mpr fun u hu => by
      simpa [← isUnknown_iff] using hall u hu
    have hsplit := h (us ++ ts.filter (!!·.isUnknown)) ((hperm.append_right _).trans
      (List.filter_append_perm _ _))
    rw [← joinAll_knowns, knowns, List.filter_append, ← knowns, hself] at hsplit
    simpa [joinAll_knowns] using hsplit

/-! ## Types that fit each other -/

/-- Each of two types holds the other. -/
def Fits (a b : Ty) : Prop := a.holds b = true ∧ b.holds a = true

theorem Fits.symm {a b : Ty} (h : Fits a b) : Fits b a := ⟨h.2, h.1⟩

instance : Std.Symm Fits := ⟨fun _ _ => Fits.symm⟩

/-- A join holds what all the joined types hold, if the first holds the second. -/
theorem holds_join {a b z : Ty} (hab : a.holds b = true) (ha : a.holds z = true)
    (hb : b.holds z = true) : (a.join b).holds z = true := by
  fun_induction join a b generalizing z with
  | case1 => exact hb
  | case2 | case3 => exact ha
  | case4 | case5 | case6 | case7 => simp [holds] at hab
  | case8 s t _ hguard _ _ ih | case10 s t _ hguard _ _ ih =>
    cases z <;> simp_all [holds]
  | case12 k v k' v' hguard _ _ _ ihk ihv =>
    cases z <;> simp_all [holds]
  | case9 | case11 | case13 | case14 => exact holds_unite _ ha

theorem joinAll_holds {us : List Ty} {z : Ty} (hfit : us.Pairwise Fits)
    (hz : ∀ u ∈ us, u.holds z = true) : (joinAll us).holds z = true := by
  induction us using List.reverseRecOn generalizing z with
  | nil => simp [holds]
  | append_singleton us t ih =>
    rw [joinAll_concat]
    obtain ⟨hus, -, hcross⟩ := List.pairwise_append.mp hfit
    have ht : (joinAll us).holds t = true := ih hus fun u hu => (hcross u hu t (by simp)).1
    exact holds_join ht (ih hus fun u hu => hz u (by simp [hu])) (hz t (by simp))

/-- The elements of a list or set; the keys and values of a dictionary. -/
def parts : Ty → Ty × Ty
  | .list t | .set t => (t, .unknown)
  | .dict k v => (k, v)
  | _ => (.unknown, .unknown)

theorem Fits.parts {a b : Ty} (h : Fits a b) :
    Fits a.parts.1 b.parts.1 ∧ Fits a.parts.2 b.parts.2 := by
  cases a <;> cases b <;> simp_all [Fits, Ty.parts, holds]

theorem isProper_parts {t : Ty} (h : t.isProper = true) :
    t.parts.1.isProper = true ∧ t.parts.2.isProper = true := by
  cases t <;> simp_all [Ty.parts, isProper]

theorem sizeOf_pos (t : Ty) : 0 < sizeOf t := by
  cases t <;> simp +arith

/-- `C` puts the parts of a container together. Containers are joined part by part as far as the
parts fit, and fit no other types. -/
structure Container (C : Ty → Ty → Ty) : Prop where
  join {s s' t t' : Ty} (hs : s.holds s' = true) (ht : t.holds t' = true) :
    (C s t).join (C s' t') = C (s.join s') (t.join t')
  permuted {s s' t t' : Ty} (hs : Permuted s s') (ht : Permuted t t') :
    Permuted (C s t) (C s' t')
  fits {a b : Ty} (ha : a = C a.parts.1 a.parts.2) (h : Fits a b) (hb : b ≠ .unknown) :
    b = C b.parts.1 b.parts.2
  smaller {a : Ty} (ha : a = C a.parts.1 a.parts.2) :
    sizeOf a.parts.1 < sizeOf a ∧ sizeOf a.parts.2 < sizeOf a

theorem container_list : Container fun s _ => .list s where
  join hs _ := join_list hs
  permuted hs _ := .list hs
  fits {a b} ha h hb := by
    obtain ⟨s, rfl⟩ : ∃ s, a = .list s := ⟨_, ha⟩
    cases b <;> simp_all [Fits, holds, Ty.parts]
  smaller {a} ha := by
    obtain ⟨s, rfl⟩ : ∃ s, a = .list s := ⟨_, ha⟩
    simpa [Ty.parts] using s.sizeOf_pos

theorem container_set : Container fun s _ => .set s where
  join hs _ := join_set hs
  permuted hs _ := .set hs
  fits {a b} ha h hb := by
    obtain ⟨s, rfl⟩ : ∃ s, a = .set s := ⟨_, ha⟩
    cases b <;> simp_all [Fits, holds, Ty.parts]
  smaller {a} ha := by
    obtain ⟨s, rfl⟩ : ∃ s, a = .set s := ⟨_, ha⟩
    simpa [Ty.parts] using s.sizeOf_pos

theorem container_dict : Container .dict where
  join := join_dict
  permuted := .dict
  fits {a b} ha h hb := by
    obtain ⟨k, v, rfl⟩ : ∃ k v, a = .dict k v := ⟨_, _, ha⟩
    cases b <;> simp_all [Fits, holds, Ty.parts]
  smaller {a} ha := by
    obtain ⟨k, v, rfl⟩ : ∃ k v, a = .dict k v := ⟨_, _, ha⟩
    simp only [Ty.parts, Ty.dict.sizeOf_spec]
    omega

theorem joinAll_container {C : Ty → Ty → Ty} (hC : Container C) {us : List Ty} (hne : us ≠ [])
    (hshape : ∀ u ∈ us, u = C u.parts.1 u.parts.2) (hfit : us.Pairwise Fits) :
    joinAll us = C (joinAll (us.map (·.parts.1))) (joinAll (us.map (·.parts.2))) := by
  induction us using List.reverseRecOn with
  | nil => exact absurd rfl hne
  | append_singleton us t ih =>
    have ht : t = C t.parts.1 t.parts.2 := hshape t (by simp)
    by_cases hnil : us = []
    · subst hnil
      simpa [joinAll] using ht
    · obtain ⟨hus, -, hcross⟩ := List.pairwise_append.mp hfit
      have hparts : ∀ u ∈ us, Fits u.parts.1 t.parts.1 ∧ Fits u.parts.2 t.parts.2 :=
        fun u hu => (hcross u hu t (by simp)).parts
      have hfst : (joinAll (us.map (·.parts.1))).holds t.parts.1 = true :=
        joinAll_holds (List.pairwise_map.mpr (hus.imp fun h => h.parts.1))
          (List.forall_mem_map.mpr fun u hu => (hparts u hu).1.1)
      have hsnd : (joinAll (us.map (·.parts.2))).holds t.parts.2 = true :=
        joinAll_holds (List.pairwise_map.mpr (hus.imp fun h => h.parts.2))
          (List.forall_mem_map.mpr fun u hu => (hparts u hu).2.1)
      have hstep := hC.join hfst hsnd
      rw [← ht, ← ih hnil (fun u hu => hshape u (by simp [hu])) hus] at hstep
      simpa [joinAll_concat] using hstep

theorem orderFree_container {C : Ty → Ty → Ty} (hC : Container C) {ts : List Ty}
    (hshape : ∀ t ∈ ts, t = C t.parts.1 t.parts.2) (hfit : ts.Pairwise Fits)
    (hfst : OrderFree (ts.map (·.parts.1))) (hsnd : OrderFree (ts.map (·.parts.2))) :
    OrderFree ts := by
  intro us hperm
  by_cases hne : ts = []
  · subst hne
    rw [hperm.eq_nil]
    exact .refl _
  · have hne' : us ≠ [] := fun hnil => hne (hnil ▸ hperm).nil_eq.symm
    rw [joinAll_container hC hne hshape hfit, joinAll_container hC hne'
      (fun u hu => hshape u (hperm.subset hu)) ((hperm.pairwise_iff Fits.symm).mpr hfit)]
    exact hC.permuted (hfst _ (hperm.map _)) (hsnd _ (hperm.map _))

/-- Types that fit each other and are no containers of a kind do not merge. -/
theorem unmixed_of_fits {ts : List Ty} (hfit : ts.Pairwise Fits)
    (h : ¬ ∃ C, Container C ∧ ∃ t ∈ ts, t = C t.parts.1 t.parts.2) : Unmixed ts := by
  intro a ha b hb hpa hpb hne
  rw [← Bool.not_eq_false]
  intro hunion
  have hab : Fits a b := hfit.forall ha hb hne
  obtain ⟨c, hmerges⟩ : ∃ c, Merges a b c := ⟨_, merges_of_isUnion hpa hpb hne hunion⟩
  cases hmerges with
  | intFloat | floatInt | boolInt | intBool => simp [Fits, holds] at hab
  | list => exact h ⟨_, container_list, _, ha, rfl⟩
  | set => exact h ⟨_, container_set, _, ha, rfl⟩
  | dict => exact h ⟨_, container_dict, _, ha, rfl⟩

/-- **Types that fit each other** have one join, in whatever order they come. By induction on the
size of the types: containers hand the question on to their parts. -/
theorem orderFree_of_fits {ts : List Ty} (hproper : ∀ t ∈ ts, t.isProper = true)
    (hfit : ts.Pairwise Fits) : OrderFree ts := by
  suffices hsize : ∀ (n : Nat) (ts : List Ty), (∀ t ∈ ts, sizeOf t < n) →
      (∀ t ∈ ts, t.isProper = true) → ts.Pairwise Fits → OrderFree ts by
    exact hsize (sizeOf ts) ts (fun t ht => List.sizeOf_lt_of_mem ht) hproper hfit
  intro n
  induction n with
  | zero =>
    intro ts hlt _ _
    rw [List.eq_nil_iff_forall_not_mem.mpr fun t ht => absurd (hlt t ht) (Nat.not_lt_zero _)]
    intro us hperm
    rw [hperm.eq_nil]
    exact .refl _
  | succ n ih =>
    intro ts hlt hproper hfit
    rw [← orderFree_knowns]
    have hsub : knowns ts ⊆ ts := fun t ht => (mem_knowns.mp ht).1
    have hfit' : (knowns ts).Pairwise Fits := hfit.filter _
    have hproper' : ∀ t ∈ knowns ts, t.isProper = true := fun t ht => hproper t (hsub ht)
    by_cases hsome : ∃ C, Container C ∧ ∃ t ∈ knowns ts, t = C t.parts.1 t.parts.2
    · obtain ⟨C, hC, t, ht, heq⟩ := hsome
      have hshape : ∀ u ∈ knowns ts, u = C u.parts.1 u.parts.2 := by
        intro u hu
        by_cases hut : t = u
        · rwa [← hut]
        · exact hC.fits heq (hfit'.forall ht hu hut) (mem_knowns.mp hu).2
      have hsmall : ∀ u ∈ knowns ts, sizeOf u.parts.1 < n ∧ sizeOf u.parts.2 < n := by
        intro u hu
        have hu' := hlt u (hsub hu)
        have hlt' := hC.smaller (hshape u hu)
        omega
      refine orderFree_container hC hshape hfit' (ih _ ?_ ?_ ?_) (ih _ ?_ ?_ ?_)
      · exact List.forall_mem_map.mpr fun u hu => (hsmall u hu).1
      · exact List.forall_mem_map.mpr fun u hu => (isProper_parts (hproper' u hu)).1
      · exact List.pairwise_map.mpr (hfit'.imp fun h => h.parts.1)
      · exact List.forall_mem_map.mpr fun u hu => (hsmall u hu).2
      · exact List.forall_mem_map.mpr fun u hu => (isProper_parts (hproper' u hu)).2
      · exact List.pairwise_map.mpr (hfit'.imp fun h => h.parts.2)
    · exact (unmixed_of_fits hfit' hsome).orderFree hproper'

/-! ## Counting members -/

theorem length_foldl_keep_le (ts acc : List Ty) :
    (ts.foldl (fun acc t => if t ∈ acc then acc else acc ++ [t]) acc).length ≤
      acc.length + ts.length := by
  induction ts generalizing acc with
  | nil => simp
  | cons u us ih =>
    rw [List.foldl_cons]
    refine (ih _).trans ?_
    split
    · rw [List.length_cons]
      omega
    · rw [List.length_append, List.length_singleton, List.length_cons]
      omega

/-- A plain type adds one member at most. -/
theorem length_members_join_le (acc : Ty) {t : Ty} (ht : t.isPlain = true) :
    (acc.join t).members.length ≤ acc.members.length + 1 := by
  have hone : ∀ {u : Ty}, u.isPlain = true → u.members.length = 1 := fun hu => by
    rw [members_of_isPlain hu, List.length_singleton]
  by_cases hknown : acc = .unknown
  · rw [hknown, join_unknown_left, hone ht]
    omega
  by_cases heq : acc = t
  · rw [heq, join_self]
    omega
  rcases join_cases hknown (isPlain_iff.mp ht).1 heq with hmerges | hunite
  · rw [hone hmerges.isPlain]
    omega
  · have hmem : t ∈ mergeMembers acc.members t.members :=
      mem_mergeMembers.mpr (.inr (by simp [members_of_isPlain ht]))
    rw [hunite, unite]
    split
    · next u hu =>
      rw [hu, List.mem_singleton] at hmem
      rw [← hmem, hone ht]
      omega
    · have hlength := length_foldl_keep_le (acc.members ++ t.members) []
      rw [List.length_append, hone ht, List.length_nil, Nat.zero_add] at hlength
      exact hlength

theorem length_members_foldl_le {us : List Ty} (acc : Ty) (h : ∀ u ∈ us, u.isPlain = true) :
    (us.foldl join acc).members.length ≤ acc.members.length + us.length := by
  induction us generalizing acc with
  | nil => simp
  | cons u us ih =>
    have hhead := length_members_join_le acc (h u (by simp))
    have htail := ih (acc.join u) fun v hv => h v (by simp [hv])
    rw [List.foldl_cons, List.length_cons]
    omega

/-- Once there is a union, nothing merges any more. -/
theorem foldl_join_union {ms us : List Ty} (hlength : 2 ≤ ms.length) (hnodup : (ms ++ us).Nodup)
    (hplain : ∀ u ∈ us, u.isPlain = true) :
    us.foldl join (.union ms) = .union (ms ++ us) := by
  induction us generalizing ms with
  | nil => simp
  | cons u us ih =>
    have hu := hplain u (by simp)
    have hprefix : (ms ++ [u]).Nodup := hnodup.sublist (by simp)
    have hne : Ty.union ms ≠ u := fun heq => by rw [← heq] at hu; cases hu
    have hmerge : mergeMembers (Ty.union ms).members u.members = ms ++ [u] := by
      rw [members_of_isPlain hu]
      exact mergeMembers_of_nodup hprefix
    have hstep : (Ty.union ms).join u = .union (ms ++ [u]) := by
      rw [join_eq_unite (by simp) (isPlain_iff.mp hu).1 hne fun h => by cases h]
      unfold unite
      rw [hmerge]
      split
      · next t heq =>
        have hlen : (ms ++ [u]).length = 1 := by rw [heq, List.length_singleton]
        rw [List.length_append, List.length_singleton] at hlen
        omega
      · rfl
    rw [List.foldl_cons, hstep, ih (by rw [List.length_append]; omega) (by simpa using hnodup)
      fun v hv => hplain v (by simp [hv]), List.append_assoc]
    rfl

/-- **Types that merge, and types that do not.** If two of the types merge and two others do not,
the join depends on which pair comes first: merging leaves fewer members than there are types. -/
theorem not_orderFree {ts : List Ty} (hplain : ∀ t ∈ ts, t.isPlain = true) (hnodup : ts.Nodup)
    {a b c d : Ty} (ha : a ∈ ts) (hb : b ∈ ts) (hab : a ≠ b) (hmerges : (a.join b).isUnion = false)
    (hc : c ∈ ts) (hd : d ∈ ts) (hcd : c ≠ d) (hunion : (c.join d).isUnion = true) :
    ¬ OrderFree ts := by
  intro horder
  have hfront : ∀ {x y : Ty}, x ∈ ts → y ∈ ts → x ≠ y → ∃ rest, (x :: y :: rest).Perm ts := by
    intro x y hx hy hxy
    have hy' : y ∈ ts.erase x := (List.mem_erase_of_ne hxy.symm).mpr hy
    exact ⟨(ts.erase x).erase y,
      ((List.perm_cons_erase hy').symm.cons x).trans (List.perm_cons_erase hx).symm⟩
  obtain ⟨rest, hrest⟩ := hfront ha hb hab
  obtain ⟨rest', hrest'⟩ := hfront hc hd hcd
  have hfew : (joinAll (a :: b :: rest)).members.length ≤ 1 + rest.length := by
    have hone : (a.join b).members.length = 1 := by
      rw [members_of_isPlain (merges_of_isUnion (hplain a ha) (hplain b hb) hab hmerges).isPlain,
        List.length_singleton]
    rw [← hone, joinAll, List.foldl_cons, List.foldl_cons, join_unknown_left]
    exact length_members_foldl_le _ fun u hu => hplain u (hrest.subset (by simp [hu]))
  have hall : joinAll (c :: d :: rest') = .union (c :: d :: rest') := by
    have hunite : c.join d = .union [c, d] := by
      rw [join_eq_unite (isPlain_iff.mp (hplain c hc)).1 (isPlain_iff.mp (hplain d hd)).1 hcd
        fun _ _ => hunion, unite_of_isPlain (hplain c hc) (hplain d hd) hcd]
    rw [joinAll, List.foldl_cons, List.foldl_cons, join_unknown_left, hunite]
    exact foldl_join_union (by simp) (hrest'.nodup_iff.mpr hnodup)
      fun u hu => hplain u (hrest'.subset (by simp [hu]))
  have hlength := (horder _ hrest).length_members.trans (horder _ hrest').length_members.symm
  rw [hall] at hlength
  have hcount : (c :: d :: rest').length = (a :: b :: rest).length :=
    hrest'.length_eq.trans hrest.length_eq.symm
  change _ = (c :: d :: rest').length at hlength
  rw [hcount, List.length_cons, List.length_cons] at hlength
  omega

theorem orderFree_pair {ts : List Ty} {a b : Ty} (hperm : ts.Perm [a, b])
    (hcomm : a.join b = b.join a) : OrderFree ts := by
  have hjoin : ∀ us : List Ty, us.Perm [a, b] → joinAll us = a.join b := by
    intro us hus
    rcases List.perm_pair.mp hus with rfl | rfl
    · simp [joinAll]
    · simp [joinAll, hcomm]
  intro us hus
  rw [hjoin us (hus.trans hperm), hjoin ts hperm]
  exact .refl _

/-- Types any two of which merge are two numbers, or fit each other. -/
theorem Mixing.orderFree {ts : List Ty} (hproper : ∀ t ∈ ts, t.isProper = true)
    (hplain : ∀ t ∈ ts, t.isPlain = true) (hnodup : ts.Nodup) (h : Mixing ts) : OrderFree ts := by
  have hmerges : ∀ a ∈ ts, ∀ b ∈ ts, a ≠ b → ∃ c, Merges a b c := fun a ha b hb hne =>
    ⟨_, merges_of_isUnion (hplain a ha) (hplain b hb) hne (h a ha b hb)⟩
  have hnumbers : ∀ b : Ty, (∀ t c, Merges t b c → t = .int) → Ty.int ≠ b →
      Ty.int.join b = b.join .int → Ty.int ∈ ts → b ∈ ts → OrderFree ts := by
    intro b honly hne hcomm hint hb
    refine orderFree_pair (a := .int) (b := b)
      ((List.perm_ext_iff_of_nodup hnodup (by simpa using hne)).mpr fun t => ?_) hcomm
    simp only [List.mem_cons, List.not_mem_nil, or_false]
    refine ⟨fun ht => ?_, fun ht => ht.elim (· ▸ hint) (· ▸ hb)⟩
    by_cases htb : t = b
    · exact .inr htb
    · obtain ⟨c, hc⟩ := hmerges t ht b hb htb
      exact .inl (honly t c hc)
  by_cases hfloat : Ty.int ∈ ts ∧ Ty.float ∈ ts
  · exact hnumbers .float (fun t c hc => by cases hc; rfl) (by simp) rfl hfloat.1 hfloat.2
  by_cases hbool : Ty.int ∈ ts ∧ Ty.bool ∈ ts
  · exact hnumbers .bool (fun t c hc => by cases hc; rfl) (by simp) rfl hbool.1 hbool.2
  · have hholds : ∀ a ∈ ts, ∀ b ∈ ts, a ≠ b → a.holds b = true := by
      intro a ha b hb hne
      obtain ⟨c, hc⟩ := hmerges a ha b hb hne
      cases hc with
      | intFloat => exact absurd ⟨ha, hb⟩ hfloat
      | floatInt => exact absurd ⟨hb, ha⟩ hfloat
      | boolInt => exact absurd ⟨hb, ha⟩ hbool
      | intBool => exact absurd ⟨ha, hb⟩ hbool
      | list hst | set hst => simpa [holds] using hst
      | dict hk hv => simp [holds, hk, hv]
    exact orderFree_of_fits hproper (hnodup.imp_of_mem fun ha hb hne =>
      ⟨hholds _ ha _ hb hne, hholds _ hb _ ha hne.symm⟩)

/-- **When the order of joined types does not matter.** Types of which no two merge can be joined in
any order. If the known types are different and none of them is a union, the order matters exactly
if some two of them merge and some two do not.

The first half is all that is said of lists with a union or a repeated type among them: a union may
take in what two of the others merge to, so that the order does not show although they are mixed. -/
theorem joinAll_orderFree_iff {ts : List Ty} (hproper : ∀ t ∈ ts, t.isProper = true) :
    (Unmixed ts → OrderFree ts) ∧
      ((∀ t ∈ ts, t.isUnion = false) → (knowns ts).Nodup →
        (OrderFree ts ↔ Unmixed ts ∨ Mixing ts)) := by
  refine ⟨fun h => h.orderFree hproper, fun hunions hnodup => ⟨fun horder => ?_, fun h => ?_⟩⟩
  · have hplain : ∀ t ∈ knowns ts, t.isPlain = true := fun t ht =>
      isPlain_iff.mpr ⟨(mem_knowns.mp ht).2, hunions t (mem_knowns.mp ht).1⟩
    by_contra hneither
    obtain ⟨hunmixed, hmixing⟩ := not_or.mp hneither
    simp only [Unmixed, Mixing, not_forall, Bool.not_eq_true, Bool.not_eq_false] at hunmixed hmixing
    obtain ⟨a, ha, b, hb, hpa, hpb, hab, hmerges⟩ := hunmixed
    obtain ⟨c, hc, d, hd, hunion⟩ := hmixing
    have hcknown : c ≠ .unknown := by
      rintro rfl
      rw [join_unknown_left, hunions d hd] at hunion
      cases hunion
    have hdknown : d ≠ .unknown := by
      rintro rfl
      rw [join_unknown_right, hunions c hc] at hunion
      cases hunion
    have hcd : c ≠ d := by
      rintro rfl
      rw [join_self, hunions c hc] at hunion
      cases hunion
    exact not_orderFree hplain hnodup (mem_knowns.mpr ⟨ha, (isPlain_iff.mp hpa).1⟩)
      (mem_knowns.mpr ⟨hb, (isPlain_iff.mp hpb).1⟩) hab hmerges (mem_knowns.mpr ⟨hc, hcknown⟩)
      (mem_knowns.mpr ⟨hd, hdknown⟩) hcd hunion (orderFree_knowns.mpr horder)
  · rcases h with hunmixed | hmixing
    · exact hunmixed.orderFree hproper
    · have hsub : ∀ t ∈ knowns ts, t ∈ ts := fun t ht => (mem_knowns.mp ht).1
      refine orderFree_knowns.mp (Mixing.orderFree (fun t ht => hproper t (hsub t ht)) ?_ hnodup
        fun a ha b hb => hmixing a (hsub a ha) b (hsub b hb))
      exact fun t ht => isPlain_iff.mpr ⟨(mem_knowns.mp ht).2, hunions t (hsub t ht)⟩

/-- **Lists of numbers and lists of numbers or texts** merge if the more general list comes first,
because its elements hold the others, and make a union if it comes second. -/
theorem joinAll_orderFree_narrowFirst :
    joinAll [.list (.union [.int, .str]), .list .int] = .list (.union [.int, .str]) ∧
      joinAll [.list .int, .list (.union [.int, .str])] =
        .union [.list .int, .list (.union [.int, .str])] ∧
      ¬ OrderFree [.list (.union [.int, .str]), .list .int] := by
  refine ⟨rfl, rfl, fun horder => ?_⟩
  rcases ((joinAll_orderFree_iff (by decide)).2 (by decide) (by decide)).mp horder with
    hunmixed | hmixing
  · have hunion := hunmixed (.list (.union [.int, .str])) (by decide) (.list .int) (by decide) rfl
      rfl (by decide)
    exact absurd hunion (by decide)
  · have hmerged := hmixing (.list .int) (by decide) (.list (.union [.int, .str])) (by decide)
    exact absurd hmerged (by decide)

end Ty

end ClosureConversion
