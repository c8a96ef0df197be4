import ClosureConversion.Proofs.Ty.Joins
import Mathlib.Logic.Relation

/-! # Well-formed types -/

set_option autoImplicit false

namespace ClosureConversion

namespace Ty

/-! ## Parts of types -/

/-- `u` is the type of what a value of type `t` is made of: of the elements, keys, values or
positions of a container, or of one of the members of a union. -/
inductive Component : Ty → Ty → Prop
  | listElem (t : Ty) : Component t (.list t)
  | setElem (t : Ty) : Component t (.set t)
  | key (k v : Ty) : Component k (.dict k v)
  | value (k v : Ty) : Component v (.dict k v)
  | position {u : Ty} {ts : List Ty} (h : u ∈ ts) : Component u (.tuple ts)
  | member {u : Ty} {ts : List Ty} (h : u ∈ ts) : Component u (.union ts)

/-- `u` stands in `t`, as a component or in the signature of a callable. -/
inductive Part : Ty → Ty → Prop
  | component {u t : Ty} (h : Component u t) : Part u t
  | param {u t : Ty} {s : Signature} (hs : t.signature? = some s) (h : u ∈ s.params) : Part u t
  | result {t : Ty} {s : Signature} (hs : t.signature? = some s) : Part s.result t

theorem Part.sizeOf_lt {u t : Ty} (h : Part u t) : sizeOf u < sizeOf t := by
  have hsignature : ∀ {s : Signature}, t.signature? = some s → sizeOf s < sizeOf t := by
    intro s hs
    cases t <;> simp only [signature?, Option.some.injEq, reduceCtorEq] at hs
    all_goals
      subst hs
      simp +arith
  cases h with
  | component h =>
    cases h with
    | position h | member h =>
      have := List.sizeOf_lt_of_mem h
      simp
      omega
    | _ => simp +arith
  | @param _ _ s hs h =>
    have hparam := List.sizeOf_lt_of_mem h
    have hs := hsignature hs
    obtain ⟨params, result, fallible⟩ := s
    simp only [Signature.mk.sizeOf_spec] at hs hparam
    omega
  | @result _ s hs =>
    have hs := hsignature hs
    obtain ⟨params, result, fallible⟩ := s
    simp only [Signature.mk.sizeOf_spec] at hs
    show sizeOf result < _
    omega

/-- What holds of a type if it holds of all its parts holds of every type. -/
theorem part_induction {P : Ty → Prop} (h : ∀ t, (∀ u, Part u t → P u) → P t) (t : Ty) : P t :=
  h t fun u _ => part_induction h u
termination_by sizeOf t
decreasing_by exact Part.sizeOf_lt ‹_›

theorem part_iff {u t : Ty} :
    Part u t ↔
      Component u t ∨ ∃ s, t.signature? = some s ∧ (u ∈ s.params ∨ u = s.result) := by
  constructor
  · rintro (h | ⟨hs, h⟩ | hs)
    · exact .inl h
    · exact .inr ⟨_, hs, .inl h⟩
    · exact .inr ⟨_, hs, .inr rfl⟩
  · rintro (h | ⟨s, hs, h | rfl⟩)
    · exact .component h
    · exact .param hs h
    · exact .result hs

@[simp] theorem component_list {u t : Ty} : Component u (.list t) ↔ u = t :=
  ⟨fun h => by cases h; rfl, fun h => h ▸ .listElem u⟩

@[simp] theorem component_set {u t : Ty} : Component u (.set t) ↔ u = t :=
  ⟨fun h => by cases h; rfl, fun h => h ▸ .setElem u⟩

@[simp] theorem component_dict {u k v : Ty} : Component u (.dict k v) ↔ u = k ∨ u = v := by
  constructor
  · rintro (_ | _)
    · exact .inl rfl
    · exact .inr rfl
  · rintro (rfl | rfl)
    · exact .key ..
    · exact .value ..

@[simp] theorem component_tuple {u : Ty} {ts : List Ty} : Component u (.tuple ts) ↔ u ∈ ts :=
  ⟨fun h => by cases h; assumption, .position⟩

@[simp] theorem component_union {u : Ty} {ts : List Ty} : Component u (.union ts) ↔ u ∈ ts :=
  ⟨fun h => by cases h; assumption, .member⟩

@[simp] theorem component_function {u : Ty} {s : Signature} : ¬ Component u (.function s) :=
  nofun

/-! ## Proper unions -/

/-- The members of a union as joining makes it. -/
structure ProperMembers (ts : List Ty) : Prop where
  several : 2 ≤ ts.length
  nodup : ts.Nodup
  /-- No member is a union itself or unknown. -/
  plain : ∀ t ∈ ts, t.isPlain = true

/-- Every union in the type is proper, at any depth and also in the signatures of callables. -/
def WellFormed (t : Ty) : Prop :=
  ∀ ts, Relation.ReflTransGen Part (.union ts) t → ProperMembers ts

theorem wellFormed_iff {t : Ty} :
    t.WellFormed ↔
      (∀ ts, t = .union ts → ProperMembers ts) ∧ ∀ u, Part u t → u.WellFormed := by
  constructor
  · intro h
    exact ⟨fun ts ht => h ts (ht ▸ .refl), fun u hu ts hts => h ts (hts.tail hu)⟩
  · rintro ⟨htop, hparts⟩ ts hts
    rcases hts.cases_tail with rfl | ⟨u, hu, hpart⟩
    · exact htop ts rfl
    · exact hparts u hpart ts hu

theorem WellFormed.part {u t : Ty} (h : t.WellFormed) (hu : Part u t) : u.WellFormed :=
  (wellFormed_iff.mp h).2 u hu

/-- Types that have no parts are well formed. -/
theorem wellFormed_of_isLeaf {t : Ty} (h : t.isLeaf = true) : t.WellFormed := by
  have hdata : t.signature? = Option.none := by
    cases t <;> first | rfl | cases h
  refine wellFormed_iff.mpr ⟨fun ts ht => ?_, fun u hu => ?_⟩
  · rw [ht] at h
    cases h
  · cases hu with
    | component hu => cases hu <;> cases h
    | param hs | result hs =>
      rw [hdata] at hs
      cases hs

@[simp] theorem wellFormed_leaves :
    Ty.none.WellFormed ∧ Ty.bool.WellFormed ∧ Ty.int.WellFormed ∧ Ty.float.WellFormed ∧
      Ty.str.WellFormed ∧ Ty.unknown.WellFormed := by
  refine ⟨?_, ?_, ?_, ?_, ?_, ?_⟩ <;> exact wellFormed_of_isLeaf rfl

@[simp] theorem wellFormed_list {t : Ty} : (Ty.list t).WellFormed ↔ t.WellFormed := by
  rw [wellFormed_iff]
  simp [part_iff, signature?]

@[simp] theorem wellFormed_set {t : Ty} : (Ty.set t).WellFormed ↔ t.WellFormed := by
  rw [wellFormed_iff]
  simp [part_iff, signature?]

@[simp] theorem wellFormed_dict {k v : Ty} :
    (Ty.dict k v).WellFormed ↔ k.WellFormed ∧ v.WellFormed := by
  rw [wellFormed_iff]
  simp [part_iff, signature?]

@[simp] theorem wellFormed_tuple {ts : List Ty} :
    (Ty.tuple ts).WellFormed ↔ ∀ t ∈ ts, t.WellFormed := by
  rw [wellFormed_iff]
  simp [part_iff, signature?]

@[simp] theorem wellFormed_union {ts : List Ty} :
    (Ty.union ts).WellFormed ↔ ProperMembers ts ∧ ∀ t ∈ ts, t.WellFormed := by
  rw [wellFormed_iff]
  simp [part_iff, signature?]

@[simp] theorem wellFormed_function {s : Signature} :
    (Ty.function s).WellFormed ↔ (∀ t ∈ s.params, t.WellFormed) ∧ s.result.WellFormed := by
  rw [wellFormed_iff]
  simp [part_iff, signature?, or_imp, forall_and]

/-- What a well-formed callable returns. -/
theorem WellFormed.result {t r : Ty} (h : t.WellFormed) (hr : t.result? = some r) :
    r.WellFormed := by
  obtain ⟨s, hs, rfl⟩ := Option.map_eq_some_iff.mp hr
  exact h.part (.result hs)

/-! ## Joining -/

/-- What a well-formed type brings into a union can stand there. -/
theorem WellFormed.members {a m : Ty} (h : a.WellFormed) (ha : a ≠ .unknown) (hm : m ∈ a.members) :
    m.isPlain = true ∧ m.WellFormed := by
  cases hunion : a.isUnion with
  | true =>
    obtain ⟨ts, rfl⟩ : ∃ ts, a = .union ts := by
      cases a <;> first | exact ⟨_, rfl⟩ | cases hunion
    obtain ⟨hproper, hmembers⟩ := wellFormed_union.mp h
    exact ⟨hproper.plain m hm, hmembers m hm⟩
  | false =>
    have hplain : a.isPlain = true := isPlain_iff.mpr ⟨ha, hunion⟩
    rw [members_of_isPlain hplain, List.mem_singleton] at hm
    exact hm ▸ ⟨hplain, h⟩

/-- In particular the unions among elements, keys and values have different members. -/
theorem WellFormed.isProper {t : Ty} (h : t.WellFormed) : t.isProper = true := by
  induction t using part_induction with
  | h t ih =>
    cases t with
    | union ts =>
      obtain ⟨hproper, -⟩ := wellFormed_union.mp h
      match ts, hproper with
      | m :: n :: rest, hproper =>
        have hmn : m ≠ n := by
          rintro rfl
          exact absurd hproper.nodup (by simp)
        simp [Ty.isProper, hmn]
      | [m], hproper => exact absurd hproper.several (by simp)
      | [], hproper => exact absurd hproper.several (by simp)
    | list t => exact ih t (.component (.listElem t)) (wellFormed_list.mp h)
    | set t => exact ih t (.component (.setElem t)) (wellFormed_set.mp h)
    | dict k v =>
      obtain ⟨hk, hv⟩ := wellFormed_dict.mp h
      rw [Ty.isProper, ih k (.component (.key k v)) hk, ih v (.component (.value k v)) hv]
      rfl
    | _ => rfl

/-- The union of what two different well-formed types bring is proper. -/
theorem WellFormed.unite {a b : Ty} (ha : a.WellFormed) (hb : b.WellFormed) (hka : a ≠ .unknown)
    (hkb : b ≠ .unknown) (hne : a ≠ b) : (unite a b).WellFormed := by
  obtain ⟨m, hm, n, hn, hmn⟩ := exists_members hka hkb ha.isProper hb.isProper hne
  rw [List.mem_append, ← mem_mergeMembers] at hm hn
  rw [unite_eq_union hm hn hmn, wellFormed_union]
  have hmember : ∀ t ∈ mergeMembers a.members b.members, t.isPlain = true ∧ t.WellFormed := by
    intro t ht
    rcases mem_mergeMembers.mp ht with ht | ht
    · exact ha.members hka ht
    · exact hb.members hkb ht
  refine ⟨⟨?_, nodup_mergeMembers _ _, fun t ht => (hmember t ht).1⟩, fun t ht => (hmember t ht).2⟩
  have hpair : [m, n].Subperm (mergeMembers a.members b.members) :=
    List.subperm_of_subset (by simpa using hmn) (by simp [hm, hn])
  exact hpair.length_le

/-- **The join of well-formed types is well formed.** -/
theorem WellFormed.join {a b : Ty} (ha : a.WellFormed) (hb : b.WellFormed) :
    (a.join b).WellFormed := by
  induction a using part_induction generalizing b with
  | h a ih =>
    by_cases hka : a = .unknown
    · rwa [hka, join_unknown_left]
    by_cases hkb : b = .unknown
    · rwa [hkb, join_unknown_right]
    by_cases hne : a = b
    · rwa [hne, join_self]
    rcases join_cases hka hkb hne with hmerges | hunite
    · generalize a.join b = c at hmerges
      cases hmerges with
      | intFloat | floatInt | boolInt | intBool => exact wellFormed_of_isLeaf rfl
      | @list s t =>
        exact wellFormed_list.mpr
          (ih s (.component (.listElem s)) (wellFormed_list.mp ha) (wellFormed_list.mp hb))
      | @set s t =>
        exact wellFormed_set.mpr
          (ih s (.component (.setElem s)) (wellFormed_set.mp ha) (wellFormed_set.mp hb))
      | @dict k k' v v' =>
        obtain ⟨hk, hv⟩ := wellFormed_dict.mp ha
        obtain ⟨hk', hv'⟩ := wellFormed_dict.mp hb
        exact wellFormed_dict.mpr ⟨ih k (.component (.key k v)) hk hk',
          ih v (.component (.value k v)) hv hv'⟩
    · rw [hunite]
      exact ha.unite hb hka hkb hne

theorem wellFormed_joinAll {ts : List Ty} (h : ∀ t ∈ ts, t.WellFormed) :
    (joinAll ts).WellFormed := by
  unfold joinAll
  exact List.foldlRecOn ts Ty.join (wellFormed_of_isLeaf rfl) fun _ hacc t ht =>
    hacc.join (h t ht)

/-! ## Representation -/

/-- A union with a callable member can be reached through containers and unions. What stands in the
signature of a callable does not count. -/
def MixesCallables (t : Ty) : Prop :=
  ∃ ts, Relation.ReflTransGen Component (.union ts) t ∧ ∃ m ∈ ts, m.isCallable = true

theorem mixesCallables_iff {t : Ty} :
    t.MixesCallables ↔
      (∃ ts, t = .union ts ∧ ∃ m ∈ ts, m.isCallable = true) ∨
        ∃ u, Component u t ∧ u.MixesCallables := by
  constructor
  · rintro ⟨ts, hts, hm⟩
    rcases hts.cases_tail with rfl | ⟨u, hu, hcomponent⟩
    · exact .inl ⟨ts, rfl, hm⟩
    · exact .inr ⟨u, hcomponent, ts, hu, hm⟩
  · rintro (⟨ts, rfl, hm⟩ | ⟨u, hcomponent, ts, hu, hm⟩)
    · exact ⟨ts, .refl, hm⟩
    · exact ⟨ts, hu.tail hcomponent, hm⟩

theorem mixesCallables_union {ts : List Ty} :
    (Ty.union ts).MixesCallables ↔ ∃ m ∈ ts, m.isCallable = true ∨ m.MixesCallables := by
  rw [mixesCallables_iff]
  simp [← exists_or, and_or_left]

theorem allRepresentable_eq_all (ts : List Ty) :
    allRepresentable ts = ts.all isRepresentable := by
  induction ts with
  | nil => rfl
  | cons t ts ih => rw [allRepresentable, ih, List.all_cons]

theorem dataMembers_eq_all (ts : List Ty) :
    dataMembers ts = ts.all fun t => !t.isCallable && !t.isUnion && t.isRepresentable := by
  induction ts with
  | nil => rfl
  | cons t ts ih => rw [dataMembers, ih, List.all_cons]

/-- **Which well-formed types have no static representation**: those in which a union with a
callable member can be reached. -/
theorem isRepresentable_eq_false_iff {t : Ty} (h : t.WellFormed) :
    t.isRepresentable = false ↔ t.MixesCallables := by
  induction t using part_induction with
  | h t ih =>
    have hcomponent : ∀ u, Component u t → (u.isRepresentable = false ↔ u.MixesCallables) :=
      fun u hu => ih u (.component hu) (h.part (.component hu))
    cases t with
    | union ts =>
      obtain ⟨hproper, -⟩ := wellFormed_union.mp h
      rw [mixesCallables_union, isRepresentable, dataMembers_eq_all, List.all_eq_false]
      refine exists_congr fun m => and_congr_right fun hm => ?_
      rw [← hcomponent m (.member hm)]
      have hunion : m.isUnion = false := (isPlain_iff.mp (hproper.plain m hm)).2
      cases m.isCallable <;> cases m.isRepresentable <;> simp [hunion]
    | list t => rw [mixesCallables_iff, isRepresentable, hcomponent t (.listElem t)]; simp
    | set t => rw [mixesCallables_iff, isRepresentable, hcomponent t (.setElem t)]; simp
    | dict k v =>
      rw [mixesCallables_iff, isRepresentable, Bool.and_eq_false_iff, hcomponent k (.key k v),
        hcomponent v (.value k v)]
      simp
    | tuple ts =>
      rw [mixesCallables_iff, isRepresentable, allRepresentable_eq_all, List.all_eq_false]
      simp only [reduceCtorEq, false_and, exists_false, false_or, component_tuple,
        Bool.not_eq_true]
      exact exists_congr fun m => and_congr_right fun hm => hcomponent m (.position hm)
    | _ =>
      refine ⟨fun hrefused => (by cases hrefused), fun hmixes => ?_⟩
      rcases mixesCallables_iff.mp hmixes with ⟨ts, hts, -⟩ | ⟨u, hu, -⟩
      · cases hts
      · cases hu

end Ty

end ClosureConversion
