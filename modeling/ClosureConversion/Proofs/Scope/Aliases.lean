import ClosureConversion.Proofs.Scope.Links
import ClosureConversion.Proofs.Scope.Lookup
import ClosureConversion.Scope.Assignment

/-! # Aliases and the objects that names hold -/

set_option autoImplicit false

namespace ClosureConversion

/-! ## What an assignment does to links -/

namespace Scope

variable {s : Scope} {p : String}

theorem mem_aliasesOf {q : String} :
    q ∈ s.aliasesOf p ↔ s.isDeclared q = true ∧ q ≠ p ∧ s.aliasRoot q = s.aliasRoot p := by
  unfold aliasesOf
  rw [List.mem_mergeSort, List.mem_filter, mem_boundNames]
  simp

theorem aliasOf_congr {t : Scope} (h : t.lookup p = s.lookup p) : t.aliasOf p = s.aliasOf p := by
  rw [aliasOf, h, aliasOf]

theorem aliasOf_modifyBinding (s : Scope) (n : String) (link : Option String)
    (h : s.isDeclared n = true) :
    (s.modifyBinding n ({ · with aliasOf := link })).aliasOf n = link := by
  obtain ⟨b, hb⟩ := Option.isSome_iff_exists.mp h
  rw [aliasOf, lookup_modifyBinding, hb]
  rfl

end Scope

namespace Assignment

variable {s : Scope} {a : Assignment} {n : String}

theorem lookup_bind_of_ne (h : a.name ≠ n) (s : Scope) (isMutable : Bool) :
    (a.bind s isMutable).lookup n = s.lookup n := by
  refine a.bind_elim s isMutable (fun ident b => ?_) (fun f => ?_) fun t ht => ?_
  · rw [Scope.lookup_declareAs, if_neg h]
  · exact Scope.lookup_modifyBinding_of_ne h s f
  · rw [Scope.lookup_recordShadow, ht]

/-- A name that is declared anew has no link at first. -/
theorem lookup_bind_plan (s : Scope) (n : String) (t : Ty) (isMutable : Bool) :
    ∃ b, ((plan s n t).bind s isMutable).lookup n = some b ∧
      b.aliasOf = if (plan s n t).declares then none else s.aliasOf n := by
  have hname : (plan s n t).name = n := rfl
  unfold Assignment.bind declares
  rw [hname]
  cases hresolution : (plan s n t).resolution with
  | fresh => exact ⟨_, (Scope.lookup_declareAs ..).trans (if_pos rfl), rfl⟩
  | reuse =>
    obtain ⟨b, hb⟩ : ∃ b, s.lookup n = some b := by
      have hresolve : s.resolve n t = .reuse := hresolution
      unfold Scope.resolve at hresolve
      split at hresolve
      · cases hresolve
      · exact ⟨_, Scope.lookup_of_lookupInFunction ‹_›⟩
    exact ⟨_, (Scope.lookup_modifyBinding ..).trans (congrArg (Option.map _) hb),
      by rw [Scope.aliasOf, hb]; rfl⟩
  | shadow ident =>
    dsimp only
    split
    · exact ⟨_, (Scope.lookup_recordShadow ..).trans ((Scope.lookup_declareAs ..).trans
        (if_pos rfl)), rfl⟩
    · exact ⟨_, (Scope.lookup_declareAs ..).trans (if_pos rfl), rfl⟩

theorem lookup_commit_of_ne (h : a.name ≠ n) (s : Scope) (isMutable : Bool)
    (source : Option String) : (a.commit s isMutable source).lookup n = s.lookup n := by
  obtain ⟨link, hcommit⟩ := a.commit_eq s isMutable source
  rw [hcommit, Scope.lookup_modifyBinding_of_ne h, lookup_bind_of_ne h]

theorem isDeclared_commit {isMutable : Bool} (h : (a.bind s isMutable).isDeclared a.name = true)
    (source : Option String) : (a.commit s isMutable source).isDeclared a.name = true := by
  obtain ⟨link, hcommit⟩ := a.commit_eq s isMutable source
  rw [hcommit, Scope.isDeclared, Scope.lookup_modifyBinding, Option.isSome_map]
  exact h

theorem aliasOf_commit_none {isMutable : Bool}
    (h : (a.bind s isMutable).isDeclared a.name = true) :
    (a.commit s isMutable none).aliasOf a.name = none :=
  Scope.aliasOf_modifyBinding _ a.name none h

theorem aliasOf_commit_some {isMutable : Bool} (ht : a.ty.isReference = true)
    (h : (a.bind s isMutable).isDeclared a.name = true) (y : String) :
    (a.commit s isMutable (some y)).aliasOf a.name =
      if (a.bind s isMutable).isDeclared y = true ∧ (a.bind s isMutable).aliasRoot y ≠ a.name then
        some ((a.bind s isMutable).aliasRoot y)
      else none := by
  unfold commit Scope.recordAlias Scope.clearAlias
  dsimp only
  rw [ht, Bool.true_and]
  by_cases hy : (a.bind s isMutable).isDeclared y = true
  · by_cases hroot : (a.bind s isMutable).aliasRoot y = a.name
    · rw [if_pos hy, if_pos hroot, if_neg fun hc => hc.2 hroot]
      exact Scope.aliasOf_modifyBinding _ a.name none h
    · rw [if_pos hy, if_neg hroot, if_pos ⟨hy, hroot⟩]
      exact Scope.aliasOf_modifyBinding _ a.name _ h
  · rw [if_neg hy, if_neg fun hc => hy hc.1]
    exact Scope.aliasOf_modifyBinding _ a.name none h

end Assignment

/-! ## Objects -/

/-- A container, with the name for which it was made. -/
structure Object where
  maker : String
  serial : Nat
  deriving DecidableEq

/-- What the names hold, and the number of the next container. -/
structure Store where
  holds : String → Option Object
  next : Nat

/-- Every name of the scope holds a container of its own. -/
def Store.ofScope (s : Scope) : Store where
  holds n := if s.isDeclared n then some ⟨n, 0⟩ else none
  next := 1

/-- An assignment of a fresh container or of what another name holds. -/
structure Move where
  name : String
  source : Option String
  isMutable : Bool := true

namespace Move

/-- What is assigned. A name that holds nothing brings a fresh container too. -/
def value (m : Move) (σ : Store) : Object :=
  (m.source.bind σ.holds).getD ⟨m.name, σ.next⟩

def store (m : Move) (σ : Store) : Store where
  holds n := if m.name = n then some (m.value σ) else σ.holds n
  next := σ.next + 1

/-- The scope once the name is bound to a value of type `t`, before its link is set. -/
def bound (t : Ty) (m : Move) (s : Scope) : Scope :=
  (Assignment.plan s m.name t).bind s m.isMutable

/-- The assignment of a value of type `t`, planned and carried out. -/
def scope (t : Ty) (m : Move) (s : Scope) : Scope :=
  (Assignment.plan s m.name t).commit s m.isMutable m.source

/-- A name gets another container than the one that was made for it, which a further name holds. -/
def Abandons (m : Move) (σ : Store) : Prop :=
  ∃ o p, σ.holds m.name = some o ∧ o.maker = m.name ∧ σ.holds p = some o ∧ p ≠ m.name ∧
    m.value σ ≠ o

/-- A name that holds a container made for another one is assigned to itself and declared anew. -/
def Cuts (t : Ty) (m : Move) (s : Scope) (σ : Store) : Prop :=
  ∃ o, σ.holds m.name = some o ∧ o.maker ≠ m.name ∧ m.source = some m.name ∧
    (Assignment.plan s m.name t).declares = true

end Move

/-- Two names have one root exactly if they hold one object. -/
def Scope.Agrees (s : Scope) (σ : Store) : Prop :=
  ∀ p q, s.isDeclared p = true → s.isDeclared q = true →
    (s.aliasRoot p = s.aliasRoot q ↔ σ.holds p = σ.holds q)

/-- Every link leads to the name for which the object was made, and that name holds it still. -/
structure Linked (s : Scope) (σ : Store) : Prop where
  declared : ∀ p, s.isDeclared p = (σ.holds p).isSome
  link : ∀ p o, σ.holds p = some o → s.aliasOf p = if o.maker = p then none else some o.maker
  home : ∀ p o, σ.holds p = some o → σ.holds o.maker = some o

theorem linked_ofScope {s : Scope} (h : ∀ n, s.aliasOf n = none) : Linked s (.ofScope s) := by
  have hholds : ∀ {p o}, (Store.ofScope s).holds p = some o → o = ⟨p, 0⟩ := by
    intro p o ho
    unfold Store.ofScope at ho
    dsimp only at ho
    split at ho
    · exact (Option.some.inj ho).symm
    · cases ho
  refine ⟨fun p => ?_, fun p o ho => ?_, fun p o ho => ?_⟩
  · unfold Store.ofScope
    dsimp only
    cases s.isDeclared p <;> rfl
  · obtain rfl := hholds ho
    exact (h p).trans (if_pos rfl).symm
  · obtain rfl := hholds ho
    exact ho

namespace Linked

variable {s : Scope} {σ : Store} (h : Linked s σ)

include h

theorem holds_of_declared {p : String} (hp : s.isDeclared p = true) : ∃ o, σ.holds p = some o := by
  rw [h.declared] at hp
  exact Option.isSome_iff_exists.mp hp

/-- The name for which an object was made has no link. -/
theorem aliasOf_maker {p : String} {o : Object} (ho : σ.holds p = some o) :
    s.aliasOf o.maker = none :=
  (h.link o.maker o (h.home p o ho)).trans (if_pos rfl)

theorem aliasRoot {p : String} {o : Object} (ho : σ.holds p = some o) :
    s.aliasRoot p = o.maker := by
  have hlink := h.link p o ho
  split at hlink
  · rename_i hmaker
    rw [Scope.aliasRoot_of_none hlink, hmaker]
  · exact Scope.aliasRoot_of_some hlink (h.aliasOf_maker ho)

theorem agrees : s.Agrees σ := by
  intro p q hp hq
  obtain ⟨o, ho⟩ := h.holds_of_declared hp
  obtain ⟨o', ho'⟩ := h.holds_of_declared hq
  rw [h.aliasRoot ho, h.aliasRoot ho', ho, ho']
  refine ⟨fun hmaker => ?_, fun hsame => congrArg Object.maker (Option.some.inj hsame)⟩
  rw [← h.home p o ho, ← h.home q o' ho', hmaker]

end Linked

/-! ## Steps -/

namespace Move

variable {t : Ty} {m : Move} {s : Scope} {σ : Store} {n : String}

theorem holds_store_self (m : Move) (σ : Store) : (m.store σ).holds m.name = some (m.value σ) :=
  if_pos rfl

theorem holds_store_of_ne (h : n ≠ m.name) (σ : Store) : (m.store σ).holds n = σ.holds n :=
  if_neg h.symm

theorem lookup_bound_of_ne (h : n ≠ m.name) (s : Scope) :
    (m.bound t s).lookup n = s.lookup n :=
  Assignment.lookup_bind_of_ne (a := .plan s m.name t) h.symm s _

theorem isDeclared_bound_self (t : Ty) (m : Move) (s : Scope) :
    (m.bound t s).isDeclared m.name = true := by
  obtain ⟨b, hb, -⟩ := Assignment.lookup_bind_plan s m.name t m.isMutable
  exact Option.isSome_iff_exists.mpr ⟨b, hb⟩

theorem aliasOf_bound_self (t : Ty) (m : Move) (s : Scope) :
    (m.bound t s).aliasOf m.name =
      if (Assignment.plan s m.name t).declares then none else s.aliasOf m.name := by
  obtain ⟨b, hb, hlink⟩ := Assignment.lookup_bind_plan s m.name t m.isMutable
  rw [Scope.aliasOf, bound, hb]
  exact hlink

theorem lookup_scope_of_ne (h : n ≠ m.name) (s : Scope) :
    (m.scope t s).lookup n = s.lookup n :=
  Assignment.lookup_commit_of_ne (a := .plan s m.name t) h.symm s _ _

theorem aliasOf_scope_of_ne (h : n ≠ m.name) (s : Scope) :
    (m.scope t s).aliasOf n = s.aliasOf n :=
  Scope.aliasOf_congr (lookup_scope_of_ne h s)

theorem isDeclared_scope_of_ne (h : n ≠ m.name) (s : Scope) :
    (m.scope t s).isDeclared n = s.isDeclared n :=
  congrArg Option.isSome (lookup_scope_of_ne h s)

theorem isDeclared_scope_self (t : Ty) (m : Move) (s : Scope) :
    (m.scope t s).isDeclared m.name = true :=
  Assignment.isDeclared_commit (a := .plan s m.name t) (isDeclared_bound_self t m s) m.source

theorem aliasOf_scope_of_none (h : m.source = none) (s : Scope) :
    (m.scope t s).aliasOf m.name = none := by
  rw [scope, h]
  exact Assignment.aliasOf_commit_none (a := .plan s m.name t) (isDeclared_bound_self t m s)

theorem aliasOf_scope_of_some {y : String} (ht : t.isReference = true) (h : m.source = some y)
    (s : Scope) :
    (m.scope t s).aliasOf m.name =
      if (m.bound t s).isDeclared y = true ∧ (m.bound t s).aliasRoot y ≠ m.name then
        some ((m.bound t s).aliasRoot y)
      else none := by
  rw [scope, h]
  exact Assignment.aliasOf_commit_some (a := .plan s m.name t) ht (isDeclared_bound_self t m s) y

/-- The object that is assigned is fresh, or a name holds it. -/
theorem value_cases (m : Move) (σ : Store) :
    m.value σ = ⟨m.name, σ.next⟩ ∧ (∀ y, m.source = some y → σ.holds y = none) ∨
      ∃ y, m.source = some y ∧ σ.holds y = some (m.value σ) := by
  unfold value
  cases hsource : m.source with
  | none => exact .inl ⟨rfl, fun y hy => nomatch hy⟩
  | some y =>
    cases hy : σ.holds y with
    | none =>
      refine .inl ⟨by simp [hy], fun y' hy' => ?_⟩
      cases hy'
      exact hy
    | some o => exact .inr ⟨y, rfl, by simp [hy]⟩

end Move

section Step

variable {t : Ty} {m : Move} {s : Scope} {σ : Store}

/-- Once the name is bound, the links lead where they led before, unless one was cut. -/
theorem Linked.aliasRoot_bound (h : Linked s σ) {y : String} {o : Object}
    (hy : σ.holds y = some o) (hsource : m.source = some y) (hcuts : ¬ m.Cuts t s σ) :
    (m.bound t s).aliasRoot y = o.maker := by
  have hother : ∀ n, n ≠ m.name → (m.bound t s).aliasOf n = s.aliasOf n := fun n hn =>
    Scope.aliasOf_congr (Move.lookup_bound_of_ne hn s)
  have hmaker : (m.bound t s).aliasOf o.maker = none := by
    by_cases hname : o.maker = m.name
    · rw [hname, Move.aliasOf_bound_self, ← hname, h.aliasOf_maker hy, ite_self]
    · exact (hother _ hname).trans (h.aliasOf_maker hy)
  by_cases howner : o.maker = y
  · rw [← howner]
    exact Scope.aliasRoot_of_none hmaker
  · have hold := (h.link y o hy).trans (if_neg howner)
    refine Scope.aliasRoot_of_some ?_ hmaker
    by_cases hname : y = m.name
    · subst hname
      have hreused : ¬ (Assignment.plan s m.name t).declares = true := fun hdeclares =>
        hcuts ⟨o, hy, howner, hsource, hdeclares⟩
      rw [Move.aliasOf_bound_self, if_neg hreused, hold]
    · rw [hother y hname, hold]

/-- The name that is assigned is linked to the name for which its object was made. -/
theorem Linked.aliasOf_scope_self (h : Linked s σ) (ht : t.isReference = true)
    (hcuts : ¬ m.Cuts t s σ) :
    (m.scope t s).aliasOf m.name =
      if (m.value σ).maker = m.name then none else some (m.value σ).maker := by
  rcases m.value_cases σ with ⟨hfresh, hnothing⟩ | ⟨y, hsource, hy⟩
  · rw [hfresh, if_pos rfl]
    cases hsource : m.source with
    | none => exact Move.aliasOf_scope_of_none hsource s
    | some y =>
      have hlookup : s.lookup y = none := by
        have hdeclared := h.declared y
        rw [hnothing y hsource] at hdeclared
        exact Option.not_isSome_iff_eq_none.mp (Bool.eq_false_iff.mp hdeclared)
      rw [Move.aliasOf_scope_of_some ht hsource]
      refine if_neg fun ⟨hdeclared, hroot⟩ => ?_
      by_cases hname : y = m.name
      · subst hname
        have hunlinked : s.aliasOf m.name = none := by
          rw [Scope.aliasOf, hlookup]
          rfl
        exact hroot (Scope.aliasRoot_of_none (by rw [Move.aliasOf_bound_self, hunlinked, ite_self]))
      · rw [Scope.isDeclared, Move.lookup_bound_of_ne hname, hlookup] at hdeclared
        cases hdeclared
  · have hdeclared : (m.bound t s).isDeclared y = true := by
      by_cases hname : y = m.name
      · rw [hname]
        exact Move.isDeclared_bound_self t m s
      · rw [Scope.isDeclared, Move.lookup_bound_of_ne hname, ← Scope.isDeclared, h.declared, hy]
        rfl
    rw [Move.aliasOf_scope_of_some ht hsource, h.aliasRoot_bound hy hsource hcuts]
    by_cases hmaker : (m.value σ).maker = m.name
    · rw [if_pos hmaker, if_neg fun hc => hc.2 hmaker]
    · rw [if_neg hmaker, if_pos ⟨hdeclared, hmaker⟩]

/-- An object that was made for another name is held by that name. -/
theorem Linked.holds_maker_value (h : Linked s σ) (hmaker : (m.value σ).maker ≠ m.name) :
    σ.holds (m.value σ).maker = some (m.value σ) := by
  rcases m.value_cases σ with ⟨hfresh, -⟩ | ⟨y, -, hy⟩
  · rw [hfresh] at hmaker
    exact absurd rfl hmaker
  · exact h.home y _ hy

/-- **A step that neither abandons a container nor cuts a link** keeps all links right. -/
theorem Linked.step (h : Linked s σ) (ht : t.isReference = true) (habandons : ¬ m.Abandons σ)
    (hcuts : ¬ m.Cuts t s σ) : Linked (m.scope t s) (m.store σ) := by
  have hvalue : ∀ o, (m.store σ).holds m.name = some o → m.value σ = o := fun o ho =>
    Option.some.inj ((m.holds_store_self σ).symm.trans ho)
  refine ⟨fun p => ?_, fun p o ho => ?_, fun p o ho => ?_⟩ <;> by_cases hp : p = m.name
  · rw [hp, m.holds_store_self, Move.isDeclared_scope_self]
    rfl
  · rw [Move.holds_store_of_ne hp, Move.isDeclared_scope_of_ne hp, h.declared]
  · subst hp
    obtain rfl := hvalue o ho
    exact h.aliasOf_scope_self ht hcuts
  · rw [Move.holds_store_of_ne hp] at ho
    rw [Move.aliasOf_scope_of_ne hp, h.link p o ho]
  · subst hp
    obtain rfl := hvalue o ho
    by_cases hmaker : (m.value σ).maker = m.name
    · rw [hmaker, m.holds_store_self]
    · rw [Move.holds_store_of_ne hmaker, h.holds_maker_value hmaker]
  · rw [Move.holds_store_of_ne hp] at ho
    by_cases hmaker : o.maker = m.name
    · -- the name holds `o` before, and `p` does too, so it must not get another object
      have hown := h.home p o ho
      rw [hmaker] at hown ⊢
      rw [m.holds_store_self]
      by_contra hne
      exact habandons ⟨o, p, hown, hmaker, ho, hp, fun heq => hne (congrArg some heq)⟩
    · rw [Move.holds_store_of_ne hmaker, h.home p o ho]

/-- The link of the further name leads through the name to the object that it got instead. -/
theorem Linked.not_agrees_of_abandons (h : Linked s σ) (ht : t.isReference = true)
    (habandons : m.Abandons σ) : ¬ (m.scope t s).Agrees (m.store σ) := by
  obtain ⟨o, p, hown, hmaker, hp, hne, hvalue⟩ := habandons
  have hcuts : ¬ m.Cuts t s σ := fun ⟨o', ho', hmaker', _, _⟩ => by
    obtain rfl := Option.some.inj (hown.symm.trans ho')
    exact hmaker' hmaker
  have hlink : (m.scope t s).aliasOf p = some m.name := by
    rw [Move.aliasOf_scope_of_ne hne, h.link p o hp, hmaker, if_neg hne.symm]
  have hself := h.aliasOf_scope_self ht hcuts
  have hroot : (m.scope t s).aliasRoot p = (m.scope t s).aliasRoot m.name := by
    split at hself
    · rw [Scope.aliasRoot_of_some hlink hself, Scope.aliasRoot_of_none hself]
    · rename_i hother
      have hend : (m.scope t s).aliasOf (m.value σ).maker = none := by
        rw [Move.aliasOf_scope_of_ne hother, h.aliasOf_maker (h.holds_maker_value hother)]
      rw [Scope.aliasRoot_of_leads (.head hlink (.single hself)) hend,
        Scope.aliasRoot_of_some hself hend]
  have hdeclared : (m.scope t s).isDeclared p = true := by
    rw [Move.isDeclared_scope_of_ne hne, h.declared, hp]
    rfl
  intro hagrees
  have hsame := (hagrees p m.name hdeclared (m.isDeclared_scope_self t s)).mp hroot
  rw [Move.holds_store_of_ne hne, hp, m.holds_store_self] at hsame
  exact hvalue (Option.some.inj hsame).symm

/-- The name holds what it held, and its link is gone. -/
theorem Linked.not_agrees_of_cuts (h : Linked s σ) (ht : t.isReference = true)
    (hcuts : m.Cuts t s σ) : ¬ (m.scope t s).Agrees (m.store σ) := by
  obtain ⟨o, hown, hmaker, hsource, hdeclares⟩ := hcuts
  have hvalue : m.value σ = o := by
    rw [Move.value, hsource, Option.bind_some, hown]
    rfl
  have hself : (m.scope t s).aliasRoot m.name = m.name := by
    have hbound : (m.bound t s).aliasRoot m.name = m.name :=
      Scope.aliasRoot_of_none (by rw [Move.aliasOf_bound_self, if_pos hdeclares])
    refine Scope.aliasRoot_of_none ?_
    rw [Move.aliasOf_scope_of_some ht hsource]
    exact if_neg fun hc => hc.2 hbound
  have hother : (m.scope t s).aliasRoot o.maker = o.maker :=
    Scope.aliasRoot_of_none (by rw [Move.aliasOf_scope_of_ne hmaker, h.aliasOf_maker hown])
  have hdeclared : (m.scope t s).isDeclared o.maker = true := by
    rw [Move.isDeclared_scope_of_ne hmaker, h.declared, h.home m.name o hown]
    rfl
  intro hagrees
  refine hmaker ?_
  rw [← hother, ← hself, hagrees _ _ hdeclared (m.isDeclared_scope_self t s), m.holds_store_self,
    Move.holds_store_of_ne hmaker, h.home m.name o hown, hvalue]

end Step

/-! ## Runs -/

namespace Move

def runScope (t : Ty) (s : Scope) (moves : List Move) : Scope :=
  moves.foldl (fun s m => m.scope t s) s

def runStore (σ : Store) (moves : List Move) : Store := moves.foldl (fun σ m => m.store σ) σ

/-- The step `m` after the steps `before` neither abandons a container nor cuts a link. -/
def Safe (t : Ty) (s : Scope) (before : List Move) (m : Move) : Prop :=
  ¬ m.Abandons (runStore (.ofScope s) before) ∧
    ¬ m.Cuts t (runScope t s before) (runStore (.ofScope s) before)

variable {t : Ty} {s : Scope}

theorem runScope_concat (moves : List Move) (m : Move) :
    runScope t s (moves ++ [m]) = m.scope t (runScope t s moves) :=
  List.foldl_append

theorem runStore_concat {σ : Store} (moves : List Move) (m : Move) :
    runStore σ (moves ++ [m]) = m.store (runStore σ moves) :=
  List.foldl_append

end Move

open Move

variable {t : Ty} {s : Scope}

/-- As long as all steps are safe, every link leads to a maker. -/
theorem linked_run (ht : t.isReference = true) (hs : ∀ n, s.aliasOf n = none) (moves : List Move)
    (hsafe : ∀ before m, before ++ [m] <+: moves → Safe t s before m) :
    Linked (runScope t s moves) (runStore (.ofScope s) moves) := by
  induction moves using List.reverseRecOn with
  | nil => exact linked_ofScope hs
  | append_singleton moves m ih =>
    have hlinked := ih fun before m' hbefore =>
      hsafe before m' (hbefore.trans (List.prefix_append moves [m]))
    obtain ⟨habandons, hcuts⟩ := hsafe moves m (List.prefix_refl _)
    rw [runScope_concat, runStore_concat]
    exact hlinked.step ht habandons hcuts

/-- The first step that is not safe shows at once. -/
theorem safe_of_agrees (ht : t.isReference = true) (hs : ∀ n, s.aliasOf n = none)
    (moves : List Move)
    (hagrees : ∀ before, before <+: moves →
      (runScope t s before).Agrees (runStore (.ofScope s) before)) :
    ∀ before m, before ++ [m] <+: moves → Safe t s before m := by
  induction moves using List.reverseRecOn with
  | nil =>
    intro before m hbefore
    simp at hbefore
  | append_singleton moves m ih =>
    have hsafe := ih fun before hbefore =>
      hagrees before (hbefore.trans (List.prefix_append moves [m]))
    have hlinked := linked_run ht hs moves hsafe
    have hlast := hagrees (moves ++ [m]) (List.prefix_refl _)
    rw [runScope_concat, runStore_concat] at hlast
    intro before m' hbefore
    rcases List.prefix_concat_iff.mp hbefore with heq | hbefore
    · obtain ⟨rfl, hm⟩ := List.append_inj' heq rfl
      obtain rfl := List.singleton_inj.mp hm
      exact ⟨fun habandons => hlinked.not_agrees_of_abandons ht habandons hlast,
        fun hcuts => hlinked.not_agrees_of_cuts ht hcuts hlast⟩
    · exact hsafe before m' hbefore

/-- Roots tell objects apart exactly if the lists of aliases do. -/
theorem Scope.agrees_iff_aliasesOf {s : Scope} {σ : Store} :
    s.Agrees σ ↔ ∀ p, s.isDeclared p = true → ∀ q,
      q ∈ s.aliasesOf p ↔ s.isDeclared q = true ∧ q ≠ p ∧ σ.holds q = σ.holds p := by
  refine ⟨fun h p hp q => ?_, fun h p q hp hq => ?_⟩
  · rw [mem_aliasesOf]
    exact and_congr_right fun hq => and_congr_right fun _ => h q p hq hp
  · by_cases hpq : p = q
    · subst hpq
      exact iff_of_true rfl rfl
    · have hmem := h q hq p
      rw [mem_aliasesOf] at hmem
      simpa [hp, hpq] using hmem

/-- **Along a run the links are right exactly if no step abandons a container or cuts a link.** In
a scope without aliases let names be assigned fresh containers and each other, all of one type with
reference semantics. After every step two names have one root exactly if they hold one object, if
and only if every step is safe: no name for which a container was made gets another one while a
further name holds that container, and no alias is assigned to itself and declared anew. And at
each point the roots are right exactly if `aliasesOf` lists the other names that hold the object. -/
theorem aliases_agree_iff {t : Ty} (ht : t.isReference = true) {s : Scope}
    (hs : ∀ n, s.aliasOf n = none) (moves : List Move) :
    ((∀ before, before <+: moves →
        (runScope t s before).Agrees (runStore (.ofScope s) before)) ↔
      ∀ before m, before ++ [m] <+: moves → Safe t s before m) ∧
    ∀ before, before <+: moves →
      ((runScope t s before).Agrees (runStore (.ofScope s) before) ↔
        ∀ p, (runScope t s before).isDeclared p = true → ∀ q,
          q ∈ (runScope t s before).aliasesOf p ↔
            (runScope t s before).isDeclared q = true ∧ q ≠ p ∧
              (runStore (.ofScope s) before).holds q = (runStore (.ofScope s) before).holds p) := by
  refine ⟨⟨safe_of_agrees ht hs moves, fun hsafe before hbefore => ?_⟩,
    fun before _ => Scope.agrees_iff_aliasesOf⟩
  have hlinked := linked_run ht hs before fun before' m hbefore' =>
    hsafe before' m (hbefore'.trans hbefore)
  exact hlinked.agrees

/-- **A list that is renewed after it was shared**, as in `a = []; b = a; a = []`: the two names
hold different lists, and `b` is still listed as an alias of `a`. -/
theorem aliases_agree_iff_renewed :
    let s : Scope := ({} : Scope).pushFunction "f" []
    let moves : List Move := [⟨"a", none, true⟩, ⟨"b", some "a", true⟩, ⟨"a", none, true⟩]
    (Ty.list .int).isReference = true ∧ (∀ n, s.aliasOf n = none) ∧
      (runStore (.ofScope s) moves).holds "a" ≠ (runStore (.ofScope s) moves).holds "b" ∧
      (runScope (.list .int) s moves).aliasesOf "a" = ["b"] ∧
      ¬ ∀ before, before <+: moves →
        (runScope (.list .int) s before).Agrees (runStore (.ofScope s) before) := by
  intro s moves
  have hs : ∀ n, s.aliasOf n = none := fun n => rfl
  have hdiffer : (runStore (.ofScope s) moves).holds "a" ≠
      (runStore (.ofScope s) moves).holds "b" := by decide
  refine ⟨rfl, hs, hdiffer, by decide +kernel, fun hagrees => ?_⟩
  have hsafe := (aliases_agree_iff rfl hs moves).1.mp hagrees (moves.take 2) ⟨"a", none, true⟩
    (List.prefix_refl _)
  exact hsafe.1 ⟨⟨"a", 1⟩, "b", by decide, rfl, by decide, by decide, by decide⟩

end ClosureConversion
