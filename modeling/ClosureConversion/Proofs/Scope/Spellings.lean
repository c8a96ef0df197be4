import ClosureConversion.Proofs.Scope.Entries
import ClosureConversion.Proofs.Scope.Fresh

/-! # Spellings within a function -/

set_option autoImplicit false

namespace ClosureConversion

theorem NameMap.mem_values_of_get? {α : Type} {m : NameMap α} {n : String} {a : α}
    (h : m.get? n = some a) : a ∈ m.values :=
  List.mem_map_of_mem (mem_of_get? h)

namespace Scope

variable {s t u : Scope}

/-! ## Frames of functions -/

/-- Which frames are functions', the module's first. -/
def functions (s : Scope) : List Bool := (s.allFrames.map Frame.isFunction).reverse

theorem length_functions (s : Scope) : s.functions.length = s.depth := by
  rw [functions, List.length_reverse, List.length_map, length_allFrames]
  rfl

theorem Adjusts.functions {kinds : Bool} (h : s.Adjusts kinds t) : t.functions = s.functions := by
  have hmap : ∀ {fs gs : List Frame}, List.Forall₂ (Frame.Adjusts kinds) fs gs →
      gs.map Frame.isFunction = fs.map Frame.isFunction := by
    intro fs gs hfg
    induction hfg with
    | nil => rfl
    | cons hhead _ ih => rw [List.map_cons, List.map_cons, hhead.isFunction, ih]
  unfold Scope.functions
  rw [hmap h.allFrames]

theorem Binds.functions {d : Declaration} (h : Binds d s t) : t.functions = s.functions := by
  obtain ⟨b, hframes⟩ := h.frames
  unfold Scope.functions
  rw [hframes]
  refine congrArg List.reverse (List.ext_getElem? fun k => ?_)
  rw [List.getElem?_map, List.getElem?_map, List.getElem?_modify, Option.map_eq_map,
    Option.map_map]
  refine congrArg (Option.map · _) (funext fun f => ?_)
  rw [Function.comp_apply]
  split <;> rfl

theorem functions_push (s : Scope) (kind : FrameKind) :
    (s.push kind).functions = s.functions ++ [Frame.isFunction { kind }] :=
  List.reverse_cons

theorem functions_popped (hs : s.Leveled) : ∃ more, s.functions = s.popped.functions ++ more := by
  rcases popped_cases true hs with ⟨-, heq⟩ | ⟨f, frames, r, renames, hframes, -, hadjusts⟩
  · exact ⟨[], by rw [heq, List.append_nil]⟩
  · refine ⟨[f.isFunction], ?_⟩
    rw [hadjusts.functions]
    unfold functions allFrames
    rw [hframes]
    exact List.reverse_cons

theorem functions_declareGlobal (s : Scope) (name : String) (ty : Ty) :
    (s.declareGlobal name ty).functions = s.functions := by
  unfold functions allFrames
  rw [List.map_append, List.map_append]
  rfl

/-! ## The innermost function -/

theorem functionStart_le (frames : List Frame) : functionStart frames ≤ frames.length := by
  induction frames with
  | nil => exact Nat.le_refl _
  | cons f rest ih =>
    rw [functionStart]
    split
    · exact Nat.le_refl _
    · exact Nat.le_succ_of_le ih

/-- The innermost function starts at the last frame that is a function's. -/
theorem functionStart_spec (s : Scope) :
    (functionStart s.frames = 0 ∨ s.functions[functionStart s.frames]? = some true) ∧
      ∀ k, functionStart s.frames < k → s.functions[k]? ≠ some true := by
  obtain ⟨base, frames, renames⟩ := s
  show (functionStart frames = 0 ∨
      ((frames ++ [base]).map Frame.isFunction).reverse[functionStart frames]? = some true) ∧
    ∀ k, functionStart frames < k →
      ((frames ++ [base]).map Frame.isFunction).reverse[k]? ≠ some true
  induction frames with
  | nil =>
    refine ⟨.inl rfl, fun k hk => ?_⟩
    rw [functionStart] at hk
    rw [List.getElem?_eq_none (show 1 ≤ k from hk)]
    exact fun h => by cases h
  | cons f rest ih =>
    have hlength : ((rest ++ [base]).map Frame.isFunction).reverse.length = rest.length + 1 := by
      rw [List.length_reverse, List.length_map, List.length_append, List.length_singleton]
    have hle := functionStart_le rest
    rw [List.cons_append, List.map_cons, List.reverse_cons, functionStart]
    cases hf : f.isFunction with
    | true =>
      rw [if_pos rfl]
      refine ⟨.inr ?_, fun k hk => ?_⟩
      · rw [List.getElem?_append_right (Nat.le_of_eq hlength), hlength, Nat.sub_self]
        rfl
      · have hout : rest.length + 1 + 1 ≤ k := hk
        rw [List.getElem?_eq_none (by rw [List.length_append, hlength]; exact hout)]
        exact fun h => by cases h
    | false =>
      rw [if_neg Bool.false_ne_true]
      refine ⟨ih.1.imp_right fun htrue => ?_, fun k hk => ?_⟩
      · rw [List.getElem?_append_left (by omega)]
        exact htrue
      · rcases Nat.lt_or_ge k (rest.length + 1) with hin | hout
        · rw [List.getElem?_append_left (by omega)]
          exact ih.2 k hk
        · rw [List.getElem?_append_right (by omega), List.getElem?_singleton]
          split <;> exact fun h => by cases h

/-- An identifier that is not taken spells nothing in the innermost function. -/
theorem spelled?_ne_of_not_taken (hs : s.Leveled) {ident : String} (hfree : ident ∉ s.taken)
    {i : Nat} (hi : functionStart s.frames ≤ i) (n : String) : s.spelled? i n ≠ some ident := by
  intro h
  have hlt := lt_depth_of_spelled? hs h
  have hlength := length_renames hs
  obtain ⟨r, hr, hident⟩ := Option.bind_eq_some_iff.mp h
  rw [List.getElem?_reverse (by rw [hlength]; exact hlt), hlength] at hr
  have hmem : r ∈ s.renames.frames.take (s.renames.depth - functionStart s.frames) := by
    refine List.mem_of_getElem? (i := s.depth - 1 - i) ?_
    rw [List.getElem?_take_of_lt (by rw [RenameTable.depth, hlength]; omega)]
    exact hr
  refine hfree (List.mem_append_right _ ?_)
  exact List.mem_flatMap.mpr ⟨r, hmem, NameMap.mem_values_of_get? hident⟩

/-! ## Spellings of all functions -/

/-- No two names of one function are spelled alike. Two frames belong to one function if no
function starts above the lower one and up to the upper one. -/
def Distinct (s : Scope) : Prop :=
  ∀ i j n m ident, i ≤ j → (∀ k, i < k → k ≤ j → s.functions[k]? ≠ some true) →
    s.spelled? i n = some ident → s.spelled? j m = some ident → i = j ∧ n = m

theorem Distinct.adjusts {kinds : Bool} (hs : s.Distinct) (h : s.Adjusts kinds t) : t.Distinct := by
  intro i j n m ident hij hsame hi hj
  rw [h.functions] at hsame
  rw [h.spelled?] at hi hj
  exact hs i j n m ident hij hsame hi hj

/-- A name that is spelled by a fresh identifier. -/
theorem Distinct.binds {d : Declaration} (hlevel : s.Leveled) (hs : s.Distinct) (h : Binds d s t)
    (hfree : ∀ i n, functionStart s.frames ≤ i → s.spelled? i n ≠ some d.ident)
    (hstart : functionStart s.frames ≤ d.index) : t.Distinct := by
  intro i j n m ident hij hsame hi hj
  rw [h.functions] at hsame
  rw [h.spelled? hlevel] at hi hj
  split at hi
  · rename_i hnew
    split at hj
    · rename_i hnew'
      exact ⟨hnew.1.trans hnew'.1.symm, hnew.2.trans hnew'.2.symm⟩
    · obtain rfl := Option.some.inj hi
      exact absurd hj (hfree j m (by omega))
  · split at hj
    · rename_i hnew'
      obtain rfl := Option.some.inj hj
      refine absurd hi (hfree i n ?_)
      rcases (functionStart_spec s).1 with hzero | htrue
      · omega
      · by_contra hbelow
        exact hsame _ (Nat.lt_of_not_le hbelow) (by omega) htrue
    · exact hs i j n m ident hij hsame hi hj

theorem Distinct.push (hlevel : s.Leveled) (hs : s.Distinct) (kind : FrameKind) :
    (s.push kind).Distinct := by
  intro i j n m ident hij hsame hi hj
  rw [spelled?_push] at hi hj
  have hj' := lt_depth_of_spelled? hlevel hj
  refine hs i j n m ident hij (fun k hik hkj => ?_) hi hj
  have hk := hsame k hik hkj
  rwa [functions_push, List.getElem?_append_left (by rw [length_functions]; omega)] at hk

theorem Distinct.popped (hlevel : s.Leveled) (hs : s.Distinct) : s.popped.Distinct := by
  intro i j n m ident hij hsame hi hj
  have hj' := lt_depth_of_spelled? (Op.leveled .pop hlevel) hj
  obtain ⟨more, hmore⟩ := functions_popped hlevel
  have hbefore : ∀ i n, s.popped.spelled? i n = some ident → s.spelled? i n = some ident := by
    intro i n h
    rcases spelled?_popped hlevel i n with hsame | hgone
    · exact hsame.symm.trans h
    · cases hgone.symm.trans h
  refine hs i j n m ident hij (fun k hik hkj => ?_) (hbefore i n hi) (hbefore j m hj)
  rw [hmore, List.getElem?_append_left (by rw [length_functions]; exact Nat.lt_of_le_of_lt hkj hj')]
  exact hsame k hik hkj

theorem Distinct.declareGlobal (hs : s.Distinct) (name : String) (ty : Ty) :
    (s.declareGlobal name ty).Distinct := by
  intro i j n m ident hij hsame hi hj
  rw [functions_declareGlobal] at hsame
  exact hs i j n m ident hij hsame hi hj

/-! ## Declarations under fresh identifiers -/

/-- Every name that the change declares gets an identifier that is fresh at that point. -/
def Change.takesFresh : Change → Bool
  | .declareAs .. => false
  | .declareInFunction .. => false
  | _ => true

def Op.takesFresh : Op → Bool
  | .change c => c.takesFresh
  | _ => true

theorem plan_ident {name : String} {ty : Ty}
    (h : (Assignment.plan s name ty).declares = true) :
    (Assignment.plan s name ty).ident = s.freshIdent name := by
  unfold Assignment.plan Assignment.declares at *
  dsimp only at *
  unfold resolve at *
  split
  · rfl
  · rename_i hreuse
    rw [hreuse] at h
    cases h
  · rename_i ident hshadow
    split at hshadow
    · cases hshadow
    · split at hshadow
      · cases hshadow
      · cases hshadow
      · cases hshadow
      · split at hshadow
        · cases hshadow
        · exact (Resolution.shadow.inj hshadow).symm

theorem hoistIndex_bounds (s : Scope) :
    functionStart s.frames ≤ s.hoistIndex ∧ functionStart s.frames ≤ s.depth - 1 := by
  have hle : functionStart s.frames ≤ s.depth - 1 := functionStart_le s.frames
  unfold hoistIndex
  split
  · exact ⟨Nat.le_refl _, hle⟩
  · exact ⟨hle, hle⟩

theorem Change.fresh_of_declares {c : Change} {d : Declaration} (h : c.takesFresh = true)
    (hd : c.declares? s = some d) : d.ident ∉ s.taken ∧ functionStart s.frames ≤ d.index := by
  obtain ⟨hhoist, hinner⟩ := hoistIndex_bounds s
  cases c with
  | declareAs | declareInFunction => cases h
  | declareFresh claimed hoisted base name b =>
    obtain rfl := Option.some.inj hd
    refine ⟨freshIdent_not_mem s base, ?_⟩
    cases hoisted with
    | true => exact hhoist
    | false => exact hinner
  | assign name ty isMutable source =>
    change (if _ then _ else _) = some d at hd
    split at hd
    · rename_i hdeclares
      obtain rfl := Option.some.inj hd
      refine ⟨?_, hinner⟩
      show (Assignment.plan s name ty).ident ∉ s.taken
      rw [plan_ident hdeclares]
      exact freshIdent_not_mem s name
    · cases hd
  | recordShadow | setType | setMutable | recordAlias | clearAlias | update | reserveIdent
    | claimIdent | reserveModuleIdent | claimModuleIdent => cases hd

/-- **An operation keeps the spellings of every function apart** if it takes fresh identifiers. -/
theorem Distinct.op {op : Op} (hlevel : s.Leveled) (hs : s.Distinct) (h : op.takesFresh = true) :
    (op.apply s).Distinct := by
  cases op with
  | pushFunction name formals => exact hs.push hlevel _
  | pushBlock => exact hs.push hlevel _
  | pop => exact hs.popped hlevel
  | declareGlobal name ty => exact hs.declareGlobal name ty
  | change c =>
    have heffect := c.effect_any hlevel
    cases hd : c.declares? s with
    | none =>
      rw [hd] at heffect
      cases heffect with
      | adjusts hadjusts => exact hs.adjusts hadjusts
    | some d =>
      obtain ⟨hfree, hstart⟩ := Change.fresh_of_declares h hd
      rw [hd] at heffect
      cases heffect with
      | declares hbefore hbinds hafter =>
        refine ((hs.adjusts hbefore).binds (hbefore.leveled hlevel) hbinds ?_ ?_).adjusts hafter
        · intro i n hi
          rw [(functionStart_of_adjusts hbefore.frames).1] at hi
          rw [hbefore.spelled?]
          exact spelled?_ne_of_not_taken hlevel hfree hi n
        · rw [(functionStart_of_adjusts hbefore.frames).1]
          exact hstart

/-- **Names of one function are spelled differently**, in every scope that is reached with fresh
identifiers alone. In the frames of the innermost function no two names have the same spelling,
and each spelling differs from all names and identifiers that the module's frame had at the moment
of the declaration that made it. -/
theorem spellings_distinct (ops : List Op) (hfresh : ∀ op ∈ ops, op.takesFresh = true) :
    let s := run ops
    let start := functionStart s.frames
    (∀ i j n m ident, start ≤ i → start ≤ j → s.spelled? i n = some ident →
      s.spelled? j m = some ident → i = j ∧ n = m) ∧
    ∀ i n ident, s.spelled? i n = some ident →
      ∃ before op after, ops = before ++ op :: after ∧
        op.declares? (run before) = some ⟨i, n, ident⟩ ∧
        (∀ more, more <+: after → (run (before ++ op :: more)).spelled? i n = some ident) ∧
        ident ∉ (run before).base.taken := by
  intro s start
  have hempty : ({} : Scope).Distinct := by
    intro i j n m ident _ _ hi
    cases i <;> cases hi
  have hdistinct : s.Distinct :=
    (run_induction (P := fun s => s.Leveled ∧ s.Distinct) ⟨rfl, hempty⟩
      fun s op hop hs => ⟨op.leveled hs.1, hs.2.op hs.1 (hfresh op hop)⟩).2
  have hsame : ∀ i j, start ≤ i → ∀ k, i < k → k ≤ j → s.functions[k]? ≠ some true :=
    fun i j hi k hik _ => (functionStart_spec s).2 k (Nat.lt_of_le_of_lt hi hik)
  refine ⟨fun i j n m ident hi hj hn hm => ?_, fun i n ident h => ?_⟩
  · rcases Nat.le_total i j with hij | hji
    · exact hdistinct i j n m ident hij (hsame i j hi) hn hm
    · obtain ⟨hindex, hname⟩ := hdistinct j i m n ident hji (hsame j i hj) hm hn
      exact ⟨hindex.symm, hname.symm⟩
  · have hnone : ({} : Scope).spelled? i n = none := by cases i <;> rfl
    obtain ⟨before, op, after, ident', rfl, hdeclares, hspelled, hstands⟩ :=
      exists_declaration (·.spelled? i n) hnone
        (fun s op hs => spelled?_apply op hs i n) ops h
    obtain rfl : ident' = ident :=
      Option.some.inj (hspelled.symm.trans (hstands [] List.nil_prefix))
    refine ⟨before, op, after, rfl, hdeclares, hstands, fun htaken => ?_⟩
    have hop := hfresh op (List.mem_append_right _ List.mem_cons_self)
    cases op with
    | pushFunction | pushBlock | pop | declareGlobal => cases hdeclares
    | change c =>
      refine (Change.fresh_of_declares hop hdeclares).1 ?_
      simp only [taken, List.append_assoc]
      exact List.mem_append_left _ htaken

/-- Operations on names that look like numbered ones: the global `x` makes the local one `x__1`,
which is a name of the program too, and a block declares `x` anew and hoists `y` out of it. -/
def numberedOps : List Op :=
  [.declareGlobal "x" .int, .pushFunction "f" [],
    .change (.declareFresh false false "x" "x" { ty := .int }),
    .change (.assign "x__1" .int false none),
    .pushBlock, .change (.assign "x" .str false none),
    .change (.declareFresh true true "x__1" "y" { ty := .int })]

theorem spellings_distinct_numbered :
    (∀ op ∈ numberedOps, op.takesFresh = true) ∧
    (run numberedOps).spelled? 1 "x" = some "x__1" ∧
    (run numberedOps).spelled? 1 "x__1" = some "x__1__1" ∧
    (run numberedOps).spelled? 2 "x" = some "x__2" ∧
    (run numberedOps).spelled? 1 "y" = some "x__1__2" ∧
    ∀ i n, 1 ≤ i → (run numberedOps).spelled? i n = some "x__1" → i = 1 ∧ n = "x" := by
  have hfresh : ∀ op ∈ numberedOps, op.takesFresh = true := by decide +kernel
  have hx : (run numberedOps).spelled? 1 "x" = some "x__1" := by decide +kernel
  refine ⟨hfresh, hx, by decide +kernel, by decide +kernel, by decide +kernel, ?_⟩
  intro i n hi h
  exact (spellings_distinct numberedOps hfresh).1 i 1 n "x" "x__1" hi (by decide +kernel) h hx

end Scope

end ClosureConversion
