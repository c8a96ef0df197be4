import ClosureConversion.Inference.Table
import ClosureConversion.Proofs.Capture.Partition
import ClosureConversion.Proofs.Ty.WellFormed

/-! # Inferred types are well formed -/

set_option autoImplicit false

namespace ClosureConversion

/-! ## What inference starts from -/

/-- The table holds well-formed types only. -/
structure Table.WellFormed (t : Table) : Prop where
  returns : ∀ n ty, t.returns.get? n = some ty → ty.WellFormed
  params : ∀ n ty, t.params.get? n = some ty → ty.WellFormed

/-- Every binding of the scope has a well-formed type. -/
def Scope.WellFormed (s : Scope) : Prop :=
  ∀ f ∈ s.allFrames, ∀ n b, f.get? n = some b → b.ty.WellFormed

theorem Scope.WellFormed.lookup {s : Scope} (h : s.WellFormed) {n : String} {b : Binding}
    (hb : s.lookup n = some b) : b.ty.WellFormed := by
  obtain ⟨f, hf, hget⟩ := List.exists_of_findSome?_eq_some hb
  exact h f hf n b hget

mutual

/-- The types that lambdas in an expression declare for their formals, at any depth. -/
def Expr.annotations : Expr → List Ty
  | .name _ => []
  | .constant _ => []
  | .binary _ l r => l.annotations ++ r.annotations
  | .unary _ e => e.annotations
  | .boolean _ es => Expr.allAnnotations es
  | .compare l _ es => l.annotations ++ Expr.allAnnotations es
  | .call f args kws => f.annotations ++ Expr.allAnnotations args ++ Keyword.allAnnotations kws
  | .attribute e _ => e.annotations
  | .subscript e i => e.annotations ++ i.annotations
  | .list es => Expr.allAnnotations es
  | .tuple es => Expr.allAnnotations es
  | .set es => Expr.allAnnotations es
  | .dict ks vs => Expr.allAnnotations ks ++ Expr.allAnnotations vs
  | .ifElse t b e => t.annotations ++ b.annotations ++ e.annotations
  | .lambda ps b => ps.filterMap Param.declared ++ Param.allAnnotations ps ++ b.annotations
  | .listComp e gs => e.annotations ++ Generator.allAnnotations gs
  | .setComp e gs => e.annotations ++ Generator.allAnnotations gs
  | .generatorExp e gs => e.annotations ++ Generator.allAnnotations gs
  | .dictComp k v gs => k.annotations ++ v.annotations ++ Generator.allAnnotations gs
  | .format ps => FormatPart.allAnnotations ps
  | .starred e => e.annotations

def Expr.allAnnotations : List Expr → List Ty
  | [] => []
  | e :: es => e.annotations ++ Expr.allAnnotations es

def Keyword.allAnnotations : List Keyword → List Ty
  | [] => []
  | ⟨_, e⟩ :: ks => e.annotations ++ Keyword.allAnnotations ks

/-- Annotations in the defaults of formals. -/
def Param.allAnnotations : List Param → List Ty
  | [] => []
  | ⟨_, _, some e⟩ :: ps => e.annotations ++ Param.allAnnotations ps
  | ⟨_, _, none⟩ :: ps => Param.allAnnotations ps

def Generator.allAnnotations : List Generator → List Ty
  | [] => []
  | ⟨_, iter, ifs⟩ :: gs =>
    iter.annotations ++ Expr.allAnnotations ifs ++ Generator.allAnnotations gs

def FormatPart.allAnnotations : List FormatPart → List Ty
  | [] => []
  | .literal _ :: ps => FormatPart.allAnnotations ps
  | .interpolation e :: ps => e.annotations ++ FormatPart.allAnnotations ps

end

/-! ## Operators, builtins and methods -/

namespace Ty

theorem WellFormed.element {t : Ty} (h : t.WellFormed) : t.element.WellFormed := by
  cases t with
  | list t => exact wellFormed_list.mp h
  | set t => exact wellFormed_set.mp h
  | dict k v => exact (wellFormed_dict.mp h).1
  | tuple ts => exact wellFormed_joinAll (wellFormed_tuple.mp h)
  | _ => exact wellFormed_of_isLeaf rfl

theorem wellFormed_getD {ts : List Ty} (h : ∀ t ∈ ts, t.WellFormed) (i : Nat) :
    (ts.getD i .unknown).WellFormed := by
  rw [List.getD_eq_getElem?_getD]
  cases hi : ts[i]? with
  | none => exact wellFormed_of_isLeaf rfl
  | some t => exact h t (List.mem_of_getElem? hi)

theorem WellFormed.part_at {t : Ty} (h : t.WellFormed) (i : Nat) : (Ty.part t i).WellFormed := by
  unfold Ty.part
  split
  · exact wellFormed_getD (wellFormed_tuple.mp h) i
  · exact h.element

theorem wellFormed_tupleEntry {ts : List Ty} (h : ∀ t ∈ ts, t.WellFormed) (i : Int) :
    (tupleEntry ts i).WellFormed := by
  unfold tupleEntry
  generalize (if i < 0 then (ts.length : Int) + i else i) = position
  dsimp only
  split
  · exact wellFormed_of_isLeaf rfl
  · exact wellFormed_getD h _

theorem WellFormed.subscript {t : Ty} (h : t.WellFormed) (index : Expr) :
    (t.subscript index).WellFormed := by
  unfold Ty.subscript
  split
  · exact wellFormed_list.mp h
  · exact (wellFormed_dict.mp h).2
  · exact wellFormed_of_isLeaf rfl
  · exact wellFormed_of_isLeaf rfl
  · exact wellFormed_tupleEntry (wellFormed_tuple.mp h) _
  · exact wellFormed_joinAll (wellFormed_tuple.mp h)
  · exact wellFormed_of_isLeaf rfl

theorem WellFormed.numeric {l r : Ty} (hl : l.WellFormed) (hr : r.WellFormed) :
    (l.numeric r).WellFormed := by
  unfold Ty.numeric
  split_ifs
  · exact hr
  · exact hl
  all_goals exact wellFormed_of_isLeaf rfl

theorem wellFormed_builtin {args : List Ty} (h : ∀ t ∈ args, t.WellFormed) (name : String) :
    (builtin name args).WellFormed := by
  have hfirst : (args.headD .unknown).WellFormed := by
    cases args with
    | nil => exact wellFormed_of_isLeaf rfl
    | cons t ts => exact h t List.mem_cons_self
  have helement := hfirst.element
  unfold builtin
  dsimp only
  split
  case h_1 => exact hfirst
  case h_2 | h_7 | h_8 => simp
  case h_3 | h_4 | h_5 => exact wellFormed_list.mpr helement
  case h_6 => exact wellFormed_set.mpr helement
  case h_9 | h_10 =>
    split
    · exact helement
    · exact wellFormed_joinAll h
  case h_11 =>
    split
    · exact wellFormed_of_isLeaf rfl
    · exact helement
  case h_12 => simpa using helement
  case h_13 =>
    simp only [wellFormed_list, wellFormed_tuple, List.forall_mem_map]
    exact fun t ht => (h t ht).element
  case h_14 => exact wellFormed_of_isLeaf rfl

/-- The result of a method that a type has, if its receiver is well formed. -/
theorem WellFormed.method {t : Ty} (h : t.WellFormed) (name : String) :
    (t.method name).WellFormed := by
  have hother : ∀ {own : Option Ty}, (∀ r, own = some r → r.WellFormed) →
      (own.getD (if effectMethods.contains name then .none else .unknown)).WellFormed := by
    intro own hown
    cases own with
    | some r => exact hown r rfl
    | none =>
      rw [Option.getD_none]
      split <;> exact wellFormed_of_isLeaf rfl
  refine hother fun r hr => ?_
  split at hr
  · unfold strMethod? at hr
    split at hr <;> cases hr <;> simp
  · rw [wellFormed_list] at h
    unfold listMethod? at hr
    split at hr <;> cases hr <;> simp [h]
  · rw [wellFormed_set] at h
    unfold setMethod? at hr
    split at hr <;> cases hr
    exact wellFormed_set.mpr h
  · rw [wellFormed_dict] at h
    unfold dictMethod? at hr
    split at hr <;> cases hr <;> simp [h]
  · cases hr

end Ty

theorem BinOp.type_wellFormed (op : BinOp) {l r : Ty} (hl : l.WellFormed) (hr : r.WellFormed) :
    (op.type l r).WellFormed := by
  have hnumeric := hl.numeric hr
  cases op with
  | add =>
    unfold BinOp.type
    dsimp only
    split
    · exact Ty.wellFormed_of_isLeaf rfl
    · split
      · exact Ty.wellFormed_list.mpr ((Ty.wellFormed_list.mp hl).join (Ty.wellFormed_list.mp hr))
      · exact hnumeric
  | mult =>
    unfold BinOp.type
    dsimp only
    split
    · exact Ty.wellFormed_of_isLeaf rfl
    · split
      · exact hl
      · exact hr
      · exact hnumeric
  | bitAnd | bitOr | bitXor | lShift | rShift =>
    unfold BinOp.type
    dsimp only
    split
    · exact hl
    · exact Ty.wellFormed_of_isLeaf rfl
  | div => exact Ty.wellFormed_of_isLeaf rfl
  | sub | floorDiv | mod | pow => exact hnumeric

/-! ## Expressions -/

/-- The names that lambdas and comprehensions bind have well-formed types. -/
def NameMap.WellFormed (locals : NameMap Ty) : Prop :=
  ∀ n ty, locals.get? n = some ty → ty.WellFormed

theorem NameMap.WellFormed.insert {locals : NameMap Ty} (h : locals.WellFormed) (n : String)
    {ty : Ty} (hty : ty.WellFormed) : (locals.insert n ty).WellFormed := by
  intro m u hu
  rw [NameMap.get?_insert] at hu
  split at hu
  · cases hu
    exact hty
  · exact h m u hu

mutual

theorem Target.bindTypes_wellFormed : ∀ (target : Target) {ty : Ty} {locals : NameMap Ty},
    ty.WellFormed → locals.WellFormed → (target.bindTypes ty locals).WellFormed
  | .name n, _, _, hty, hlocals => hlocals.insert n hty
  | .tuple parts, _, _, hty, hlocals => Target.bindParts_wellFormed parts 0 hty hlocals
  | .starred t, _, _, hty, hlocals =>
    t.bindTypes_wellFormed (Ty.wellFormed_list.mpr hty.element) hlocals
  | .attribute _ _, _, _, _, hlocals => hlocals
  | .subscript _ _, _, _, _, hlocals => hlocals

theorem Target.bindParts_wellFormed : ∀ (parts : List Target) (i : Nat) {ty : Ty}
    {locals : NameMap Ty}, ty.WellFormed → locals.WellFormed →
      (Target.bindParts parts ty i locals).WellFormed
  | [], _, _, _, _, hlocals => hlocals
  | t :: ts, i, _, _, hty, hlocals =>
    Target.bindParts_wellFormed ts (i + 1) hty (t.bindTypes_wellFormed (hty.part_at i) hlocals)

end

namespace Table

variable {t : Table} {s : Scope}

theorem callType_wellFormed (ht : t.WellFormed) (hs : s.WellFormed) {locals : NameMap Ty}
    (hlocals : locals.WellFormed) (name : String) {args : List Ty}
    (hargs : ∀ ty ∈ args, ty.WellFormed) :
    (t.callType s locals name args).WellFormed := by
  unfold callType
  split
  · rename_i r hr
    obtain ⟨ty, hty, hresult⟩ := Option.bind_eq_some_iff.mp hr
    exact (hlocals name ty hty).result hresult
  · split
    · rename_i r hr
      obtain ⟨b, hb, hresult⟩ := Option.bind_eq_some_iff.mp hr
      exact (hs.lookup hb).result hresult
    · split
      · exact Ty.wellFormed_of_isLeaf rfl
      · split
        · rename_i r hr
          exact ht.returns name r hr
        · cases hfixed : Ty.fixedBuiltin? name with
          | none => exact Ty.wellFormed_builtin hargs name
          | some ty =>
            unfold Ty.fixedBuiltin? at hfixed
            split at hfixed <;> cases hfixed <;> simp

/-- A lambda's formals bring what it declares for them. -/
theorem foldl_insert_wellFormed {ps : List Param}
    (hps : ∀ p ∈ ps, (p.declared.getD .unknown).WellFormed) {locals : NameMap Ty}
    (hlocals : locals.WellFormed) :
    (ps.foldl (fun m p => m.insert p.name (p.declared.getD .unknown)) locals).WellFormed := by
  induction ps generalizing locals with
  | nil => exact hlocals
  | cons p ps ih =>
    rw [List.forall_mem_cons] at hps
    exact ih hps.2 (hlocals.insert p.name hps.1)

mutual

theorem infer_wellFormed (ht : t.WellFormed) (hs : s.WellFormed) :
    ∀ (e : Expr) {locals : NameMap Ty},
    (∀ ty ∈ e.annotations, ty.WellFormed) → locals.WellFormed → (t.infer s e locals).WellFormed
  | .name n, locals, _, hlocals => by
    unfold infer
    split
    · rename_i ty hty
      exact hlocals n ty hty
    · split
      · rename_i b hb
        exact hs.lookup hb
      · exact Ty.wellFormed_of_isLeaf rfl
  | .constant c, _, _, _ => by
    cases c <;> exact Ty.wellFormed_of_isLeaf rfl
  | .binary op l r, _, he, hlocals => by
    simp only [Expr.annotations, List.forall_mem_append] at he
    exact op.type_wellFormed (infer_wellFormed ht hs l he.1 hlocals)
      (infer_wellFormed ht hs r he.2 hlocals)
  | .unary op e, _, he, hlocals => by
    have hoperand := infer_wellFormed ht hs e he hlocals
    cases op with
    | not => exact Ty.wellFormed_of_isLeaf rfl
    | neg | pos | invert => exact hoperand
  | .boolean _ es, _, he, hlocals => Ty.wellFormed_joinAll (inferAll_wellFormed ht hs es he hlocals)
  | .compare _ _ _, _, _, _ => Ty.wellFormed_of_isLeaf rfl
  | .ifElse t b e, _, he, hlocals => by
    simp only [Expr.annotations, List.forall_mem_append] at he
    exact (infer_wellFormed ht hs b he.1.2 hlocals).join (infer_wellFormed ht hs e he.2 hlocals)
  | .call f args kws, _, he, hlocals => by
    simp only [Expr.annotations, List.forall_mem_append] at he
    cases f with
    | name n =>
      exact callType_wellFormed ht hs hlocals n (inferAll_wellFormed ht hs args he.1.2 hlocals)
    | «attribute» e method => exact (infer_wellFormed ht hs e he.1.1 hlocals).method method
    | _ => exact Ty.wellFormed_of_isLeaf rfl
  | .attribute _ _, _, _, _ => Ty.wellFormed_of_isLeaf rfl
  | .subscript e i, _, he, hlocals => by
    simp only [Expr.annotations, List.forall_mem_append] at he
    exact (infer_wellFormed ht hs e he.1 hlocals).subscript i
  | .list es, _, he, hlocals =>
    Ty.wellFormed_list.mpr (Ty.wellFormed_joinAll (inferAll_wellFormed ht hs es he hlocals))
  | .set es, _, he, hlocals =>
    Ty.wellFormed_set.mpr (Ty.wellFormed_joinAll (inferAll_wellFormed ht hs es he hlocals))
  | .tuple es, _, he, hlocals => Ty.wellFormed_tuple.mpr (inferAll_wellFormed ht hs es he hlocals)
  | .dict ks vs, _, he, hlocals => by
    simp only [Expr.annotations, List.forall_mem_append] at he
    exact Ty.wellFormed_dict.mpr
      ⟨Ty.wellFormed_joinAll (inferAll_wellFormed ht hs ks he.1 hlocals),
        Ty.wellFormed_joinAll (inferAll_wellFormed ht hs vs he.2 hlocals)⟩
  | .lambda ps b, _, he, hlocals => by
    simp only [Expr.annotations, List.forall_mem_append] at he
    have hformals : ∀ p ∈ ps, (p.declared.getD .unknown).WellFormed := by
      intro p hp
      cases hdeclared : p.declared with
      | none => exact Ty.wellFormed_of_isLeaf rfl
      | some ty => exact he.1.1 ty (List.mem_filterMap.mpr ⟨p, hp, hdeclared⟩)
    exact Ty.wellFormed_function.mpr ⟨List.forall_mem_map.mpr hformals,
      infer_wellFormed ht hs b he.2 (foldl_insert_wellFormed hformals hlocals)⟩
  | .listComp e gs, _, he, hlocals => by
    simp only [Expr.annotations, List.forall_mem_append] at he
    exact Ty.wellFormed_list.mpr
      (infer_wellFormed ht hs e he.1 (inferGenerators_wellFormed ht hs gs he.2 hlocals))
  | .generatorExp e gs, _, he, hlocals => by
    simp only [Expr.annotations, List.forall_mem_append] at he
    exact Ty.wellFormed_list.mpr
      (infer_wellFormed ht hs e he.1 (inferGenerators_wellFormed ht hs gs he.2 hlocals))
  | .setComp e gs, _, he, hlocals => by
    simp only [Expr.annotations, List.forall_mem_append] at he
    exact Ty.wellFormed_set.mpr
      (infer_wellFormed ht hs e he.1 (inferGenerators_wellFormed ht hs gs he.2 hlocals))
  | .dictComp k v gs, _, he, hlocals => by
    simp only [Expr.annotations, List.forall_mem_append] at he
    have hinner := inferGenerators_wellFormed ht hs gs he.2 hlocals
    exact Ty.wellFormed_dict.mpr
      ⟨infer_wellFormed ht hs k he.1.1 hinner, infer_wellFormed ht hs v he.1.2 hinner⟩
  | .format _, _, _, _ => Ty.wellFormed_of_isLeaf rfl
  | .starred _, _, _, _ => Ty.wellFormed_of_isLeaf rfl

theorem inferAll_wellFormed (ht : t.WellFormed) (hs : s.WellFormed) :
    ∀ (es : List Expr) {locals : NameMap Ty},
    (∀ ty ∈ Expr.allAnnotations es, ty.WellFormed) → locals.WellFormed →
      ∀ ty ∈ t.inferAll s es locals, ty.WellFormed
  | [], _, _, _ => by simp [inferAll]
  | e :: es, _, hes, hlocals => by
    simp only [Expr.allAnnotations, List.forall_mem_append] at hes
    simp only [inferAll, List.forall_mem_cons]
    exact ⟨infer_wellFormed ht hs e hes.1 hlocals, inferAll_wellFormed ht hs es hes.2 hlocals⟩

theorem inferGenerators_wellFormed (ht : t.WellFormed) (hs : s.WellFormed) :
    ∀ (gs : List Generator) {locals : NameMap Ty},
    (∀ ty ∈ Generator.allAnnotations gs, ty.WellFormed) → locals.WellFormed →
      (t.inferGenerators s gs locals).WellFormed
  | [], _, _, hlocals => hlocals
  | ⟨target, iter, ifs⟩ :: gs, _, hgs, hlocals => by
    simp only [Generator.allAnnotations, List.forall_mem_append] at hgs
    exact inferGenerators_wellFormed ht hs gs hgs.2
      (target.bindTypes_wellFormed (infer_wellFormed ht hs iter hgs.1.1 hlocals).element hlocals)

end

end Table

/-! ## Refused captures -/

theorem Scope.WellFormed.typeAt {s : Scope} (h : s.WellFormed) (n : String) :
    (s.typeAt n).WellFormed := by
  unfold Scope.typeAt
  cases hb : s.lookup n with
  | none => exact Ty.wellFormed_of_isLeaf rfl
  | some b => exact h.lookup hb

/-- A name that is to be captured and whose type mixes callables with other values. -/
structure Function.Mixes (f : Function) (s : Scope) (n : String) : Prop where
  outer : n ∈ f.outerNames
  captured : f.Captures s n
  mixed : (s.typeAt n).MixesCallables

theorem Scope.WellFormed.blocks_iff {s : Scope} (h : s.WellFormed) {f : Function} {n : String} :
    n ∈ f.outerNames ∧ f.Blocks s n ↔ f.Mixes s n := by
  have hty := Ty.isRepresentable_eq_false_iff (h.typeAt n)
  exact ⟨fun ⟨hn, hblocks⟩ => ⟨hn, hblocks.captured, hty.mp hblocks.unrepresentable⟩,
    fun hmixes => ⟨hmixes.outer, hmixes.captured, hty.mpr hmixes.mixed⟩⟩

/-- **Well-formed types stay well formed.** Joining keeps them so, and so does inference for every
expression, if the table, the scope and the annotations of lambdas hold well-formed types only. Of
these types exactly those have no static representation in which a union with a callable member can
be reached; so the captures of a function are refused exactly if one of them has such a type, and
the error, whose code is C001, is about one that has. -/
theorem wellFormed_types_kept :
    (∀ a b : Ty, a.WellFormed → b.WellFormed → (a.join b).WellFormed) ∧
    (∀ (t : Table) (s : Scope) (e : Expr), t.WellFormed → s.WellFormed →
      (∀ ty ∈ e.annotations, ty.WellFormed) → (t.oracle.exprType e s).WellFormed) ∧
    (∀ t : Ty, t.WellFormed → (t.isRepresentable = false ↔ t.MixesCallables)) ∧
    ∀ (f : Function) (s : Scope) (qualname : String), s.WellFormed →
      ((∃ e, Capture.resolve f (Usage.ofFunction f) s qualname = .error e) ↔
        ∃ n, f.Mixes s n) ∧
      ∀ e, Capture.resolve f (Usage.ofFunction f) s qualname = .error e →
        e.code.text = "C001" ∧
          ∃ n, f.Mixes s n ∧ e = .unsupportedCapture qualname n (s.typeAt n) f.span := by
  refine ⟨fun a b ha hb => ha.join hb,
    fun t s e ht hs he => Table.infer_wellFormed ht hs e he (fun n ty hty => nomatch hty),
    fun t ht => Ty.isRepresentable_eq_false_iff ht, fun f s qualname hs => ?_⟩
  have hrefused : ∀ e, Capture.resolve f (Usage.ofFunction f) s qualname = .error e →
      ∃ n, f.Mixes s n ∧ e = .unsupportedCapture qualname n (s.typeAt n) f.span := by
    intro e he
    cases hfirst : f.outerNames.find? fun n => decide (f.Blocks s n) with
    | none =>
      have hfree : ∀ n ∈ f.outerNames, ¬ f.Blocks s n := fun n hn hblocks =>
        List.find?_eq_none.mp hfirst n hn (decide_eq_true hblocks)
      obtain ⟨r, hr, -⟩ := Capture.exists_resolve_eq_ok hfree
      rw [hr] at he
      cases he
    | some n =>
      rw [Capture.resolve_eq_error hfirst] at he
      cases he
      have hblocks := List.find?_some hfirst
      exact ⟨n, hs.blocks_iff.mp ⟨List.mem_of_find?_eq_some hfirst, of_decide_eq_true hblocks⟩, rfl⟩
  refine ⟨⟨fun ⟨e, he⟩ => ?_, fun ⟨n, hn⟩ => ?_⟩, fun e he => ?_⟩
  · obtain ⟨n, hn, -⟩ := hrefused e he
    exact ⟨n, hn⟩
  · obtain ⟨hmem, hblocks⟩ := hs.blocks_iff.mpr hn
    cases hfirst : f.outerNames.find? fun n => decide (f.Blocks s n) with
    | none => exact absurd (decide_eq_true hblocks) (List.find?_eq_none.mp hfirst n hmem)
    | some m => exact ⟨_, Capture.resolve_eq_error hfirst⟩
  · obtain ⟨n, hn, rfl⟩ := hrefused e he
    exact ⟨rfl, n, hn, rfl⟩

/-- **A variable that holds a callback or nothing** has a well-formed type, is given it by inference
and cannot be captured. -/
theorem wellFormed_types_kept_optionalCallback :
    let callback : Ty := .function { params := [], result := .none, fallible := false }
    let s : Scope := ({} : Scope).pushFunction "f" [] |>.declare "cb" { ty := callback.join .none }
    let g : Function := { name := "g", body := [.ret (some (.name "cb"))] }
    (callback.join .none).WellFormed ∧ s.WellFormed ∧
      (({} : Table).oracle.exprType (.list [.name "cb", .constant (.bool true)]) s).WellFormed ∧
      (callback.join .none).MixesCallables ∧
      ∃ e, Capture.resolve g (Usage.ofFunction g) s "f.g" = .error e := by
  intro callback s g
  obtain ⟨hjoin, hinfer, hrepresentable, hresolve⟩ := wellFormed_types_kept
  have hty : (callback.join .none).WellFormed := hjoin _ _ (by simp [callback]) (by simp)
  have hs : s.WellFormed := by
    intro f hf n b hb
    obtain rfl | hf := List.mem_cons.mp hf
    · have hb : (NameMap.empty.insert "cb" { ty := callback.join .none }).get? n = some b := hb
      rw [NameMap.get?_insert] at hb
      split at hb
      · cases hb
        exact hty
      · cases hb
    · cases List.mem_singleton.mp hf
      cases hb
  have hmixes : (callback.join .none).MixesCallables :=
    (hrepresentable _ hty).mp (by decide)
  refine ⟨hty, hs, hinfer _ _ _ ⟨nofun, nofun⟩ hs (by simp [Expr.annotations, Expr.allAnnotations]),
    hmixes, (hresolve g s "f.g" hs).1.mpr ⟨"cb", ?_, ?_, ?_⟩⟩
  · decide +kernel
  · decide +kernel
  · exact hmixes

end ClosureConversion
