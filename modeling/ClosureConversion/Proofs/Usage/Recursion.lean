import ClosureConversion.Proofs.Usage.Specification
import Mathlib.Logic.Relation

/-! # Functions that call themselves -/

set_option autoImplicit false

namespace ClosureConversion

/-! ## Parts of expressions -/

/-- The expressions in generators, each with the targets whose scope it stands in: an iterable is
outside its own target, the conditions and all later generators are inside it. -/
def Generator.parts : List Generator → List (Finset String × Expr)
  | [] => []
  | g :: gs =>
    (∅, g.iter) :: g.ifs.map (g.target.names.toFinset, ·) ++
      (Generator.parts gs).map fun p => (g.target.names.toFinset ∪ p.1, p.2)

/-- The parts of an expression, each with the names that the expression binds there. -/
def Expr.parts : Expr → List (Finset String × Expr)
  | .name _ => []
  | .constant _ => []
  | .binary _ l r => [(∅, l), (∅, r)]
  | .unary _ e => [(∅, e)]
  | .boolean _ es => es.map (∅, ·)
  | .compare l _ es => (∅, l) :: es.map (∅, ·)
  | .call f args kws => (∅, f) :: args.map (∅, ·) ++ kws.map fun k => (∅, k.value)
  | .attribute e _ => [(∅, e)]
  | .subscript e i => [(∅, e), (∅, i)]
  | .list es => es.map (∅, ·)
  | .tuple es => es.map (∅, ·)
  | .set es => es.map (∅, ·)
  | .dict ks vs => ks.map (∅, ·) ++ vs.map (∅, ·)
  | .ifElse t b e => [(∅, t), (∅, b), (∅, e)]
  | .lambda ps b => (ps.filterMap Param.default).map (∅, ·) ++ [((ps.map Param.name).toFinset, b)]
  | .listComp e gs => Generator.parts gs ++ [((Generator.names gs).toFinset, e)]
  | .setComp e gs => Generator.parts gs ++ [((Generator.names gs).toFinset, e)]
  | .generatorExp e gs => Generator.parts gs ++ [((Generator.names gs).toFinset, e)]
  | .dictComp k v gs =>
    Generator.parts gs ++ [((Generator.names gs).toFinset, k), ((Generator.names gs).toFinset, v)]
  | .format ps => (interpolations ps).map (∅, ·)
  | .starred e => [(∅, e)]

/-- `x` stands in `e`, and nothing between the two binds `n`. -/
def Expr.InView (n : String) : Expr → Expr → Prop :=
  Relation.ReflTransGen fun x e => ∃ hidden, (hidden, x) ∈ e.parts ∧ n ∉ hidden

/-! ## Parts of bodies -/

mutual

/-- The expressions in a target. -/
def Target.exprs : Target → List Expr
  | .name _ => []
  | .tuple ts => Target.allExprs ts
  | .starred t => t.exprs
  | .attribute e _ => [e]
  | .subscript e i => [e, i]

def Target.allExprs : List Target → List Expr
  | [] => []
  | t :: ts => t.exprs ++ Target.allExprs ts

end

/-- The expressions that a statement itself evaluates. A definition evaluates its decorators and the
defaults of its formals. -/
def Stmt.exprs : Stmt → List Expr
  | .assign t v _ => v :: t.exprs
  | .augAssign t _ v => v :: t.exprs
  | .expr e => [e]
  | .ret v => v.toList
  | .ifElse t _ _ => [t]
  | .whileLoop t _ => [t]
  | .forLoop t i _ => i :: t.exprs
  | .raise e => e.toList
  | .assert t m => t :: m.toList
  | .tryExcept _ hs _ _ => hs.filterMap Handler.kind
  | .withItems ws _ => ws.flatMap fun w => w.context :: Target.allExprs w.target.toList
  | .functionDef f => f.decorators ++ f.params.filterMap Param.default
  | .delete ts => Target.allExprs ts
  | .breakLoop | .continueLoop | .pass | .nonlocal _ | .global _ => []

/-- The bodies inside a statement, each with the names that mean nothing outside of it. -/
def Stmt.bodies : Stmt → List (Finset String × List Stmt)
  | .ifElse _ b e => [(∅, b), (∅, e)]
  | .whileLoop _ b => [(∅, b)]
  | .forLoop _ _ b => [(∅, b)]
  | .tryExcept b hs e f => (∅, b) :: hs.map (fun h => (∅, h.body)) ++ [(∅, e), (∅, f)]
  | .withItems _ b => [(∅, b)]
  | .functionDef f => [(ownNames f.formals f.body, f.body)]
  | _ => []

/-- The body `inner` stands in `body`, and no function between the two binds `n` or declares it
global. -/
def Stmt.InView (n : String) : List Stmt → List Stmt → Prop :=
  Relation.ReflTransGen fun inner body =>
    ∃ s ∈ body, ∃ hidden, (hidden, inner) ∈ s.bodies ∧ n ∉ hidden

/-! ## Calls in view -/

/-- Where a name can stand in a call. -/
inductive CallPlace where
  | callee
  | positional
  | keyword
  deriving DecidableEq

/-- The plain names at a place of an expression that is a call. -/
def CallPlace.names : CallPlace → Expr → List String
  | .callee, .call f _ _ => f.name?.toList
  | .positional, .call _ args _ => args.filterMap Expr.name?
  | .keyword, .call _ _ kws => kws.filterMap (·.value.name?)
  | _, _ => []

/-- Somewhere in the expression, where `n` means what it means around it, `n` stands at this place
of a call. -/
def Expr.CallsAt (place : CallPlace) (n : String) (e : Expr) : Prop :=
  ∃ x, Expr.InView n x e ∧ n ∈ place.names x

/-- The same anywhere in a body, its nested functions included. -/
def Stmt.CallsAt (place : CallPlace) (n : String) (body : List Stmt) : Prop :=
  ∃ inner, Stmt.InView n inner body ∧ ∃ s ∈ inner, ∃ e ∈ s.exprs, e.CallsAt place n

/-- The function's name is no name of its own, and is called or passed to a call in its body. -/
def Function.CallsItself (f : Function) : Prop :=
  f.name ∉ ownNames f.formals f.body ∧ ∃ place, Stmt.CallsAt place f.name f.body

/-! ## Called names -/

variable {n : String}

theorem mem_allMentions {k : Mention} {es : List Expr} :
    n ∈ Expr.allMentions k es ↔ ∃ e ∈ es, n ∈ e.mentions k := by
  induction es with
  | nil => simp [Expr.allMentions]
  | cons e es ih => simp [Expr.allMentions, ih]

theorem mem_argMentions {k : Mention} {es : List Expr} :
    n ∈ Expr.argMentions k es ↔
      (k = .called ∧ n ∈ es.filterMap Expr.name?) ∨ ∃ e ∈ es, n ∈ e.mentions k := by
  induction es with
  | nil => simp [Expr.argMentions]
  | cons e es ih =>
    simp only [Expr.argMentions, Finset.mem_union, mem_only, ih, Expr.plainName]
    cases hname : e.name? <;> simp [hname] <;> grind

theorem mem_keywordMentions {k : Mention} {kws : List Keyword} :
    n ∈ Keyword.allMentions k kws ↔ ∃ kw ∈ kws, n ∈ kw.value.mentions k := by
  induction kws with
  | nil => simp [Keyword.allMentions]
  | cons kw kws ih =>
    obtain ⟨_, e⟩ := kw
    simp [Keyword.allMentions, ih]

theorem mem_defaultMentions {k : Mention} {ps : List Param} :
    n ∈ Param.allMentions k ps ↔ ∃ e ∈ ps.filterMap Param.default, n ∈ e.mentions k := by
  induction ps with
  | nil => simp [Param.allMentions]
  | cons p ps ih =>
    obtain ⟨_, _, _ | e⟩ := p
    · simpa [Param.allMentions] using ih
    · simp [Param.allMentions, ih]

theorem mem_partMentions {k : Mention} {ps : List FormatPart} :
    n ∈ FormatPart.allMentions k ps ↔ ∃ e ∈ interpolations ps, n ∈ e.mentions k := by
  induction ps with
  | nil => simp [FormatPart.allMentions, interpolations]
  | cons p ps ih =>
    cases p with
    | literal text => simpa [FormatPart.allMentions, interpolations] using ih
    | interpolation e => simp_all [FormatPart.allMentions, interpolations]

theorem mem_generatorMentions {k : Mention} {gs : List Generator} :
    n ∈ Generator.allMentions k gs ↔
      ∃ p ∈ Generator.parts gs, n ∈ p.2.mentions k ∧ n ∉ p.1 := by
  induction gs with
  | nil => simp [Generator.allMentions, Generator.parts]
  | cons g gs ih =>
    obtain ⟨target, iter, ifs⟩ := g
    simp [-Prod.exists, or_and_right, exists_or, Generator.allMentions, Generator.parts,
      mem_allMentions, ih]
    grind

theorem mem_asCallee_called {f : Expr} : n ∈ f.asCallee .called ↔ n ∈ f.name?.toList := by
  unfold Expr.asCallee
  split <;> simp_all [Expr.name?]

/-- **A name is called in an expression** if the expression itself calls it or passes it along, or
if it is called in a part that does not bind it. -/
theorem mem_mentions_called_step (e : Expr) :
    n ∈ e.mentions .called ↔
      (n ∈ CallPlace.callee.names e ∨ n ∈ CallPlace.positional.names e) ∨
        ∃ p ∈ e.parts, n ∈ p.2.mentions .called ∧ n ∉ p.1 := by
  cases e with
  | call f args kws =>
    simp [-Prod.exists, or_and_right, exists_or, Expr.mentions, Expr.parts, CallPlace.names,
      mem_asCallee_called, mem_argMentions, mem_keywordMentions]
    simp only [or_assoc, or_left_comm]
  | _ =>
    simp [-Prod.exists, or_and_right, exists_or, Expr.mentions, Expr.parts, CallPlace.names,
      mem_allMentions, mem_defaultMentions, mem_partMentions, mem_generatorMentions]

theorem Generator.sizeOf_of_mem_parts {gs : List Generator} {p : Finset String × Expr}
    (h : p ∈ Generator.parts gs) : sizeOf p.2 < sizeOf gs := by
  induction gs generalizing p with
  | nil => cases h
  | cons g gs ih =>
    obtain ⟨target, iter, ifs⟩ := g
    simp only [Generator.parts, List.cons_append, List.mem_cons, List.mem_append, List.mem_map] at h
    rcases h with rfl | ⟨e, he, rfl⟩ | ⟨q, hq, rfl⟩
    · simp +arith
    · have := List.sizeOf_lt_of_mem he
      simp +arith
      omega
    · have := ih hq
      simp +arith
      omega

/-- Parts are smaller than what they are parts of. -/
theorem Expr.sizeOf_of_mem_parts {e : Expr} {p : Finset String × Expr} (h : p ∈ e.parts) :
    sizeOf p.2 < sizeOf e := by
  have hplain : ∀ {es : List Expr}, p ∈ es.map (fun x => ((∅ : Finset String), x)) →
      sizeOf p.2 < sizeOf es := by
    intro es hp
    obtain ⟨x, hx, rfl⟩ := List.mem_map.mp hp
    exact List.sizeOf_lt_of_mem hx
  cases e with
  | name | constant => cases h
  | binary | unary | «attribute» | subscript | ifElse | starred =>
    simp only [Expr.parts, List.mem_cons, List.not_mem_nil, or_false] at h
    rcases h with rfl | rfl | rfl <;> simp +arith
  | boolean | list | tuple | set =>
    have := hplain h
    simp +arith
    omega
  | compare l ops es =>
    simp only [Expr.parts, List.mem_cons] at h
    rcases h with rfl | h
    · simp +arith
    · have := hplain h
      simp +arith
      omega
  | call f args kws =>
    simp only [Expr.parts, List.cons_append, List.mem_cons, List.mem_append] at h
    rcases h with rfl | h | h
    · simp +arith
    · have := hplain h
      simp +arith
      omega
    · obtain ⟨⟨arg, value⟩, hkw, rfl⟩ := List.mem_map.mp h
      have := List.sizeOf_lt_of_mem hkw
      simp +arith at this ⊢
      omega
  | dict ks vs =>
    simp only [Expr.parts, List.mem_append] at h
    rcases h with h | h
    all_goals
      have := hplain h
      simp +arith
      omega
  | lambda ps b =>
    simp only [Expr.parts, List.mem_append, List.mem_singleton, List.mem_map] at h
    rcases h with ⟨e, he, rfl⟩ | rfl
    · obtain ⟨⟨name, declared, default⟩, hp, rfl⟩ := List.mem_filterMap.mp he
      have := List.sizeOf_lt_of_mem hp
      simp +arith at this ⊢
      omega
    · simp +arith
  | listComp e gs | setComp e gs | generatorExp e gs | dictComp k v gs =>
    simp only [Expr.parts, List.mem_append, List.mem_cons, List.not_mem_nil, or_false] at h
    rcases h with h | rfl | rfl
    · have := Generator.sizeOf_of_mem_parts h
      simp +arith
      omega
    all_goals simp +arith
  | format ps =>
    obtain ⟨e, he, rfl⟩ := List.mem_map.mp h
    obtain ⟨part, hpart, hsome⟩ := List.mem_filterMap.mp he
    have := List.sizeOf_lt_of_mem hpart
    cases part with
    | literal text => cases hsome
    | interpolation value =>
      cases hsome
      simp +arith at this ⊢
      omega

/-- A call in view is the expression itself, or in view in a part that does not bind the name. -/
theorem Expr.callsAt_step {place : CallPlace} {e : Expr} :
    e.CallsAt place n ↔
      n ∈ place.names e ∨ ∃ p ∈ e.parts, p.2.CallsAt place n ∧ n ∉ p.1 := by
  constructor
  · rintro ⟨x, hview, hx⟩
    rcases hview.cases_tail with rfl | ⟨y, hy, hidden, hpart, hn⟩
    · exact .inl hx
    · exact .inr ⟨(hidden, y), hpart, ⟨x, hy, hx⟩, hn⟩
  · rintro (hx | ⟨⟨hidden, y⟩, hpart, ⟨x, hview, hx⟩, hn⟩)
    · exact ⟨e, .refl, hx⟩
    · exact ⟨x, hview.tail ⟨hidden, hpart, hn⟩, hx⟩

/-- **The names that an expression calls** are those that calls in view have as their callee or
among their positional arguments. -/
theorem mem_mentions_called_iff (e : Expr) :
    n ∈ e.mentions .called ↔ e.CallsAt .callee n ∨ e.CallsAt .positional n := by
  have hparts : ∀ p ∈ e.parts, (n ∈ p.2.mentions .called ↔
      p.2.CallsAt .callee n ∨ p.2.CallsAt .positional n) :=
    fun p hp => mem_mentions_called_iff p.2
  rw [mem_mentions_called_step, Expr.callsAt_step, Expr.callsAt_step]
  grind
termination_by sizeOf e
decreasing_by exact Expr.sizeOf_of_mem_parts hp

/-! ## Bodies -/

mutual

theorem Target.mem_mentions_called : ∀ t : Target,
    n ∈ t.mentions .called ↔ ∃ e ∈ t.exprs, n ∈ e.mentions .called
  | .name _ => by simp [Target.mentions, Target.exprs]
  | .tuple ts => by
    rw [Target.mentions, Target.exprs]
    exact Target.mem_allMentions_called ts
  | .starred t => by
    rw [Target.mentions, Target.exprs]
    exact t.mem_mentions_called
  | .attribute _ _ => by simp [Target.mentions, Target.exprs]
  | .subscript _ _ => by simp [Target.mentions, Target.exprs]

theorem Target.mem_allMentions_called : ∀ ts : List Target,
    n ∈ Target.allMentions .called ts ↔ ∃ e ∈ Target.allExprs ts, n ∈ e.mentions .called
  | [] => by simp [Target.allMentions, Target.allExprs]
  | t :: ts => by
    simp [Target.allMentions, Target.allExprs, t.mem_mentions_called,
      Target.mem_allMentions_called ts, or_and_right, exists_or]

end

theorem mem_optMentions {k : Mention} {e : Option Expr} :
    n ∈ Expr.optMentions k e ↔ ∃ x ∈ e.toList, n ∈ x.mentions k := by
  cases e <;> simp [Expr.optMentions]

theorem mem_withMentions {ws : List WithItem} :
    n ∈ WithItem.allMentions .called ws ↔
      ∃ e ∈ ws.flatMap fun w => w.context :: Target.allExprs w.target.toList,
        n ∈ e.mentions .called := by
  induction ws with
  | nil => simp [WithItem.allMentions]
  | cons w ws ih =>
    obtain ⟨context, _ | t⟩ := w
    · simp [WithItem.allMentions, ih, Target.allExprs, or_and_right, exists_or]
    · simp [WithItem.allMentions, ih, Target.allExprs, t.mem_mentions_called, or_and_right,
        exists_or]

theorem mem_bodyMentions {k : Mention} {body : List Stmt} :
    n ∈ Stmt.allMentions k body ↔ ∃ s ∈ body, n ∈ s.mentions k := by
  induction body with
  | nil => simp [Stmt.allMentions]
  | cons s body ih => simp [Stmt.allMentions, ih]

theorem mem_handlerMentions {k : Mention} {hs : List Handler} :
    n ∈ Handler.allMentions k hs ↔
      (∃ e ∈ hs.filterMap Handler.kind, n ∈ e.mentions k) ∨
        ∃ h ∈ hs, n ∈ Stmt.allMentions k h.body := by
  induction hs with
  | nil => simp [Handler.allMentions]
  | cons h hs ih =>
    obtain ⟨_ | e, name, body⟩ := h
    · simp [Handler.allMentions, ih, mem_optMentions, or_left_comm]
    · simp [Handler.allMentions, ih, mem_optMentions, or_assoc, or_left_comm]

/-- A name is called in a statement if one of its own expressions calls it, or if it is called in a
body inside it that does not bind the name. -/
theorem Stmt.mem_mentions_called_step (s : Stmt) :
    n ∈ s.mentions .called ↔
      (∃ e ∈ s.exprs, n ∈ e.mentions .called) ∨
        ∃ p ∈ s.bodies, n ∈ Stmt.allMentions .called p.2 ∧ n ∉ p.1 := by
  cases s with
  | functionDef f =>
    simp [-Prod.exists, or_and_right, exists_or, Stmt.mentions, Function.mentions_eq, Stmt.exprs,
      Stmt.bodies, mem_allMentions, mem_defaultMentions, or_assoc]
  | tryExcept =>
    simp [-Prod.exists, or_and_right, exists_or, Stmt.mentions, Stmt.exprs, Stmt.bodies,
      mem_handlerMentions, or_assoc, or_left_comm]
  | _ =>
    simp [-Prod.exists, or_and_right, exists_or, Stmt.mentions, Stmt.exprs, Stmt.bodies,
      mem_optMentions, Target.mem_mentions_called, Target.mem_allMentions_called,
      mem_withMentions, or_assoc]

theorem Stmt.sizeOf_of_mem_bodies {s : Stmt} {p : Finset String × List Stmt} (h : p ∈ s.bodies) :
    sizeOf p.2 < sizeOf s := by
  cases s with
  | ifElse | whileLoop | forLoop | withItems =>
    simp only [Stmt.bodies, List.mem_cons, List.not_mem_nil, or_false] at h
    rcases h with rfl | rfl <;> simp +arith
  | tryExcept b hs e f =>
    simp only [Stmt.bodies, List.cons_append, List.mem_cons, List.mem_append, List.mem_map,
      List.not_mem_nil, or_false] at h
    rcases h with rfl | ⟨⟨kind, name, body⟩, hh, rfl⟩ | rfl | rfl
    · simp +arith
    · have := List.sizeOf_lt_of_mem hh
      simp +arith at this ⊢
      omega
    all_goals simp +arith
  | functionDef f =>
    obtain rfl := List.mem_singleton.mp h
    obtain ⟨name, params, vararg, kwarg, declaredResult, body, decorators, span⟩ := f
    simp +arith
  | _ => cases h

theorem Stmt.callsAt_step {place : CallPlace} {body : List Stmt} :
    Stmt.CallsAt place n body ↔
      ∃ s ∈ body, (∃ e ∈ s.exprs, e.CallsAt place n) ∨
        ∃ p ∈ s.bodies, Stmt.CallsAt place n p.2 ∧ n ∉ p.1 := by
  constructor
  · rintro ⟨inner, hview, s, hs, hcall⟩
    rcases hview.cases_tail with rfl | ⟨next, hnext, t, ht, hidden, hbody, hn⟩
    · exact ⟨s, hs, .inl hcall⟩
    · exact ⟨t, ht, .inr ⟨(hidden, next), hbody, ⟨inner, hnext, s, hs, hcall⟩, hn⟩⟩
  · rintro ⟨s, hs, hcall | ⟨⟨hidden, next⟩, hbody, ⟨inner, hview, hcall⟩, hn⟩⟩
    · exact ⟨body, .refl, s, hs, hcall⟩
    · exact ⟨inner, hview.tail ⟨s, hs, hidden, hbody, hn⟩, hcall⟩

/-- **The names that a body calls**, those of its nested functions included. -/
theorem Stmt.mem_mentions_called_iff (body : List Stmt) :
    n ∈ Stmt.allMentions .called body ↔
      Stmt.CallsAt .callee n body ∨ Stmt.CallsAt .positional n body := by
  have hinner : ∀ s ∈ body, ∀ p ∈ s.bodies, (n ∈ Stmt.allMentions .called p.2 ↔
      Stmt.CallsAt .callee n p.2 ∨ Stmt.CallsAt .positional n p.2) :=
    fun s hs p hp => Stmt.mem_mentions_called_iff p.2
  rw [mem_bodyMentions, Stmt.callsAt_step, Stmt.callsAt_step]
  simp only [Stmt.mem_mentions_called_step, ClosureConversion.mem_mentions_called_iff]
  grind
termination_by sizeOf body
decreasing_by
  have := List.sizeOf_lt_of_mem hs
  have := Stmt.sizeOf_of_mem_bodies hp
  omega

/-! ## Recursive functions -/

/-- **When a function counts as recursive.** The flag is set exactly if the function's name is no
name of its own and is the callee or a positional argument of a call in view. So it tells whether
the function calls itself unless the name is passed along by keyword and in no other way. -/
theorem selfRecursive_iff_callsItself (f : Function) :
    ((Usage.ofFunction f).selfRecursive = true ↔
      f.name ∉ ownNames f.formals f.body ∧
        (Stmt.CallsAt .callee f.name f.body ∨ Stmt.CallsAt .positional f.name f.body)) ∧
    (((Usage.ofFunction f).selfRecursive = true ↔ f.CallsItself) ↔
      ¬ (f.CallsItself ∧ ∀ place, Stmt.CallsAt place f.name f.body → place = .keyword)) := by
  have hflag : (Usage.ofFunction f).selfRecursive = true ↔
      f.name ∉ ownNames f.formals f.body ∧
        (Stmt.CallsAt .callee f.name f.body ∨ Stmt.CallsAt .positional f.name f.body) := by
    have hclosed : Usage.Closed (Stmt.bodyFootprint f.body) f.formals (Usage.ofFunction f) :=
      Usage.ofBody_closed ..
    rw [Usage.ofFunction_selfRecursive, hclosed.mem_hides, and_comm]
    exact and_congr_right' ((hclosed.names .called f.name).trans
      (Stmt.mem_mentions_called_iff f.body))
  refine ⟨hflag, ?_⟩
  rw [hflag]
  constructor
  · rintro hagree ⟨hcalls, hkeyword⟩
    rcases (hagree.mpr hcalls).2 with hcallee | hpositional
    · cases hkeyword _ hcallee
    · cases hkeyword _ hpositional
  · intro hother
    refine ⟨fun ⟨hname, hcall⟩ => ⟨hname, ?_⟩, fun hcalls => ⟨hcalls.1, ?_⟩⟩
    · rcases hcall with hcallee | hpositional
      · exact ⟨_, hcallee⟩
      · exact ⟨_, hpositional⟩
    · by_contra hneither
      refine hother ⟨hcalls, fun place hplace => ?_⟩
      cases place with
      | callee => exact absurd (.inl hplace) hneither
      | positional => exact absurd (.inr hplace) hneither
      | keyword => rfl

/-- **A function that hands itself on by keyword**, as in `run(task=visit)`, calls itself and does
not count as recursive. -/
theorem selfRecursive_iff_callsItself_byKeyword :
    let visit : Function := {
      name := "visit"
      body := [.expr (.call (.name "run") [] [⟨some "task", .name "visit"⟩])] }
    visit.CallsItself ∧ (Usage.ofFunction visit).selfRecursive = false ∧
      ∀ place, Stmt.CallsAt place visit.name visit.body → place = .keyword := by
  intro visit
  have hcalls : visit.CallsItself :=
    ⟨by decide, .keyword, visit.body, .refl, _, List.mem_singleton.mpr rfl, _,
      List.mem_singleton.mpr rfl, _, .refl, List.mem_singleton.mpr rfl⟩
  have hflag : (Usage.ofFunction visit).selfRecursive = false := by decide +kernel
  have hmissed : ¬ ((Usage.ofFunction visit).selfRecursive = true ↔ visit.CallsItself) := by
    simp [hflag, hcalls]
  obtain ⟨-, hkeyword⟩ := not_not.mp (mt (selfRecursive_iff_callsItself visit).2.mpr hmissed)
  exact ⟨hcalls, hflag, hkeyword⟩

end ClosureConversion
