import ClosureConversion.Emit.Render
import ClosureConversion.Proofs.Emit.Exits

/-! # How calls are written -/

set_option autoImplicit false

namespace ClosureConversion

/-! ## Conventions -/

/-- Types of wrappers. -/
def Ty.isClosure : Ty → Bool
  | .closure _ _ => true
  | _ => false

/-- How a call reaches its callee. -/
inductive CallForm where
  | direct
  /-- Through the member `call`. -/
  | member
  /-- Through the member `init`, which makes a record. -/
  | construction
  deriving DecidableEq

def CallForm.text (allocator callee : String) (args : List String) : CallForm → String
  | .direct => s!"{callee}({Code.commas args})"
  | .member => s!"{callee}.call({Code.commas args})"
  | .construction => s!"{callee}.init({Code.commas (allocator :: args)})"

/-- An expression whose value may be an error, with what becomes of the error. -/
def FunctionState.guarded (f : FunctionState) (text : String) : String :=
  match f.catches with
  | target :: _ => s!"({text} catch |__e| \x7b {target.slot} = __e; break :{target.label}; \x7d)"
  | [] => s!"try {text}"

/-- A way to write calls. -/
structure Convention where
  form : CallForm
  /-- The call is guarded. -/
  fails : Bool

namespace Convention

def text (k : Convention) (allocator : String) (f : FunctionState) (callee : String)
    (args : List String) : String :=
  if k.fails then f.guarded (k.form.text allocator callee args)
  else k.form.text allocator callee args

/-- Calls go through `call` exactly for a closure, and are guarded exactly if they may fail. -/
def Follows (k : Convention) (ty : Ty) : Prop :=
  (k.form = .member ↔ ty.isClosure = true) ∧ k.fails = ty.callFails

end Convention

namespace Emit

/-- The convention for a callee of type `ty` where the call is written. -/
def convention (w : Settings) (c : Context) (ty : Ty) : Expr → Convention
  | .name n =>
    if c.current.globals.contains n then
      if ty.result? = some (.record n) then ⟨.construction, w.options.allocationFails⟩
      else ⟨.direct, w.oracle.isFallible n⟩
    else ⟨if (c.scope.lookup n).any Binding.isClosureLike then .member else .direct, ty.callFails⟩
  | _ => ⟨.member, true⟩

/-- The texts of all arguments of a call. -/
def arguments (args : List Expr) (kws : List Keyword) : Emit (List String) := do
  let texts ← positional (args.zip (renders args))
  let more ← keywordArgs (keywordTexts kws)
  return texts ++ more

/-- The text of what is called. -/
def callee : Expr → Emit String
  | .name n => name n
  | f => operand f (render f none)

/-! ## Guards -/

theorem fallible_text {op : Operation} (text : String) (w : Settings) (c : Context) :
    (fallible op text w c).1 = .ok (c.current.guarded text) := by
  rw [fallible_eq, FunctionState.guarded]
  cases c.current.catches <;> rfl

theorem fallibleIf_text {op : Operation} (fails : Bool) (text : String) (w : Settings)
    (c : Context) :
    (fallibleIf op fails text w c).1 = .ok (if fails then c.current.guarded text else text) := by
  cases fails
  · rfl
  · exact fallible_text text w c

/-! ## Calls -/

variable {w : Settings} {c c' : Context}

/-- What is left of a call when the texts of its arguments are there. -/
def joined (f : Expr) (args : List Expr) (kws : List Keyword) (all : List String) : Emit String :=
  match f with
  | .name n => namedCall (.call (.name n) args kws) n all
  | .attribute e method => methodCall e (render e none) method all
  | f => valueCall f (render f none) all

theorem render_call {f : Expr} {args : List Expr} {kws : List Keyword} {expected : Option Ty}
    {text : String} (h : render (.call f args kws) expected w c = (.ok text, c')) :
    ∃ all c₁, arguments args kws w c = (.ok all, c₁) ∧
      joined f args kws all w c₁ = (.ok text, c') := by
  rw [render] at h
  obtain ⟨texts, c₁, htexts, h⟩ := bind_eq_ok h
  obtain ⟨more, c₂, hmore, h⟩ := bind_eq_ok h
  refine ⟨texts ++ more, c₂, ?_, h⟩
  simp only [arguments, bind_apply, htexts, hmore]
  rfl

section Named

variable {n : String} {b : Binding}

theorem some_fallibleIf_text {op : Operation} (fails : Bool) (text : String) (w : Settings)
    (c : Context) :
    ((do return some (← fallibleIf op fails text) : Emit (Option String)) w c).1 =
      .ok (some (if fails then c.current.guarded text else text)) := by
  rcases hrun : fallibleIf op fails text w c with ⟨r, c'⟩
  have hr : r = _ := (congrArg Prod.fst hrun).symm.trans (fallibleIf_text fails text w c)
  rw [bind_apply, hrun, hr]
  rfl

/-- A callable type that is not a closure's is that of a function. -/
theorem eq_function_of_callable {ty : Ty} (hcallable : ty.isCallable = true)
    (hclosure : ty.isClosure = false) : ∃ f, ty = .function f ∧ ty.callFails = f.fallible := by
  cases ty with
  | function f => exact ⟨f, rfl, rfl⟩
  | closure _ _ => cases hclosure
  | _ => cases hcallable

theorem isClosureLike_iff (b : Binding) : b.isClosureLike = true ↔
    b.kind = .closure ∨ b.kind = .selfHandle ∨ b.ty.isClosure = true := by
  unfold Binding.isClosureLike
  split <;> simp_all [Ty.isClosure]

/-- A name is called as its binding says. -/
theorem boundCall?_text (hlookup : c.scope.lookup n = some b) (hcallable : b.ty.isCallable = true)
    (hglobal : c.current.globals.contains n = false) (all : List String) :
    (boundCall? n all w c).1 =
      .ok (some ((convention w c b.ty (.name n)).text w.options.allocator c.current
        (c.scope.ident n) all)) := by
  simp only [boundCall?, isDeclaredGlobal, bind_apply, current, pure_apply, hglobal, scope, hlookup,
    convention, Option.any_some, Bool.false_eq_true, if_false]
  by_cases hlike : b.isClosureLike = true
  · simp only [hlike, if_true]
    exact some_fallibleIf_text ..
  · have hclosure : b.ty.isClosure = false := by
      rw [Bool.eq_false_iff]
      exact fun h => hlike ((isClosureLike_iff b).mpr (.inr (.inr h)))
    obtain ⟨f, hty, hfails⟩ := eq_function_of_callable hcallable hclosure
    simp only [hlike, hty, Bool.false_eq_true, if_false]
    exact some_fallibleIf_text ..

/-- A name that is declared global is called as the module says. -/
theorem namedCall_text_of_global {call : Expr} (hlookup : c.scope.lookup n = some b)
    (hresult : b.ty.result? = some (w.oracle.exprType call c.scope))
    (hglobal : c.current.globals.contains n = true) (all : List String) :
    (namedCall call n all w c).1 =
      .ok ((convention w c b.ty (.name n)).text w.options.allocator c.current n all) := by
  have hbound : boundCall? n all w c = (.ok none, c) := by
    simp only [boundCall?, isDeclaredGlobal, bind_apply, current, pure_apply, hglobal, if_true]
  have hdeclared : c.scope.isDeclared n = true := by
    rw [Scope.isDeclared, hlookup]
    rfl
  simp only [namedCall, bind_apply, hbound, options, typeOf, convention, hglobal, hresult, if_true,
    Option.some.injEq]
  split
  · exact fallibleIf_text ..
  · simp only [bind_apply, scope, oracle, hdeclared, Bool.not_true, Bool.and_false,
      Bool.false_eq_true, if_false]
    exact fallibleIf_text ..

theorem callee_computed {f : Expr} (hf : ∀ n, f ≠ .name n) :
    callee f = operand f (render f none) := by
  cases f with
  | name n => exact absurd rfl (hf n)
  | _ => rfl

theorem convention_computed {f : Expr} (hf : ∀ n, f ≠ .name n) (ty : Ty) :
    convention w c ty f = ⟨.member, true⟩ := by
  cases f with
  | name n => exact absurd rfl (hf n)
  | _ => rfl

theorem callee_name (n : String) (w : Settings) (c : Context) : callee (.name n) w c =
    (.ok (if c.current.globals.contains n then n else c.scope.ident n), c) := by
  simp only [callee, name, isDeclaredGlobal, bind_apply, current, pure_apply]
  split <;> rfl

theorem namedCall_text {call : Expr} (hlookup : c.scope.lookup n = some b)
    (hcallable : b.ty.isCallable = true)
    (hresult : b.ty.result? = some (w.oracle.exprType call c.scope)) (all : List String) :
    (namedCall call n all w c).1 =
      .ok ((convention w c b.ty (.name n)).text w.options.allocator c.current
        (if c.current.globals.contains n then n else c.scope.ident n) all) := by
  by_cases hglobal : c.current.globals.contains n = true
  · rw [if_pos hglobal]
    exact namedCall_text_of_global hlookup hresult hglobal all
  · rw [Bool.not_eq_true] at hglobal
    have htext := boundCall?_text (w := w) hlookup hcallable hglobal all
    rcases hrun : boundCall? n all w c with ⟨r, c'⟩
    rw [hrun] at htext
    dsimp only at htext
    rw [namedCall, bind_apply, hrun, htext, hglobal]
    rfl

end Named

/-- A computed callee with a callable type is called through `call`, and the call is guarded. -/
theorem valueCall_text {f : Expr} {written : String} {c₁ : Context}
    (hf : operand f (render f none) w c = (.ok written, c₁))
    (hcallable : (w.oracle.exprType f c₁.scope).isCallable = true) (all : List String) :
    (valueCall f (render f none) all w c).1 =
      .ok (c₁.current.guarded s!"{written}.call({Code.commas all})") := by
  simp only [valueCall, bind_apply, hf, typeOf, hcallable, if_true]
  exact fallible_text ..

/-- A name has the type of its binding, and its calls the result of that type. -/
theorem lookup_of_callable {t : Table} (hw : w.oracle.exprType = fun e s => t.infer s e .empty)
    {n : String} (hcallable : (w.oracle.exprType (.name n) c.scope).isCallable = true) :
    ∃ b, c.scope.lookup n = some b ∧ w.oracle.exprType (.name n) c.scope = b.ty ∧
      ∀ args kws, b.ty.result? = some (w.oracle.exprType (.call (.name n) args kws) c.scope) := by
  have hnone : (NameMap.empty : NameMap Ty).get? n = none := rfl
  simp only [hw, Table.infer, hnone] at hcallable ⊢
  rcases hlookup : c.scope.lookup n with _ | b
  · rw [hlookup] at hcallable
    cases hcallable
  · rw [hlookup] at hcallable
    obtain ⟨signature, hsignature⟩ := Option.isSome_iff_exists.mp hcallable
    have hresult : b.ty.result? = some signature.result := by rw [Ty.result?, hsignature]; rfl
    refine ⟨b, rfl, rfl, ?_⟩
    intro args kws
    simp [Table.callType, hnone, hlookup, hresult]

/-- The text of a call, for a callee that is no method and has a callable type. -/
theorem joined_text {t : Table} (hw : w.oracle.exprType = fun e s => t.infer s e .empty)
    {f : Expr} (hf : ∀ e method, f ≠ .attribute e method) {args : List Expr} {kws : List Keyword}
    {all : List String} {text : String} (h : joined f args kws all w c = (.ok text, c')) :
    ∃ written c₁, callee f w c = (.ok written, c₁) ∧
      ∀ ty, w.oracle.exprType f c₁.scope = ty → ty.isCallable = true →
        text = (convention w c₁ ty f).text w.options.allocator c₁.current written all := by
  by_cases hname : ∃ n, f = .name n
  · obtain ⟨n, rfl⟩ := hname
    refine ⟨_, c, callee_name n w c, ?_⟩
    rintro ty rfl hcallable
    obtain ⟨b, hlookup, hty, hresult⟩ := lookup_of_callable hw hcallable
    rw [hty] at hcallable ⊢
    have htext := namedCall_text hlookup hcallable (hresult args kws) all
    exact Except.ok.inj ((congrArg Prod.fst h).symm.trans htext)
  · have hcomputed : ∀ n, f ≠ .name n := fun n hn => hname ⟨n, hn⟩
    have hvalue : joined f args kws all = valueCall f (render f none) all := by
      cases f with
      | name n => exact absurd rfl (hcomputed n)
      | «attribute» e method => exact absurd rfl (hf e method)
      | _ => rfl
    rw [hvalue] at h
    obtain ⟨written, c₁, hwritten, -⟩ := bind_eq_ok h
    refine ⟨written, c₁, callee_computed hcomputed ▸ hwritten, ?_⟩
    rintro ty rfl hcallable
    have htext := valueCall_text hwritten hcallable all
    rw [convention_computed hcomputed]
    exact Except.ok.inj ((congrArg Prod.fst h).symm.trans htext)

/-- A convention for names follows the type of the name unless a kind of binding overrules it. -/
theorem convention_name_follows_iff {n : String} {b : Binding} (hlookup : c.scope.lookup n = some b)
    (hglobal : n ∉ c.current.globals) : (convention w c b.ty (.name n)).Follows b.ty ↔
      (b.kind = .closure ∨ b.kind = .selfHandle → b.ty.isClosure = true) := by
  have hc : c.current.globals.contains n = false := by simpa using hglobal
  have hform : (convention w c b.ty (.name n)).form = .member ↔ b.isClosureLike = true := by
    simp only [convention, hc, hlookup, Option.any_some, Bool.false_eq_true, if_false]
    split <;> simp_all
  have hfails : (convention w c b.ty (.name n)).fails = b.ty.callFails := by
    simp only [convention, hc, Bool.false_eq_true, if_false]
  rw [Convention.Follows, hform, hfails, isClosureLike_iff]
  constructor
  · rintro ⟨h, -⟩ hkind
    exact h.mp (hkind.imp_right .inl)
  · intro h
    refine ⟨⟨?_, fun hclosure => .inr (.inr hclosure)⟩, rfl⟩
    rintro (hkind | hkind | hclosure)
    · exact h (.inl hkind)
    · exact h (.inr hkind)
    · exact hclosure

theorem convention_global_follows_iff {n : String} {ty : Ty}
    (hglobal : n ∈ c.current.globals) : (convention w c ty (.name n)).Follows ty ↔
      ty.isClosure = false ∧ ty.callFails =
        if ty.result? = some (.record n) then w.options.allocationFails
        else w.oracle.isFallible n := by
  have hc : c.current.globals.contains n = true := by simpa using hglobal
  have hform : (convention w c ty (.name n)).form ≠ .member := by
    simp only [convention, hc, if_true]
    split <;> simp
  have hfails : (convention w c ty (.name n)).fails =
      if ty.result? = some (.record n) then w.options.allocationFails
      else w.oracle.isFallible n := by
    simp only [convention, hc, if_true]
    split <;> rfl
  rw [Convention.Follows, hfails, ← Bool.not_eq_true]
  exact and_congr ⟨fun h hclosure => hform (h.mpr hclosure), fun h => ⟨fun hm => absurd hm hform,
    fun hclosure => absurd hclosure h⟩⟩ eq_comm

end Emit

open Emit

/-- **When a call follows the type of its callee.** The callee of a call has a callable type where
the call is written. The call goes through `call` exactly for a closure and is guarded exactly for
a type that may fail, if and only if

* a name that is not declared global has a closure's type or no binding of a closure's kind;
* a name that is declared global has a function's type, which may fail exactly if the module says
  so of the name, or if allocations fail and the call makes a record of that name;
* any other callee is a closure that may fail. -/
theorem call_follows_type_iff {w : Settings} {t : Table}
    (hw : w.oracle.exprType = fun e s => t.infer s e .empty) {c : Context} {f : Expr}
    (hf : ∀ e method, f ≠ .attribute e method) {args : List Expr} {kws : List Keyword}
    {expected : Option Ty} {text : String}
    (h : (render (.call f args kws) expected w c).1.toOption = some text) :
    ∃ all written c₁ c₂, arguments args kws w c = (.ok all, c₁) ∧
      callee f w c₁ = (.ok written, c₂) ∧
      ∀ ty, w.oracle.exprType f c₂.scope = ty → ty.isCallable = true →
        text = (convention w c₂ ty f).text w.options.allocator c₂.current written all ∧
        ((convention w c₂ ty f).Follows ty ↔
          (∀ n b, f = .name n → n ∉ c₂.current.globals → c₂.scope.lookup n = some b →
            b.kind = .closure ∨ b.kind = .selfHandle → ty.isClosure = true) ∧
          (∀ n, f = .name n → n ∈ c₂.current.globals → ty.isClosure = false ∧ ty.callFails =
            if ty.result? = some (.record n) then w.options.allocationFails
            else w.oracle.isFallible n) ∧
          ((∀ n, f ≠ .name n) → ty.isClosure = true ∧ ty.callFails = true)) := by
  rcases hrun : render (.call f args kws) expected w c with ⟨r, c'⟩
  rw [hrun] at h
  obtain rfl : r = .ok text := by
    cases r with
    | error e => cases h
    | ok a => exact congrArg Except.ok (Option.some.inj h)
  obtain ⟨all, c₁, hargs, hjoined⟩ := render_call hrun
  obtain ⟨written, c₂, hwritten, htext⟩ := joined_text hw hf hjoined
  refine ⟨all, written, c₁, c₂, hargs, hwritten, ?_⟩
  intro ty hty hcallable
  refine ⟨htext ty hty hcallable, ?_⟩
  by_cases hname : ∃ n, f = .name n
  · obtain ⟨n, rfl⟩ := hname
    subst hty
    obtain ⟨b, hlookup, hty, -⟩ := lookup_of_callable hw hcallable
    rw [hty]
    by_cases hglobal : n ∈ c₂.current.globals
    · rw [convention_global_follows_iff hglobal]
      constructor
      · intro hfollows
        refine ⟨?_, ?_, fun hcomputed => absurd rfl (hcomputed n)⟩
        · rintro m b' ⟨⟩ hlocal
          exact absurd hglobal hlocal
        · rintro m ⟨⟩ -
          exact hfollows
      · rintro ⟨-, hmodule, -⟩
        exact hmodule n rfl hglobal
    · rw [convention_name_follows_iff hlookup hglobal]
      constructor
      · intro hfollows
        refine ⟨?_, ?_, fun hcomputed => absurd rfl (hcomputed n)⟩
        · rintro m b' ⟨⟩ - hlookup'
          cases hlookup.symm.trans hlookup'
          exact hfollows
        · rintro m ⟨⟩ hmem
          exact absurd hmem hglobal
      · rintro ⟨hlocal, -, -⟩
        exact hlocal n b rfl hglobal hlookup
  · have hcomputed : ∀ n, f ≠ .name n := fun n hn => hname ⟨n, hn⟩
    rw [convention_computed hcomputed, Convention.Follows]
    constructor
    · rintro ⟨hform, hfails⟩
      exact ⟨fun n _ hn => absurd hn (hcomputed n), fun n hn => absurd hn (hcomputed n),
        fun _ => ⟨hform.mp rfl, hfails.symm⟩⟩
    · rintro ⟨-, -, hvalue⟩
      obtain ⟨hclosure, hfails⟩ := hvalue hcomputed
      exact ⟨⟨fun _ => hclosure, fun _ => rfl⟩, hfails.symm⟩

/-- **A call of one of two functions that cannot fail**, as `(p if True else q)()`: it goes through
`call` and is guarded, neither of which the type of the callee asks for. -/
theorem call_follows_type_iff_choice :
    let signature : Signature := { params := [], result := .int, fallible := false }
    let w : Settings := ⟨({} : Table).oracle, {}⟩
    let s : Scope := ({} : Scope).pushFunction "f" []
      |>.declare "p" { ty := .function signature } |>.declare "q" { ty := .function signature }
    let c : Context := { scope := s }
    let f : Expr := .ifElse (.constant (.bool true)) (.name "p") (.name "q")
    (render (.call f [] []) none w c).1.toOption = some "try (if (true) p else q).call()" ∧
      w.oracle.exprType f c.scope = .function signature ∧
      ¬ (convention w c (.function signature) f).Follows (.function signature) := by
  intro signature w s c f
  have htext : (render (.call f [] []) none w c).1.toOption =
      some "try (if (true) p else q).call()" := by
    decide +kernel
  have htype : w.oracle.exprType f c.scope = .function signature := by
    decide +kernel
  obtain ⟨all, written, c₁, c₂, hargs, hwritten, hcall⟩ :=
    call_follows_type_iff (t := {}) rfl (fun _ _ => by simp [f]) htext
  obtain rfl : c₁ = c := (congrArg Prod.snd hargs).symm
  obtain rfl : c₂ = c := (congrArg Prod.snd hwritten).symm
  obtain ⟨-, hfollows⟩ := hcall _ htype rfl
  refine ⟨htext, htype, fun h => ?_⟩
  obtain ⟨-, -, hcomputed⟩ := hfollows.mp h
  exact absurd (hcomputed fun n => by simp [f]).2 (by decide)

end ClosureConversion
