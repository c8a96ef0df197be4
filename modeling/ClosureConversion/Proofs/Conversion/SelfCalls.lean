import ClosureConversion.Proofs.Conversion.ContainerNames
import ClosureConversion.Proofs.Effects.Calls
import ClosureConversion.Proofs.Emit.Nested
import ClosureConversion.Proofs.Emit.Rewinding
import ClosureConversion.Proofs.Scope.Lookup

/-! # Calls of a closure in its own body -/

set_option autoImplicit false

namespace ClosureConversion

namespace Emit

variable {w : Settings} {c c' : Context}

/-! ## The handle -/

/-- What the name of a recursive closure is bound to in its own body. -/
def Draft.handle (d : Draft) (ident : String) (fails : Bool) : Binding :=
  { kind := .selfHandle
    slot := ⟨ident, .receiver⟩
    ty := .closure d.wrapper { params := d.paramTypes
                               result := d.declaredReturn.getD .unknown
                               fallible := fails } }

theorem declareFormal_leaves (u : Usage) {name n : String} (h : name ≠ n) (ty : Ty) :
    Leaves (·.scope.lookup n) (declareFormal u name ty) := by
  intro w c
  exact (Scope.lookup_declareAs ..).trans ((if_neg h).trans (Scope.lookup_reserveIdent ..))

/-- **The handle says what was assumed.** Effect analysis sees the handle as it was declared, and
the body then sees it as the analysis found it, or as it was assumed. -/
theorem enterClosure_handle {d : Draft} {assumed : Option Bool} {e : Entry}
    (hrecursive : d.representation.recursive = true)
    (hformals : d.function.name ∉ d.function.formals)
    (h : enterClosure d assumed w c = (.ok e, c')) :
    ∃ ident s, s.lookup d.function.name = some (d.handle ident (assumed.getD false)) ∧
      e.effectsFail = mayFail d.function.body s w.oracle w.options ∧
      e.assumedFallible = assumed.getD e.effectsFail ∧
      c'.scope.lookup d.function.name = some (d.handle ident e.assumedFallible) := by
  obtain ⟨⟨envParam, selfParam⟩, c₁, hreceivers, h⟩ := bind_eq_ok h
  obtain ⟨_, c₂, -, h⟩ := bind_eq_ok h
  obtain ⟨_, c₃, hhandle, h⟩ := bind_eq_ok h
  obtain ⟨formals, c₄, hdeclared, h⟩ := bind_eq_ok h
  obtain ⟨ident, rfl⟩ : ∃ ident, selfParam = some ident := by
    have hshape : d.representation.shape = .recursiveSelfCapture := if_pos hrecursive
    rw [hshape] at hreceivers
    cases hreceivers
    exact ⟨_, rfl⟩
  have hbound : c₃.scope.lookup d.function.name = some (d.handle ident (assumed.getD false)) := by
    simp only [declareHandle, hrecursive] at hhandle
    cases hhandle
    exact (Scope.lookup_declareAs ..).trans (if_pos rfl)
  have hspared : Leaves (·.scope.lookup d.function.name)
      (declareFormals d.function d.paramTypes d.usage) := by
    refine declareFormals_leaves fun n hn ty => declareFormal_leaves d.usage ?_ ty
    rintro rfl
    exact hformals hn
  have hkept : c₄.scope.lookup d.function.name = c₃.scope.lookup d.function.name := by
    have := hspared w c₃
    rwa [hdeclared] at this
  refine ⟨ident, c₄.scope, hkept.trans hbound, ?_⟩
  simp only [hrecursive, if_true] at h
  cases h
  refine ⟨rfl, rfl, ?_⟩
  show ((c₄.scope.modifyBinding _ _).lookup _) = _
  rw [Scope.lookup_modifyBinding, hkept, hbound]
  rfl

/-! ## One writing and two -/

/-- One writing of a closure's body: what the handle says in it, and what comes out. The closure
fails if something in the body was written as failing, or if the analysis expects it to. -/
def Draft.Writes (d : Draft) (body : Buffer → Emit Buffer) (w : Settings) (assumed : Option Bool)
    (parts : Closure.Parts) : Prop :=
  ∃ ident s formals c₁ written c₂,
    s.lookup d.function.name = some (d.handle ident (assumed.getD false)) ∧
    parts.assumedFallible = assumed.getD (mayFail d.function.body s w.oracle w.options) ∧
    c₁.scope.lookup d.function.name = some (d.handle ident parts.assumedFallible) ∧
    functionBody d.function d.qualname formals d.usage body w c₁ = (.ok written, c₂) ∧
    parts.body = written.text ∧
    parts.fallible = (written.failed || mayFail d.function.body s w.oracle w.options)

/-- The first writing is discarded: the closure fails, and its own calls were written as if not. -/
def Draft.WrittenTwice (d : Draft) (body : Buffer → Emit Buffer) (w : Settings) (c : Context) :
    Prop :=
  ∃ first c₁, closureParts d none body w c = (.ok first, c₁) ∧ first.fallible = true ∧
    first.assumedFallible = false

section Writings

variable {d : Draft} {body : Buffer → Emit Buffer} {parts : Closure.Parts}

theorem closureParts_writes {assumed : Option Bool}
    (hrecursive : d.representation.recursive = true)
    (hformals : d.function.name ∉ d.function.formals)
    (h : closureParts d assumed body w c = (.ok parts, c')) : d.Writes body w assumed parts := by
  obtain ⟨c₁, left, hframe, -, -⟩ := inFrame_eq_ok h
  obtain ⟨e, c₂, henter, hframe⟩ := bind_eq_ok hframe
  obtain ⟨written, c₃, hbody, hframe⟩ := bind_eq_ok hframe
  obtain ⟨ident, s, hdeclared, heffects, hassumed, hhandle⟩ :=
    enterClosure_handle hrecursive hformals henter
  cases hframe
  refine ⟨ident, s, e.formals, c₂, written, c₁, hdeclared, ?_, hhandle, hbody, rfl, ?_⟩
  · rw [← heffects]
    exact hassumed
  · rw [← heffects]

/-- **What is accepted.** A body that is written once is accepted if the two flags agree. One that
is written twice is accepted as it is, with its own calls written as failing. -/
theorem settledParts_writes (hrecursive : d.representation.recursive = true)
    (hformals : d.function.name ∉ d.function.formals)
    (h : settledParts d body w c = (.ok parts, c')) :
    (¬ d.WrittenTwice body w c ∧ d.Writes body w none parts ∧
        parts.assumedFallible = parts.fallible) ∨
      (d.WrittenTwice body w c ∧ d.Writes body w (some true) parts ∧
        parts.assumedFallible = true) := by
  rw [settledParts_apply] at h
  rcases hfirst : closureParts d none body w c with ⟨r, c₁⟩
  rw [hfirst] at h
  cases r with
  | error e => cases h
  | ok first =>
    dsimp only at h
    split at h
    · rename_i hdiscarded
      simp only [hrecursive, Bool.true_and, Bool.and_eq_true, Bool.not_eq_true'] at hdiscarded
      have hwrites := closureParts_writes hrecursive hformals h
      refine .inr ⟨⟨first, c₁, hfirst, hdiscarded⟩, hwrites, ?_⟩
      obtain ⟨ident, s, formals, c₂, written, c₃, -, hassumed, -⟩ := hwrites
      exact hassumed
    · rename_i haccepted
      cases h
      have hwrites := closureParts_writes hrecursive hformals hfirst
      have hassumed : parts.fallible = true → parts.assumedFallible = true := by
        simpa [hrecursive] using haccepted
      refine .inl ⟨?_, hwrites, ?_⟩
      · rintro ⟨first, c₂, heq, hfails, hnot⟩
        obtain rfl : parts = first := by
          rw [hfirst] at heq
          injection heq with heq
          injection heq
        exact Bool.false_ne_true (hnot.symm.trans (hassumed hfails))
      · -- what the analysis expects to fail counts as failing
        obtain ⟨ident, s, formals, c₂, written, c₃, -, heffects, -, -, -, hfails⟩ := hwrites
        rw [Bool.eq_iff_iff]
        refine ⟨fun hexpected => ?_, hassumed⟩
        have hmay : mayFail d.function.body s w.oracle w.options = true :=
          heffects.symm.trans hexpected
        rw [hfails, hmay, Bool.or_true]

end Writings

/-! ## What callers are told -/

/-- The result of a routine as it is spelled. -/
def resultText (o : Options) (ty : Option Ty) (fails : Bool) : String :=
  let base := match ty with
    | none => "void"
    | some .unknown => o.unknownReturnType
    | some (.union _) => dynamicValue
    | some t => t.target
  if fails then s!"anyerror!{base}" else base

theorem returnText_eq_ok {ty : Option Ty} {fails : Bool} {qualname result : String} {f : Function}
    (h : returnText ty fails qualname f w c = (.ok result, c')) :
    result = resultText w.options ty fails := by
  cases ty with
  | none => cases h; rfl
  | some t => cases t <;> cases h <;> rfl

/-- The type of the closure, its summary and the declaration of its routines all say whether it
fails. -/
structure Draft.Publishes (d : Draft) (w : Settings) (parts : Closure.Parts) (built : BuiltClosure)
    (c : Context) : Prop where
  signature : built.signature.fallible = parts.fallible
  bound : ∃ b, c.scope.lookup d.function.name = some b ∧ b.ty = built.ty
  summary : c.closures.getLast? = some (d.summary parts.fallible)
  declared : ∃ before after, c.declarations = before ++ ((Closure.declarations d.wrapper d.layout
    d.representation.captures parts
      (resultText w.options (d.declaredReturn.or parts.returnType) parts.fallible)).text ++ "\n") ++
        after

theorem bindInstance_bound {d : Draft} {ident : String} {signature : Signature}
    {decorators : List (Emit String)} {discardUnused : Bool} {out out' : Buffer}
    (h : bindInstance d ident signature decorators discardUnused out w c = (.ok out', c')) :
    ∃ b, c'.scope.lookup d.function.name = some b ∧ b.ty = .closure d.wrapper signature := by
  obtain ⟨init, c₁, -, h⟩ := bind_eq_ok h
  obtain ⟨out₁, c₂, -, h⟩ := bind_eq_ok h
  obtain ⟨state, c₃, -, h⟩ := bind_eq_ok h
  obtain ⟨read, c₄, -, h⟩ := bind_eq_ok h
  obtain ⟨_, c₅, hwrapper, h⟩ := bind_eq_ok h
  cases h
  cases hwrapper
  exact ⟨_, (Scope.lookup_declareAs ..).trans (if_pos rfl), rfl⟩

theorem bindClosure_publishes {d : Draft} {ident : String} {parts : Closure.Parts}
    {decorators : List Expr} {discardUnused : Bool} {out out' : Buffer} {built : BuiltClosure}
    (h : bindClosure d ident parts (decorators.map renderExpr) discardUnused out w c =
      (.ok (built, out'), c')) : d.Publishes w parts built c' := by
  obtain ⟨signature, c₁, hdeclare, h⟩ := bind_eq_ok h
  obtain ⟨out₁, c₂, hinstance, h⟩ := bind_eq_ok h
  obtain ⟨_, c₃, hlist, h⟩ := bind_eq_ok h
  have hbound := bindInstance_bound hinstance
  have hcomposed : Composed .free (bindInstance d ident signature (decorators.map renderExpr)
      discardUnused out) := by
    refine bindInstance_composed d ident signature discardUnused out fun x hx => ?_
    obtain ⟨e, -, rfl⟩ := List.mem_map.mp hx
    exact renderExpr_composed e
  obtain ⟨beside, hbeside⟩ := hcomposed.makes w c₁ _ c₂ hinstance
  obtain ⟨result, c₄, hresult, hdeclare⟩ := bind_eq_ok hdeclare
  obtain rfl := returnText_eq_ok hresult
  cases hdeclare
  cases hlist
  cases h
  refine ⟨rfl, hbound, List.getLast?_concat, c₄.declarations, String.join (beside.map Prod.snd), ?_⟩
  rw [← String.append_assoc]
  exact hbeside.declarations

end Emit

/-! ## Agreement -/

/-- The body calls the function by a name that it does not bind itself, where no bare handler takes
the error. -/
def Function.InvokesItself (f : Function) : Prop :=
  Stmt.anyInvokes f.name f.body = true ∧ (Effects.boundAll f.body .empty).get? f.name = none

/-- Where the handle fails, the analysis sees that the body does. -/
theorem Emit.Draft.Writes.fallible {d : Emit.Draft} {body : Buffer → Emit Buffer} {w : Settings}
    {parts : Closure.Parts} (h : d.Writes body w (some true) parts)
    (hself : d.function.InvokesItself) : parts.fallible = true := by
  obtain ⟨ident, s, formals, c₁, written, c₂, hhandle, -, -, -, -, hfails⟩ := h
  rw [hfails, Effects.mayFail_of_invokes w.oracle w.options hself.1 hself.2 hhandle rfl rfl,
    Bool.or_true]

/-- **When a recursive closure is what its own calls were written for.** Its type, its summary and
the spelling of its result say whether the accepted body fails, and its own calls were written for
one that does. The two agree for a body that is written once. For one that is written twice they
agree exactly if the second writing fails again. It does if the function calls itself where no bare
handler takes the error, and it need not otherwise. -/
theorem selfCalls_agree_iff {f : Function} {body : Buffer → Emit Buffer} {discardUnused : Bool}
    {out out' : Buffer} {built : BuiltClosure} {w : Settings} {c c' : Context}
    (hrecursive : (Usage.ofFunction f).selfRecursive = true)
    (hmade : Emit.synthesize f body (f.decorators.map Emit.renderExpr) discardUnused out w c =
      (.ok (built, out'), c')) :
    ∃ d ident c₀ parts c₁,
      Emit.prepare f w c = (.ok (d, ident), c₀) ∧
      Emit.settledParts d body w { c₀ with prelude := {} } = (.ok parts, c₁) ∧
      d.Publishes w parts built c' ∧
      (d.WrittenTwice body w { c₀ with prelude := {} } ∧ d.Writes body w (some true) parts ∨
        ¬ d.WrittenTwice body w { c₀ with prelude := {} } ∧ d.Writes body w none parts) ∧
      (parts.fallible = true → parts.assumedFallible = true) ∧
      (parts.assumedFallible = parts.fallible ↔
        (d.WrittenTwice body w { c₀ with prelude := {} } → parts.fallible = true)) ∧
      (f.InvokesItself → parts.assumedFallible = parts.fallible) := by
  obtain ⟨⟨d, ident⟩, c₀, hprepare, hmade⟩ := Emit.bind_eq_ok hmade
  obtain ⟨⟨parts, text⟩, c₁, hparts, hmade⟩ := Emit.bind_eq_ok hmade
  obtain ⟨c₂, hsettled, -, -⟩ := Emit.isolated_eq_ok hparts
  obtain ⟨hfunction, hdraft, -, -⟩ := Emit.prepare_eq_ok hprepare
  subst hfunction
  have hrepresented : d.representation.recursive = true := by
    rw [hdraft.recursive, hdraft.usage]
    exact hrecursive
  have hformals : d.function.name ∉ d.function.formals := by
    have hhidden := ((Usage.ofFunction_selfRecursive _).mp hrecursive).2
    simp only [Usage.hides, Finset.mem_union, List.mem_toFinset, not_or] at hhidden
    exact hhidden.1.1
  refine ⟨d, ident, c₀, parts, c₂, hprepare, hsettled, Emit.bindClosure_publishes hmade, ?_⟩
  rcases Emit.settledParts_writes hrepresented hformals hsettled with
    ⟨honce, hwrites, hagree⟩ | ⟨htwice, hwrites, hassumed⟩
  · exact ⟨.inr ⟨honce, hwrites⟩, fun hfails => hagree.trans hfails,
      ⟨fun _ htwice => absurd htwice honce, fun _ => hagree⟩, fun _ => hagree⟩
  · exact ⟨.inl ⟨htwice, hwrites⟩, fun _ => hassumed,
      ⟨fun hagree _ => hagree.symm.trans hassumed, fun h => hassumed.trans (h htwice).symm⟩,
      fun hself => hassumed.trans (hwrites.fallible hself).symm⟩

/-- A function that calls itself under a bare handler, which binds `x` to a value of another type. -/
def recovering : Function :=
  { name := "f"
    params := [{ name := "n", declared := some .int }]
    body := [
      .assign (.name "x") (.constant (.str "a")) none,
      .tryExcept [.expr (.call (.name "f") [.name "n"] [])]
        [⟨none, none, [.assign (.name "x") (.constant (.int 1)) none]⟩] [] [],
      .expr (.binary .add (.name "x") (.name "n"))] }

/-- **The two need not agree.** In the first writing the call cannot fail, so there is no handler,
`x` stays a string and joining it to `n` fails. In the second one there is a handler, `x` may be a
number after it, the sum is a plain one and nothing fails. -/
theorem selfCalls_disagree_recovering :
    ∃ d ident c₀ parts c₁ built out c',
      Emit.prepare recovering ⟨Table.oracle {}, {}⟩ joiningStart = (.ok (d, ident), c₀) ∧
      Emit.settledParts d (Emit.stmts recovering.body) ⟨Table.oracle {}, {}⟩
        { c₀ with prelude := {} } = (.ok parts, c₁) ∧
      Emit.synthesize recovering (Emit.stmts recovering.body) [] false {} ⟨Table.oracle {}, {}⟩
        joiningStart = (.ok (built, out), c') ∧
      d.WrittenTwice (Emit.stmts recovering.body) ⟨Table.oracle {}, {}⟩
        { c₀ with prelude := {} } ∧
      parts.assumedFallible = true ∧ built.signature.fallible = false := by
  have hmakes : (match Emit.synthesize recovering (Emit.stmts recovering.body) [] false {}
      ⟨Table.oracle {}, {}⟩ joiningStart with
      | (.ok _, _) => true
      | _ => false) = true := by decide +kernel
  have hflags : (match Emit.prepare recovering ⟨Table.oracle {}, {}⟩ joiningStart with
      | (.ok (d, _), c₀) =>
        match Emit.settledParts d (Emit.stmts recovering.body) ⟨Table.oracle {}, {}⟩
          { c₀ with prelude := {} } with
        | (.ok parts, _) => parts.assumedFallible && !parts.fallible
        | _ => false
      | _ => false) = true := by decide +kernel
  rcases hmade : Emit.synthesize recovering (Emit.stmts recovering.body) [] false {}
    ⟨Table.oracle {}, {}⟩ joiningStart with ⟨r, c'⟩
  rw [hmade] at hmakes
  rcases r with e | ⟨built, out⟩
  · cases hmakes
  · obtain ⟨d, ident, c₀, parts, c₁, hprepare, hsettled, hpublishes, -, -, hagree, -⟩ :=
      selfCalls_agree_iff (f := recovering) (by decide +kernel) hmade
    simp only [hprepare, hsettled, Bool.and_eq_true, Bool.not_eq_true'] at hflags
    obtain ⟨hassumed, hfallible⟩ := hflags
    refine ⟨d, ident, c₀, parts, c₁, built, out, c', hprepare, hsettled, rfl, ?_, hassumed,
      hpublishes.signature.trans hfallible⟩
    by_contra honce
    have heq := hagree.mpr fun htwice => absurd htwice honce
    exact Bool.false_ne_true (hfallible.symm.trans (heq.symm.trans hassumed))

end ClosureConversion
