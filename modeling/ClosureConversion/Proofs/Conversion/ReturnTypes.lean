import ClosureConversion.Proofs.Conversion.Attempts
import ClosureConversion.Proofs.Conversion.Fallibility

/-! # Result types of converted functions -/

set_option autoImplicit false

namespace ClosureConversion

/-! ## The body of a function of the module -/

/-- The code of the function is this body, between a head and a brace. -/
def ConvertedFunction.Holds (g : ConvertedFunction) (body : WrittenBody) : Prop :=
  ∃ head, g.code = (Buffer.nested {} head "\x7d" (·.block body.text)).text

namespace Emit

/-- The body of a function, written in the frame that was opened for it. -/
def bodyFrame (f : Function) (types : List Ty) : Emit WrittenBody := do
  let usage := Usage.ofFunction f
  tell [.analyzed f.name f.formals f.body]
  let formals ← declareFormals f types usage
  functionBody f f.name formals usage (stmts f.body)

/-- What converting a function of the module writes as its body. -/
def topLevelBody (f : Function) : Emit WrittenBody := do
  let types ← formalTypes f f.name
  inFrame (.function f.name f.formals) (bodyFrame f types)

variable {w : Settings} {c c' : Context}

theorem bodyFrame_composed (f : Function) (types : List Ty) :
    Composed (.held false) (bodyFrame f types) :=
  .bind (.edits (tell_edits _)) fun _ =>
    .bind (.edits (declareFormals_edits ..)) fun formals =>
      functionBody_composed f f.name formals _ (body_composed f.body)

/-- A frame that was entered can be left. -/
theorem inFrame_ok_of_balanced {α : Type} {kind : FrameKind} {x : Emit α} {a : α} {c₁ : Context}
    (hx : Balanced x) (h : x w { c with scope := c.scope.push kind } = (.ok a, c₁)) :
    (inFrame kind x w c).1 = .ok a := by
  have hinside := (hx w { c with scope := c.scope.push kind }).1
  rw [h] at hinside
  obtain ⟨left, hpop, -⟩ := Scope.exists_pop_of_keeps hinside.scope
  unfold inFrame
  rw [h]
  dsimp only
  rw [hpop]

/-- **A converted function holds the body that was written for it.** Its type is what is known of
it, or else what the body returns. -/
theorem topLevel_body {f : Function} {signature : Option Signature} {g : ConvertedFunction}
    (h : topLevel f signature w c = (.ok g, c')) :
    ∃ written, (topLevelBody f w c).1 = .ok written ∧ g.Holds written ∧
      g.returnType = ((f.declaredResult.or (signature.map Signature.result)).filter
        (!·.isUnknown)).getD (written.returnType.getD .none) := by
  obtain ⟨types, c₁, htypes, h⟩ := bind_eq_ok h
  obtain ⟨c₂, left, hframe, -, -⟩ := inFrame_eq_ok h
  unfold topLevelFrame at hframe
  obtain ⟨_, told, htell, hframe⟩ := bind_eq_ok hframe
  obtain ⟨formals, c₃, hformals, hframe⟩ := bind_eq_ok hframe
  obtain ⟨s, _, hs, hframe⟩ := bind_eq_ok hframe
  cases hs
  obtain ⟨o, _, ho, hframe⟩ := bind_eq_ok hframe
  cases ho
  obtain ⟨opts, _, hopts, hframe⟩ := bind_eq_ok hframe
  cases hopts
  obtain ⟨written, c₄, hwritten, hframe⟩ := bind_eq_ok hframe
  obtain ⟨result, c₅, -, hframe⟩ := bind_eq_ok hframe
  have hbody : bodyFrame f types w
      { c₁ with scope := c₁.scope.push (.function f.name f.formals) } = (.ok written, c₄) := by
    unfold bodyFrame
    rw [bind_apply, htell]
    dsimp only
    rw [bind_apply, hformals]
    exact hwritten
  refine ⟨written, ?_, ?_, ?_⟩
  · unfold topLevelBody
    rw [bind_apply, htypes]
    exact inFrame_ok_of_balanced (bodyFrame_composed f types).balanced hbody
  · cases hframe
    exact ⟨_, rfl⟩
  · cases hframe
    cases (f.declaredResult.or (signature.map Signature.result)).filter (!·.isUnknown) <;> rfl

end Emit

/-! ## Types of attempts -/

namespace Attempt

variable (w : Settings) (a : Attempt)

/-- The body that the attempt writes. -/
def body : Except ConvertError WrittenBody := (Emit.topLevelBody a.function w a.start).1

/-- Join of the types that the body returns; nothing is returned as `none`. -/
def returned : Ty :=
  match a.body w with
  | .ok written => written.returnType.getD .none
  | .error _ => .none

/-- The type of the function as long as nothing else is known of it. -/
def offer : Ty := (a.function.declaredResult.filter (!·.isUnknown)).getD (a.returned w)

variable {w a} {sigs : Signatures}

theorem returnType_eq {g : ConvertedFunction} (h : a.outcome sigs w = .ok g) :
    ∃ written, a.body w = .ok written ∧ g.Holds written ∧
      a.returned w = written.returnType.getD .none ∧
      g.returnType = ((a.function.declaredResult.or
        ((sigs.get? a.function.name).map Signature.result)).filter (!·.isUnknown)).getD
          (a.returned w) := by
  obtain ⟨g', c, hrun, rfl⟩ := outcome_eq_ok h
  obtain ⟨written, hbody, hholds, htype⟩ := Emit.topLevel_body hrun
  have hreturned : a.returned w = written.returnType.getD .none := by
    unfold returned body
    rw [hbody]
  exact ⟨written, hbody, hholds, hreturned, by rw [hreturned]; exact htype⟩

/-- Where the signature knows no result, the function gets the type it offers. -/
theorem returnType_eq_offer {g : ConvertedFunction} {s : Signature}
    (hsig : sigs.get? a.function.name = some s) (hunknown : s.result = .unknown)
    (h : a.outcome sigs w = .ok g) : g.returnType = a.offer w := by
  obtain ⟨written, -, -, -, htype⟩ := returnType_eq h
  rw [htype, hsig, offer, Option.map_some, hunknown]
  cases a.function.declaredResult <;> rfl

end Attempt

/-! ## The first known type -/

def firstKnown (tys : List Ty) : Option Ty := tys.find? (!·.isUnknown)

theorem firstKnown_append (tys more : List Ty) :
    firstKnown (tys ++ more) = (firstKnown tys).or (firstKnown more) := List.find?_append

theorem firstKnown_cons (ty : Ty) (tys : List Ty) :
    firstKnown (ty :: tys) = if ty.isUnknown then firstKnown tys else some ty := by
  rw [firstKnown, List.find?_cons]
  cases ty.isUnknown <;> rfl

theorem firstKnown_singleton (ty : Ty) : (firstKnown [ty]).getD .unknown = ty := by
  cases ty <;> rfl

theorem firstKnown_eq_some {tys : List Ty} {ty : Ty} (h : firstKnown tys = some ty) :
    ty ∈ tys ∧ ty ≠ .unknown := by
  refine ⟨List.mem_of_find?_eq_some h, ?_⟩
  have hknown := List.find?_some h
  rintro rfl
  cases hknown

/-- A pass brings the first type that is known into a signature, and leaves it there. -/
theorem result_refineSignatures (name : String) (sigs : Signatures)
    (functions : List ConvertedFunction) :
    ((refineSignatures sigs functions).get? name).map Signature.result =
      (sigs.get? name).map fun s => (firstKnown (s.result ::
        (functions.filter (·.name == name)).map ConvertedFunction.returnType)).getD .unknown := by
  unfold refineSignatures
  induction functions generalizing sigs with
  | nil => exact congrArg (Option.map · _) (funext fun s => (firstKnown_singleton s.result).symm)
  | cons g rest ih =>
    rw [List.foldl_cons, ih, NameMap.get?_modify, List.filter_cons]
    by_cases hname : g.name = name
    · rw [if_pos hname, if_pos (by simpa using hname), Option.map_map]
      refine congrArg (Option.map · _) (funext fun s => ?_)
      simp only [Function.comp_apply, refineSignature, List.map_cons, firstKnown_cons]
      by_cases hunknown : s.result.isUnknown = true <;> simp [hunknown]
    · rw [if_neg hname, if_neg (by simpa using hname)]

/-! ## Results round by round -/

/-- The types that a round's conversions of `name` offer. -/
def Round.offers (m : Module) (w : Settings) (name : String) (r : Round) : List Ty :=
  ((r.attempts m w).filter fun a =>
    a.function.name == name && (a.converted? r.signatures w).isSome).map (·.offer w)

/-- The types that were found for `name` before round `n`, the first signature's included. -/
def Module.resultsBefore (m : Module) (w : Settings) (name : String) : Nat → List Ty
  | 0 => (((m.round w 0).signatures.get? name).map Signature.result).toList
  | n + 1 => m.resultsBefore w name n ++ (m.round w n).offers m w name

section Results

variable {m : Module} {w : Settings} {name : String}

theorem Round.returnTypes_eq_offers {r : Round} {s : Signature}
    (hsig : r.signatures.get? name = some s) (hunknown : s.result = .unknown) :
    ((r.pass m w).functions.filter (·.name == name)).map ConvertedFunction.returnType =
      r.offers m w name := by
  rw [functions_pass, offers]
  induction r.attempts m w with
  | nil => rfl
  | cons a rest ih =>
    rw [List.filterMap_cons, List.filter_cons]
    cases hconverted : a.converted? r.signatures w with
    | none => simpa using ih
    | some g =>
      have houtcome := Attempt.converted?_eq_some.mp hconverted
      have hname := Attempt.outcome_name houtcome
      rw [List.filter_cons, hname]
      by_cases hkey : a.function.name = name
      · have htype := Attempt.returnType_eq_offer (hkey ▸ hsig) hunknown houtcome
        simpa [hkey, htype] using ih
      · simpa [hkey] using ih

/-- **The result in a signature is the first that was known.** -/
theorem signature_result_eq (n : Nat) {s : Signature}
    (h : (m.round w n).signatures.get? name = some s) :
    s.result = (firstKnown (m.resultsBefore w name n)).getD .unknown := by
  induction n generalizing s with
  | zero =>
    rw [Module.resultsBefore, h]
    exact (firstKnown_singleton s.result).symm
  | succ n ih =>
    have hrefined := result_refineSignatures name (m.round w n).signatures
      ((m.round w n).pass m w).functions
    rw [show refineSignatures _ _ = (m.round w (n + 1)).signatures from rfl, h] at hrefined
    obtain ⟨old, hold, hresult⟩ := Option.map_eq_some_iff.mp hrefined.symm
    have hbefore := ih hold
    rw [← hresult, Module.resultsBefore, firstKnown_append, firstKnown_cons]
    by_cases hunknown : old.result = .unknown
    · rw [Round.returnTypes_eq_offers hold hunknown, hunknown,
        if_pos (show Ty.unknown.isUnknown = true from rfl)]
      have hnone : firstKnown (m.resultsBefore w name n) = none := by
        cases hfound : firstKnown (m.resultsBefore w name n) with
        | none => rfl
        | some ty =>
          rw [hfound, hunknown] at hbefore
          exact absurd hbefore.symm (firstKnown_eq_some hfound).2
      rw [hnone, Option.none_or]
    · rw [if_neg (by simpa using hunknown)]
      cases hfound : firstKnown (m.resultsBefore w name n) with
      | none =>
        rw [hfound] at hbefore
        exact absurd hbefore hunknown
      | some ty =>
        rw [hfound] at hbefore
        rw [hbefore]
        rfl

/-! ## Where a known type comes from -/

theorem Emit.initialSignature_result (f : Function) :
    Emit.Yields w (Emit.initialSignature f) fun e =>
      e.1 = f.name ∧
        e.2.result = (f.declaredResult.or (w.oracle.returnType f.name)).getD .unknown := by
  refine Emit.yields_bind (Emit.formalTypes_yields f f.name) fun params _ c => ?_
  exact ⟨_, c, rfl, rfl, rfl⟩

/-- A first signature knows what a function of its name declares, or what the oracle says. -/
theorem initialSignatures_result {s : Signature}
    (h : (m.round w 0).signatures.get? name = some s) :
    ∃ f ∈ m.functions, f.name = name ∧
      s.result = (f.declaredResult.or (w.oracle.returnType name)).getD .unknown := by
  obtain ⟨entries, hsigs, -, hentries⟩ :=
    initialSignatures_of_yields fun f (_ : f ∈ m.functions) => Emit.initialSignature_result f
  rw [hsigs] at h
  obtain ⟨f, hf, hkey, hresult⟩ := hentries _ (NameMap.mem_of_get?_ofList h)
  obtain rfl : name = f.name := hkey
  exact ⟨f, hf, rfl, hresult⟩

theorem mem_resultsBefore {n : Nat} {ty : Ty} (h : ty ∈ m.resultsBefore w name n) :
    (∃ s, (m.round w 0).signatures.get? name = some s ∧ ty = s.result) ∨
      ∃ i < n, ∃ a ∈ (m.round w i).attempts m w, a.function.name = name ∧
        (a.converted? (m.round w i).signatures w).isSome ∧ ty = a.offer w := by
  induction n with
  | zero =>
    rw [Module.resultsBefore, Option.mem_toList, Option.map_eq_some_iff] at h
    obtain ⟨s, hs, hresult⟩ := h
    exact .inl ⟨s, hs, hresult.symm⟩
  | succ n ih =>
    rcases List.mem_append.mp h with hearlier | hlatest
    · rcases ih hearlier with hinitial | ⟨i, hi, hround⟩
      · exact .inl hinitial
      · exact .inr ⟨i, Nat.lt_succ_of_lt hi, hround⟩
    · obtain ⟨a, ha, hoffer⟩ := List.mem_map.mp hlatest
      rw [List.mem_filter, Bool.and_eq_true, beq_iff_eq] at ha
      exact .inr ⟨n, Nat.lt_succ_self n, a, ha.1, ha.2.1, ha.2.2, hoffer.symm⟩

/-- What is known of a function that nobody declares a result of comes from a body of its name
that an earlier round wrote. -/
theorem exists_body_of_firstKnown (hdeclared : ∀ f ∈ m.functions, f.name = name →
      f.declaredResult = none) (horacle : w.oracle.returnType name = none) {n : Nat} {ty : Ty}
    (h : firstKnown (m.resultsBefore w name n) = some ty) :
    ∃ i < n, ∃ a ∈ (m.round w i).attempts m w, a.function.name = name ∧
      ∃ written, a.body w = .ok written ∧ ty = written.returnType.getD .none := by
  obtain ⟨hmem, hknown⟩ := firstKnown_eq_some h
  rcases mem_resultsBefore hmem with ⟨s, hs, rfl⟩ | ⟨i, hi, a, ha, hname, hsome, rfl⟩
  · obtain ⟨f, hf, hfname, hresult⟩ := initialSignatures_result hs
    rw [hdeclared f hf hfname, horacle] at hresult
    exact absurd hresult hknown
  · obtain ⟨g, hg⟩ := Option.isSome_iff_exists.mp hsome
    obtain ⟨written, hbody, -, hreturned, -⟩ :=
      Attempt.returnType_eq (Attempt.converted?_eq_some.mp hg)
    refine ⟨i, hi, a, ha, hname, written, hbody, ?_⟩
    rw [Attempt.offer, hdeclared _ (Round.function_mem _ ha) hname, ← hreturned]
    rfl

end Results

/-- **When the type of a function is that of its body.** A converted function holds the body that
the last round wrote for it. If it declares no result type, its type is the first that was known
of its name before that round, and the join of the types that the body returns only if none was.
So the two agree exactly if no other type was known before.

Where neither a function of this name nor the oracle declares a result, what was known is the
join of the types that a body returned in an earlier round. -/
theorem convert_returnType_agrees_iff (m : Module) (oracle : Oracle) (options : Options)
    {g : ConvertedFunction} (hg : g ∈ (convert m oracle options).functions) :
    let w : Settings := { oracle, options }
    let last := m.round w (m.lastRound w)
    let known := firstKnown (m.resultsBefore w g.name (m.lastRound w))
    ∃ a ∈ last.attempts m w, a.outcome last.signatures w = .ok g ∧
      ∃ written, a.body w = .ok written ∧ g.Holds written ∧
        (a.function.declaredResult = none →
          g.returnType = known.getD (written.returnType.getD .none) ∧
          (g.returnType = written.returnType.getD .none ↔
            ∀ ty, known = some ty → ty = written.returnType.getD .none)) ∧
        (oracle.returnType g.name = none →
          (∀ f ∈ m.functions, f.name = g.name → f.declaredResult = none) →
          ∀ ty, known = some ty → ∃ i < m.lastRound w, ∃ b ∈ (m.round w i).attempts m w,
            b.function.name = g.name ∧
            ∃ earlier, b.body w = .ok earlier ∧ ty = earlier.returnType.getD .none) := by
  intro w last known
  rw [functions_convert m w] at hg
  obtain ⟨a, ha, houtcome⟩ := (Round.mem_pass_iff last).mp hg
  have hname := Attempt.outcome_name houtcome
  obtain ⟨written, hbody, hholds, hreturned, htype⟩ := Attempt.returnType_eq houtcome
  refine ⟨a, ha, houtcome, written, hbody, hholds, fun hdeclared => ?_,
    fun horacle hnone ty hty => exists_body_of_firstKnown hnone horacle hty⟩
  obtain ⟨sig, hsig⟩ :=
    Option.isSome_iff_exists.mp (isSome_get?_round (m.lastRound w) (last.function_mem ha))
  have hresult : sig.result = known.getD .unknown := signature_result_eq _ (hname ▸ hsig)
  have hfirst : g.returnType = known.getD (written.returnType.getD .none) := by
    rw [htype, hreturned, hdeclared, hsig, Option.none_or, Option.map_some, hresult]
    cases hknown : known with
    | none => rfl
    | some ty =>
      have hty : ty.isUnknown = false := by
        rw [← Bool.not_eq_true, Ty.isUnknown_iff]
        exact (firstKnown_eq_some hknown).2
      have hkeep : (some ty).filter (!·.isUnknown) = some ty := by
        rw [Option.filter_some, hty]
        rfl
      rw [Option.getD_some, hkeep]
  refine ⟨hfirst, ?_⟩
  rw [hfirst]
  cases known with
  | none => exact ⟨fun _ ty hty => (Option.some_ne_none ty hty.symm).elim, fun _ => rfl⟩
  | some ty => exact ⟨fun h ty' hty' => (Option.some.inj hty') ▸ h, fun h => h ty rfl⟩

/-- `f` returns a number, or what `g` returns; the text that `g` returns is known only after the
first round. -/
def lateText : Module :=
  { name := "late"
    functions := [
      { name := "f"
        params := [{ name := "c", declared := some .bool }]
        body := [
          .ifElse (.name "c") [.ret (some (.call (.name "g") [] []))] [],
          .ret (some (.constant (.int 1)))] },
      { name := "g", body := [.ret (some (.constant (.str "s")))] }] }

def plainSettings : Settings := { oracle := Table.oracle {}, options := {} }

/-- The signatures of `lateText` once they have settled. -/
def lateSignatures : Signatures :=
  .ofList [("f", { params := [.bool], result := .int, fallible := false }),
    ("g", { params := [], result := .str, fallible := false })]

theorem lateText_lastRound : lateText.lastRound plainSettings = 1 := by
  have hfirst : ¬ (lateText.round plainSettings 0).Settled lateText plainSettings := by
    decide +kernel
  have hsecond : (lateText.round plainSettings 1).Settled lateText plainSettings := by
    have hbefore : (lateText.round plainSettings 1).signatures = lateSignatures := by
      decide +kernel
    have hafter : (lateText.round plainSettings 1).refined lateText plainSettings =
        lateSignatures := by decide +kernel
    exact hafter.trans hbefore.symm
  rw [Module.lastRound, Module.stopsAt, if_neg hfirst]
  show Module.stopsAt _ _ 1 (1 + 1) = 1
  rw [Module.stopsAt, if_pos hsecond]

/-- The type of `f` is that of the number alone, though its body returns the text too. -/
theorem convert_returnType_disagrees :
    ∃ g ∈ (convert lateText plainSettings.oracle plainSettings.options).functions,
      g.returnType = .int ∧
      ∃ a ∈ (lateText.round plainSettings (lateText.lastRound plainSettings)).attempts lateText
          plainSettings,
        a.function.declaredResult = none ∧ plainSettings.oracle.returnType g.name = none ∧
        ∃ written, a.body plainSettings = .ok written ∧ g.Holds written ∧
          written.returnType = some (.union [.str, .int]) := by
  have hconverted : ∃ g ∈ (convert lateText plainSettings.oracle plainSettings.options).functions,
      g.name = "f" ∧ g.returnType = .int := by
    rw [functions_convert, lateText_lastRound]
    decide +kernel
  have hbodies : ∀ a ∈ (lateText.round plainSettings (lateText.lastRound plainSettings)).attempts
      lateText plainSettings, a.function.name = "f" → a.function.declaredResult = none ∧
        (a.body plainSettings).toOption.bind WrittenBody.returnType =
          some (.union [.str, .int]) := by
    rw [lateText_lastRound]
    decide +kernel
  obtain ⟨g, hg, hname, hint⟩ := hconverted
  obtain ⟨a, ha, houtcome, written, hbody, hholds, -⟩ :=
    convert_returnType_agrees_iff lateText plainSettings.oracle plainSettings.options hg
  obtain ⟨hdeclared, hreturns⟩ := hbodies a ha ((Attempt.outcome_name houtcome).symm.trans hname)
  have hwritten : (a.body plainSettings).toOption = some written := congrArg Except.toOption hbody
  rw [hwritten] at hreturns
  exact ⟨g, hg, hint, a, ha, hdeclared, rfl, written, hbody, hholds, hreturns⟩

end ClosureConversion
