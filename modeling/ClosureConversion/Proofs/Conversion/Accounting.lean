import ClosureConversion.Proofs.Conversion.Attempts

/-! # Accounting for skipped functions -/

set_option autoImplicit false

namespace ClosureConversion

theorem ConvertError.isError_diagnostic (e : ConvertError) : e.diagnostic.isError = true := by
  cases e <;> rfl

section Accounting

variable {m : Module} {sigs : Signatures} {w : Settings}

/-! ## Errors -/

/-- **The only error that an attempt reports is the one it failed with.** -/
theorem Attempt.errors_report {a : Attempt} (hstart : a.start.report = []) :
    (a.report sigs w).filter Diagnostic.isError =
      ((a.error? sigs w).map ConvertError.diagnostic).toList := by
  have hbalanced := ((Emit.topLevel_composed a.function (sigs.get? a.function.name)).balanced
    w a.start).1
  have hadvice : (a.run sigs w).2.report.filter Diagnostic.isError = [] := by
    rw [List.filter_eq_nil_iff]
    intro d hd herror
    rcases hbalanced.report.mem hd with hbefore | hadvice
    · rw [hstart] at hbefore
      cases hbefore
    · exact Bool.false_ne_true (hadvice.2.symm.trans herror)
  rw [Attempt.report, List.filter_append, hadvice, List.nil_append]
  cases a.error? sigs w with
  | none => rfl
  | some e => simp [ConvertError.isError_diagnostic e]

variable (m sigs w)

theorem Pass.errors_attempts (p : Pass) (fs : List Function) :
    ((p.attempts m sigs w fs).flatMap (·.report sigs w)).filter Diagnostic.isError =
      ((p.attempts m sigs w fs).filterMap (·.error? sigs w)).map ConvertError.diagnostic := by
  rw [List.filter_flatMap]
  have hstart : ∀ a ∈ p.attempts m sigs w fs, a.start.report = [] := by
    intro a ha
    obtain ⟨q, hq⟩ := Pass.start_of_mem_attempts _ ha
    rw [hq]
    rfl
  generalize p.attempts m sigs w fs = as at hstart ⊢
  induction as with
  | nil => rfl
  | cons a rest ih =>
    rw [List.forall_mem_cons] at hstart
    rw [List.flatMap_cons, Attempt.errors_report hstart.1, ih hstart.2, List.filterMap_cons]
    cases a.error? sigs w <;> rfl

theorem length_converted_add_length_errors (as : List Attempt) :
    (as.filterMap (·.converted? sigs w)).length + (as.filterMap (·.error? sigs w)).length =
      as.length := by
  induction as with
  | nil => rfl
  | cons a rest ih =>
    have hends := a.isSome_converted? sigs w
    rw [List.filterMap_cons, List.filterMap_cons, List.length_cons, ← ih]
    cases hconverted : a.converted? sigs w with
    | none =>
      cases herror : a.error? sigs w with
      | none => simp [hconverted, herror] at hends
      | some e => exact (Nat.add_assoc _ _ 1).symm
    | some g =>
      cases herror : a.error? sigs w with
      | none => exact Nat.add_right_comm _ 1 _
      | some e => simp [hconverted, herror] at hends

/-- **Every function adds one to the functions or one to the errors.** -/
theorem Pass.count_foldl (p : Pass) (fs : List Function) :
    (fs.foldl (Pass.step m sigs w) p).functions.length +
        (fs.foldl (Pass.step m sigs w) p).report.errorCount =
      p.functions.length + p.report.errorCount + fs.length := by
  have hends := length_converted_add_length_errors sigs w (p.attempts m sigs w fs)
  have hlength : (p.attempts m sigs w fs).length = fs.length := by
    rw [← List.length_map Attempt.function, map_function_attempts]
  have herrors : ((p.attempts m sigs w fs).flatMap (·.report sigs w)).countP Diagnostic.isError =
      ((p.attempts m sigs w fs).filterMap (·.error? sigs w)).length := by
    rw [List.countP_eq_length_filter, errors_attempts, List.length_map]
  rw [functions_foldl, report_foldl, Report.errorCount, Report.errorCount, List.length_append,
    List.countP_append, herrors]
  omega

/-! ## The functions that are kept -/

/-- The functions that a round converts. -/
def Round.kept (m : Module) (w : Settings) (r : Round) : List Function :=
  ((r.attempts m w).filter fun a => (a.converted? r.signatures w).isSome).map Attempt.function

theorem Round.kept_sublist (r : Round) : (r.kept m w).Sublist m.functions := by
  have hall : (r.attempts m w).map Attempt.function = m.functions :=
    Pass.map_function_attempts _ _
  rw [← hall]
  exact List.filter_sublist.map _

theorem Round.names_pass (r : Round) :
    (r.pass m w).functions.map ConvertedFunction.name = (r.kept m w).map Function.name := by
  rw [functions_pass, kept]
  induction r.attempts m w with
  | nil => rfl
  | cons a rest ih =>
    rw [List.filterMap_cons, List.filter_cons]
    cases hconverted : a.converted? r.signatures w with
    | none => exact ih
    | some g =>
      have hname := Attempt.outcome_name (Attempt.converted?_eq_some.mp hconverted)
      simp only [Option.isSome_some, if_true, List.map_cons]
      rw [hname, ih]

/-! ## Without the skipped functions -/

/-- The passes have the same functions and hand the same names on to the next one. -/
structure Pass.Alike (p q : Pass) : Prop where
  functions : p.functions = q.functions
  claimed : p.claimed = q.claimed

namespace Pass

variable {p q : Pass}

/-- What was noted of other functions has no influence on the next one. -/
theorem Alike.run (h : p.Alike q) (f : Function) :
    Emit.coreOf (Attempt.run sigs w ⟨f, p.start m sigs⟩) =
      Emit.coreOf (Attempt.run sigs w ⟨f, q.start m sigs⟩) := by
  have hstart : (p.start m sigs).core = (q.start m sigs).core := by
    unfold start
    rw [h.claimed]
    rfl
  exact (Emit.topLevel_composed f (sigs.get? f.name)).oblivious.congr hstart

theorem Alike.converted? (h : p.Alike q) (f : Function) :
    Attempt.converted? sigs w ⟨f, p.start m sigs⟩ =
      Attempt.converted? sigs w ⟨f, q.start m sigs⟩ := by
  have hrun := h.run m sigs w f
  exact congrArg (fun r : Except ConvertError ConvertedFunction × Context =>
    (r.1.map fun g : ConvertedFunction =>
      { g with declarations := r.2.declarations, closures := r.2.closures }).toOption) hrun

theorem Alike.step (h : p.Alike q) (f : Function) :
    (p.step m sigs w f).Alike (q.step m sigs w f) := by
  have hconverted := h.converted? m sigs w f
  have hidents : (Attempt.run sigs w ⟨f, p.start m sigs⟩).2.scope.moduleIdents =
      (Attempt.run sigs w ⟨f, q.start m sigs⟩).2.scope.moduleIdents :=
    congrArg (fun r => r.2.scope.moduleIdents) (h.run m sigs w f)
  constructor
  · rw [step_functions, step_functions, h.functions, hconverted]
  · rw [step_claimed, step_claimed, h.claimed, hconverted, hidents]

/-- A function that is skipped leaves a pass as it was. -/
theorem alike_step_of_skipped {f : Function}
    (h : Attempt.converted? sigs w ⟨f, p.start m sigs⟩ = none) :
    (p.step m sigs w f).Alike p := by
  constructor
  · rw [step_functions, h]
    exact List.append_nil _
  · rw [step_claimed, h]
    rfl

/-- **Leaving out the functions that are skipped makes no difference.** -/
theorem Alike.foldl_kept (h : p.Alike q) (fs : List Function) :
    (fs.foldl (Pass.step m sigs w) p).Alike
      ((((p.attempts m sigs w fs).filter fun a => (a.converted? sigs w).isSome).map
        Attempt.function).foldl (Pass.step m sigs w) q) := by
  induction fs generalizing p q with
  | nil => exact h
  | cons f rest ih =>
    rw [List.foldl_cons, attempts, List.filter_cons]
    cases hconverted : Attempt.converted? sigs w ⟨f, p.start m sigs⟩ with
    | none =>
      have hskipped := alike_step_of_skipped m sigs w hconverted
      exact ih ⟨hskipped.functions.trans h.functions, hskipped.claimed.trans h.claimed⟩
    | some g => exact ih (h.step m sigs w f)

end Pass

/-- The pass over the functions that are converted. The others are not attempted, but the names and
signatures of all functions of the module stay declared. -/
def Round.alone (m : Module) (w : Settings) (r : Round) : Pass :=
  (r.kept m w).foldl (Pass.step m r.signatures w) {}

theorem Round.alike_alone (r : Round) : (r.pass m w).Alike (r.alone m w) := by
  have hstart : Pass.Alike { journal := r.journal } {} := ⟨rfl, rfl⟩
  exact hstart.foldl_kept m r.signatures w m.functions

end Accounting

/-- **Every function is accounted for.** A conversion tries all functions of the module in their
order. Those that could be converted are its functions, in that order; the errors in its report
are, in the same order, the errors that the others failed with, one for each.

What is skipped is not attempted in vain for the others: a pass that leaves it out gives the same
functions, with their code, declarations and closures, claims the same names, and reports no error.
The names and signatures of the skipped functions stay declared in that pass, so the others may call
them there as they did. -/
theorem convert_accounts_for_functions (m : Module) (oracle : Oracle) (options : Options) :
    let w : Settings := { oracle, options }
    let out := convert m oracle options
    let last := m.round w (m.lastRound w)
    let attempts := last.attempts m w
    let alone := last.alone m w
    (attempts.map Attempt.function = m.functions ∧
      out.functions = attempts.filterMap (·.converted? last.signatures w)) ∧
    ((last.kept m w).Sublist m.functions ∧
      out.functions.map ConvertedFunction.name = (last.kept m w).map Function.name) ∧
    out.functions.length + out.report.errorCount = m.functions.length ∧
    out.report.filter Diagnostic.isError =
      (attempts.filterMap (·.error? last.signatures w)).map ConvertError.diagnostic ∧
    alone.functions = out.functions ∧ alone.claimed = (last.pass m w).claimed ∧
      alone.report.errorCount = 0 := by
  intro w out last attempts alone
  have hout : out.functions = (last.pass m w).functions ∧ out.report = (last.pass m w).report :=
    ⟨functions_convert m w, report_convert m w⟩
  obtain ⟨hfunctions, hclaimed⟩ := last.alike_alone m w
  have hnames := last.names_pass m w
  have hcount : out.functions.length + out.report.errorCount = m.functions.length := by
    have hfold := Pass.count_foldl m last.signatures w { journal := last.journal } m.functions
    rw [hout.1, hout.2]
    exact hfold.trans (Nat.zero_add _)
  have hquiet : alone.report.errorCount = 0 := by
    have hfold : alone.functions.length + alone.report.errorCount = (last.kept m w).length :=
      (Pass.count_foldl m last.signatures w {} (last.kept m w)).trans (Nat.zero_add _)
    have hlength : alone.functions.length = (last.kept m w).length := by
      have hmapped := congrArg List.length hnames
      rwa [List.length_map, List.length_map, hfunctions] at hmapped
    omega
  refine ⟨⟨Pass.map_function_attempts _ _, ?_⟩, ⟨last.kept_sublist m w, ?_⟩, hcount, ?_, ?_,
    hclaimed.symm, hquiet⟩
  · rw [hout.1, last.functions_pass]
  · rw [hout.1, hnames]
  · rw [hout.2, last.report_pass]
    exact Pass.errors_attempts m last.signatures w _ _
  · rw [hout.1, hfunctions]

end ClosureConversion
