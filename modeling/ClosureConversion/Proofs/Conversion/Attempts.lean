import ClosureConversion.Proofs.Conversion.Rounds
import ClosureConversion.Proofs.Emit.Composed

/-! # Attempts of a pass -/

set_option autoImplicit false

namespace ClosureConversion

structure Attempt where
  function : Function
  /-- Where the conversion of the function starts. -/
  start : Context

namespace Attempt

variable (sigs : Signatures) (w : Settings) (a : Attempt)

def run : Except ConvertError ConvertedFunction × Context :=
  Emit.topLevel a.function (sigs.get? a.function.name) w a.start

/-- The converted function, with what was made for it at container level, or why there is none. -/
def outcome : Except ConvertError ConvertedFunction :=
  (a.run sigs w).1.map fun g =>
    { g with declarations := (a.run sigs w).2.declarations, closures := (a.run sigs w).2.closures }

def converted? : Option ConvertedFunction := (a.outcome sigs w).toOption

/-- Why the function is skipped, if it is. -/
def error? : Option ConvertError :=
  match a.outcome sigs w with
  | .ok _ => none
  | .error e => some e

/-- What is reported of the function; the reason for skipping it comes last. -/
def report : Report :=
  (a.run sigs w).2.report ++ ((a.error? sigs w).map ConvertError.diagnostic).toList

end Attempt

namespace Pass

variable (m : Module) (sigs : Signatures) (w : Settings)

/-- Where the next function starts. -/
def start (p : Pass) : Context :=
  { scope := moduleScope m sigs p.claimed, journal := p.journal, trace := p.trace }

/-- The attempts that follow a pass up to here. -/
def attempts : Pass → List Function → List Attempt
  | _, [] => []
  | p, f :: rest => ⟨f, p.start m sigs⟩ :: attempts (p.step m sigs w f) rest

end Pass

/-- The attempts of a round, one for each function of the module. -/
def Round.attempts (m : Module) (w : Settings) (r : Round) : List Attempt :=
  Pass.attempts m r.signatures w { journal := r.journal } m.functions

section Attempts

variable {m : Module} {sigs : Signatures} {w : Settings}

/-! ## One attempt -/

namespace Attempt

theorem outcome_eq_ok {a : Attempt} {g : ConvertedFunction} (h : a.outcome sigs w = .ok g) :
    ∃ g' c, a.run sigs w = (.ok g', c) ∧
      g = { g' with declarations := c.declarations, closures := c.closures } := by
  unfold outcome at h
  rcases hrun : a.run sigs w with ⟨r, c⟩
  rw [hrun] at h
  cases r with
  | error e => cases h
  | ok g' =>
    cases h
    exact ⟨g', c, rfl, rfl⟩

theorem converted?_eq_some {a : Attempt} {g : ConvertedFunction} :
    a.converted? sigs w = some g ↔ a.outcome sigs w = .ok g := by
  unfold converted?
  cases a.outcome sigs w with
  | ok g' => exact ⟨fun h => congrArg _ (Option.some.inj h), fun h => by cases h; rfl⟩
  | error e => exact ⟨nofun, nofun⟩

/-- A converted function has the name of its source. -/
theorem outcome_name {a : Attempt} {g : ConvertedFunction} (h : a.outcome sigs w = .ok g) :
    g.name = a.function.name := by
  obtain ⟨g', c, hrun, rfl⟩ := outcome_eq_ok h
  show g'.name = a.function.name
  exact Emit.topLevel_name hrun

/-- Every attempt has one end. -/
theorem isSome_converted? (sigs : Signatures) (w : Settings) (a : Attempt) :
    (a.converted? sigs w).isSome = !(a.error? sigs w).isSome := by
  unfold converted? error?
  cases a.outcome sigs w <;> rfl

end Attempt

namespace Pass

variable (p : Pass) (f : Function)

theorem step_functions :
    (p.step m sigs w f).functions =
      p.functions ++ (Attempt.converted? sigs w ⟨f, p.start m sigs⟩).toList := by
  unfold Pass.step Attempt.converted? Attempt.outcome Attempt.run start
  dsimp only
  split
  · rename_i g c h
    rw [h]
    rfl
  · rename_i e c h
    rw [h]
    exact (List.append_nil _).symm

theorem step_report :
    (p.step m sigs w f).report = p.report ++ Attempt.report sigs w ⟨f, p.start m sigs⟩ := by
  unfold Pass.step Attempt.report Attempt.error? Attempt.outcome Attempt.run start
  dsimp only
  split
  · rename_i g c h
    rw [h]
    exact congrArg _ (List.append_nil _).symm
  · rename_i e c h
    rw [h]
    exact List.append_assoc _ _ _

/-- The names that a function claims are handed on if it is converted. -/
theorem step_claimed :
    (p.step m sigs w f).claimed =
      if (Attempt.converted? sigs w ⟨f, p.start m sigs⟩).isSome then
        (Attempt.run sigs w ⟨f, p.start m sigs⟩).2.scope.moduleIdents
      else p.claimed := by
  unfold Pass.step Attempt.converted? Attempt.outcome Attempt.run start
  dsimp only
  split
  · rename_i g c h
    rw [h]
    rfl
  · rename_i e c h
    rw [h]
    rfl

/-! ## All attempts -/

theorem functions_foldl (fs : List Function) :
    (fs.foldl (Pass.step m sigs w) p).functions =
      p.functions ++ (p.attempts m sigs w fs).filterMap (·.converted? sigs w) := by
  induction fs generalizing p with
  | nil => exact (List.append_nil _).symm
  | cons f rest ih =>
    rw [List.foldl_cons, ih, step_functions, attempts, List.filterMap_cons, List.append_assoc]
    cases Attempt.converted? sigs w ⟨f, p.start m sigs⟩ <;> rfl

theorem report_foldl (fs : List Function) :
    (fs.foldl (Pass.step m sigs w) p).report =
      p.report ++ (p.attempts m sigs w fs).flatMap (·.report sigs w) := by
  induction fs generalizing p with
  | nil => exact (List.append_nil _).symm
  | cons f rest ih =>
    rw [List.foldl_cons, ih, step_report, attempts, List.flatMap_cons, List.append_assoc]

theorem map_function_attempts (fs : List Function) :
    (p.attempts m sigs w fs).map Attempt.function = fs := by
  induction fs generalizing p with
  | nil => rfl
  | cons f rest ih => rw [attempts, List.map_cons, ih]

/-- Every attempt starts with nothing reported, declared or made. -/
theorem start_of_mem_attempts {fs : List Function} {a : Attempt}
    (ha : a ∈ p.attempts m sigs w fs) :
    ∃ q : Pass, a.start = q.start m sigs := by
  induction fs generalizing p with
  | nil => cases ha
  | cons f rest ih =>
    rcases List.mem_cons.mp ha with rfl | hrest
    · exact ⟨p, rfl⟩
    · exact ih _ hrest

end Pass

namespace Round

variable (r : Round)

/-- **What a pass has converted** is what its attempts have. -/
theorem functions_pass :
    (r.pass m w).functions = (r.attempts m w).filterMap (·.converted? r.signatures w) :=
  Pass.functions_foldl _ _

theorem report_pass :
    (r.pass m w).report = (r.attempts m w).flatMap (·.report r.signatures w) :=
  Pass.report_foldl _ _

theorem function_mem {a : Attempt} (ha : a ∈ r.attempts m w) : a.function ∈ m.functions := by
  have hmapped := List.mem_map_of_mem (f := Attempt.function) ha
  rwa [attempts, Pass.map_function_attempts] at hmapped

theorem mem_pass_iff {g : ConvertedFunction} :
    g ∈ (r.pass m w).functions ↔
      ∃ a ∈ r.attempts m w, a.outcome r.signatures w = .ok g := by
  rw [functions_pass, List.mem_filterMap]
  simp only [Attempt.converted?_eq_some]

end Round

end Attempts

end ClosureConversion
