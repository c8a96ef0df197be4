import ClosureConversion.Conversion

/-! # Rounds of a conversion -/

set_option autoImplicit false

namespace ClosureConversion

/-- What a round starts from. -/
structure Round where
  signatures : Signatures
  journal : Journal

namespace Round

variable (m : Module) (w : Settings)

def pass (r : Round) : Pass := convertPass m r.signatures w r.journal

/-- The signatures after the pass. -/
def refined (r : Round) : Signatures := refineSignatures r.signatures (r.pass m w).functions

/-- The pass left the signatures as they were. -/
def Settled (r : Round) : Prop := r.refined m w = r.signatures

instance (r : Round) : Decidable (r.Settled m w) :=
  inferInstanceAs (Decidable (r.refined m w = r.signatures))

/-- The conversion that stops at this round. -/
def result (r : Round) (number : Nat) : Converted × Journal :=
  let journal := (r.pass m w).journal
  convertRounds.finish m number (r.pass m w)
    (if r.Settled m w then journal else .unsettled m.name number :: journal)

end Round

namespace Module

variable (m : Module) (w : Settings)

/-- The rounds of a conversion that would never stop. -/
def round : Nat → Round
  | 0 => ⟨(initialSignatures m w []).1, (initialSignatures m w []).2⟩
  | n + 1 => ⟨(round n).refined m w, .roundChanged (n + 1) :: ((round n).pass m w).journal⟩

/-- The first settled round from `n` on; after `remaining` more rounds the search gives up. -/
def stopsAt (n : Nat) : Nat → Nat
  | 0 => n
  | remaining + 1 => if (m.round w n).Settled m w then n else stopsAt (n + 1) remaining

/-- The round whose pass is the result. -/
def lastRound : Nat := m.stopsAt w 0 (m.functions.length + 1)

end Module

section Rounds

variable {m : Module} {w : Settings}

theorem convertRounds_eq (n remaining : Nat) :
    convertRounds m w (m.round w n).signatures (n + 1) (m.round w n).journal remaining =
      (m.round w (m.stopsAt w n remaining)).result m w (m.stopsAt w n remaining + 1) := by
  induction remaining generalizing n with
  | zero => rfl
  | succ remaining ih =>
    rw [convertRounds, Module.stopsAt]
    by_cases hs : (m.round w n).Settled m w
    · rw [if_pos hs, Round.result, if_pos hs]
      exact if_pos hs
    · rw [if_neg hs]
      exact (if_neg hs).trans (ih (n + 1))

/-- **A conversion is the pass of its last round.** -/
theorem convertWithJournal_eq :
    convertWithJournal m w = (m.round w (m.lastRound w)).result m w (m.lastRound w + 1) :=
  convertRounds_eq 0 (m.functions.length + 1)

theorem functions_convert (m : Module) (w : Settings) :
    (convert m w.oracle w.options).functions =
      ((m.round w (m.lastRound w)).pass m w).functions := by
  rw [convert, convertWithJournal_eq]
  rfl

theorem report_convert (m : Module) (w : Settings) :
    (convert m w.oracle w.options).report = ((m.round w (m.lastRound w)).pass m w).report := by
  rw [convert, convertWithJournal_eq]
  rfl

theorem Module.stopsAt_settled_or (n remaining : Nat) :
    (m.round w (m.stopsAt w n remaining)).Settled m w ∨
      m.stopsAt w n remaining = n + remaining := by
  induction remaining generalizing n with
  | zero => exact .inr rfl
  | succ remaining ih =>
    rw [Module.stopsAt]
    split
    · exact .inl ‹_›
    · rcases ih (n + 1) with hs | hlast
      · exact .inl hs
      · exact .inr (by omega)

/-- The result is a settled pass unless the conversion ran out of rounds. -/
theorem Module.lastRound_settled_or :
    (m.round w (m.lastRound w)).Settled m w ∨ m.lastRound w = m.functions.length + 1 := by
  rcases Module.stopsAt_settled_or (m := m) (w := w) 0 (m.functions.length + 1) with hs | hlast
  · exact .inl hs
  · exact .inr (by rw [Module.lastRound, hlast]; omega)

end Rounds

/-! ## The functions of a pass -/

namespace Emit

variable {α β : Type} {w : Settings} {c c' : Context}

theorem topLevel_name {f : Function} {signature : Option Signature} {g : ConvertedFunction}
    (h : topLevel f signature w c = (.ok g, c')) : g.name = f.name := by
  obtain ⟨types, c₁, -, h⟩ := bind_eq_ok h
  obtain ⟨c₂, -, h, -⟩ := inFrame_eq_ok h
  unfold topLevelFrame at h
  obtain ⟨_, _, -, h⟩ := bind_eq_ok h
  obtain ⟨formals, _, -, h⟩ := bind_eq_ok h
  obtain ⟨s, _, -, h⟩ := bind_eq_ok h
  obtain ⟨o, _, -, h⟩ := bind_eq_ok h
  obtain ⟨opts, _, -, h⟩ := bind_eq_ok h
  obtain ⟨written, _, -, h⟩ := bind_eq_ok h
  obtain ⟨result, _, -, h⟩ := bind_eq_ok h
  cases h
  rfl

end Emit

theorem Pass.mem_step {m : Module} {sigs : Signatures} {w : Settings} {p : Pass} {f : Function}
    {g : ConvertedFunction} (hg : g ∈ (Pass.step m sigs w p f).functions) :
    g ∈ p.functions ∨ g.name = f.name := by
  unfold Pass.step at hg
  dsimp only at hg
  split at hg
  · rename_i g' c' h
    rw [List.mem_append, List.mem_singleton] at hg
    rcases hg with hold | rfl
    · exact .inl hold
    · exact .inr (show g'.name = f.name from Emit.topLevel_name h)
  · exact .inl hg

theorem Pass.mem_foldl_step {m : Module} {sigs : Signatures} {w : Settings}
    {functions : List Function} {p : Pass} {g : ConvertedFunction}
    (hg : g ∈ (functions.foldl (Pass.step m sigs w) p).functions) :
    g ∈ p.functions ∨ ∃ f ∈ functions, g.name = f.name := by
  induction functions generalizing p with
  | nil => exact .inl hg
  | cons f rest ih =>
    rcases ih hg with hstep | ⟨f', hf', hname⟩
    · rcases Pass.mem_step hstep with hold | hname
      · exact .inl hold
      · exact .inr ⟨f, List.mem_cons_self, hname⟩
    · exact .inr ⟨f', List.mem_cons_of_mem f hf', hname⟩

/-- A pass writes functions of the module only. -/
theorem name_mem_of_mem_pass {m : Module} {w : Settings} {r : Round} {g : ConvertedFunction}
    (hg : g ∈ (r.pass m w).functions) : ∃ f ∈ m.functions, g.name = f.name := by
  rcases Pass.mem_foldl_step hg with hnone | hsome
  · cases hnone
  · exact hsome

end ClosureConversion
