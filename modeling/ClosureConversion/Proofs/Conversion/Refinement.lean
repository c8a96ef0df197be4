import Mathlib.Data.Set.Card
import ClosureConversion.Proofs.Conversion.Settling

/-! # Refinement of signatures -/

set_option autoImplicit false

namespace ClosureConversion

/-! ## Lessons -/

/-- What a pass may teach about a function. -/
inductive Lesson where
  /-- That it fails. -/
  | failure
  /-- What it returns. -/
  | result
  deriving DecidableEq, Inhabited

def Signature.knows (s : Signature) : Lesson → Bool
  | .failure => s.fallible
  | .result => !s.result.isUnknown

def ConvertedFunction.teaches (f : ConvertedFunction) : Lesson → Bool
  | .failure => f.fallible
  | .result => !f.returnType.isUnknown

theorem refineSignature_knows (s : Signature) (f : ConvertedFunction) (l : Lesson) :
    (refineSignature s f).knows l = (s.knows l || f.teaches l) := by
  cases l with
  | failure => rfl
  | result =>
    by_cases h : s.result.isUnknown <;>
      simp [Signature.knows, ConvertedFunction.teaches, refineSignature, h]

/-- A signature that has had all the lessons stays as it is. -/
theorem refineSignature_eq_self {s : Signature} {f : ConvertedFunction}
    (h : ∀ l, f.teaches l = true → s.knows l = true) : refineSignature s f = s := by
  obtain ⟨params, result, fallible⟩ := s
  have hfailure : (fallible || f.fallible) = fallible := by
    cases hf : f.fallible with
    | false => exact Bool.or_false fallible
    | true => rw [show fallible = true from h .failure hf, Bool.or_true]
  have hresult : (if result.isUnknown then f.returnType else result) = result := by
    by_cases hu : result.isUnknown
    · have htaught : f.returnType.isUnknown = true := by
        simpa [Signature.knows, ConvertedFunction.teaches, hu] using h .result
      rw [if_pos hu, Ty.isUnknown_iff.mp hu, Ty.isUnknown_iff.mp htaught]
    · rw [if_neg hu]
  simp only [refineSignature, hfailure, hresult]

/-- A signature of the same function that may know more. -/
structure Signature.Refines (s t : Signature) : Prop where
  params : t.params = s.params
  fallible : s.fallible = true → t.fallible = true
  result : s.result.isUnknown = false → t.result = s.result

namespace Signature.Refines

variable {s t u : Signature}

theorem refl (s : Signature) : s.Refines s := ⟨rfl, id, fun _ => rfl⟩

theorem trans (hst : s.Refines t) (htu : t.Refines u) : s.Refines u where
  params := htu.params.trans hst.params
  fallible := fun h => htu.fallible (hst.fallible h)
  result := fun h => by
    have hst := hst.result h
    exact (htu.result (hst ▸ h)).trans hst

theorem knows (h : s.Refines t) {l : Lesson} (hs : s.knows l = true) : t.knows l = true := by
  cases l with
  | failure => exact h.fallible hs
  | result =>
    have hknown : s.result.isUnknown = false := by simpa [Signature.knows] using hs
    rwa [Signature.knows, h.result hknown]

theorem refineSignature (s : Signature) (f : ConvertedFunction) :
    s.Refines (refineSignature s f) where
  params := rfl
  fallible := fun h => by simp [ClosureConversion.refineSignature, h]
  result := fun h => by simp [ClosureConversion.refineSignature, h]

end Signature.Refines

/-! ## One pass -/

/-- A pass refines a signature by the functions of its name, one after the other. -/
theorem get?_refineSignatures_eq_foldl (sigs : Signatures) (functions : List ConvertedFunction)
    (name : String) : (refineSignatures sigs functions).get? name =
      (sigs.get? name).map fun s =>
        (functions.filter fun f => f.name = name).foldl refineSignature s := by
  unfold refineSignatures
  induction functions generalizing sigs with
  | nil => simp
  | cons f rest ih =>
    rw [List.foldl_cons, ih, NameMap.get?_modify]
    by_cases hname : f.name = name
    · simp [hname, Function.comp_def]
    · simp [hname]

theorem foldl_refineSignature_refines (functions : List ConvertedFunction) (s : Signature) :
    s.Refines (functions.foldl refineSignature s) := by
  induction functions generalizing s with
  | nil => exact .refl s
  | cons f rest ih => exact (Signature.Refines.refineSignature s f).trans (ih _)

theorem foldl_refineSignature_knows (functions : List ConvertedFunction) (s : Signature)
    (l : Lesson) : (functions.foldl refineSignature s).knows l =
      (s.knows l || functions.any (·.teaches l)) := by
  induction functions generalizing s with
  | nil => simp
  | cons f rest ih =>
    rw [List.foldl_cons, ih, refineSignature_knows, List.any_cons, Bool.or_assoc]

/-- Signatures of the same functions, each of which may know more. -/
structure Signatures.Refines (a b : Signatures) : Prop where
  keys : b.keys = a.keys
  entry : ∀ name s, a.get? name = some s → ∃ t, b.get? name = some t ∧ s.Refines t

namespace Signatures.Refines

variable {a b c : Signatures}

theorem refl (a : Signatures) : a.Refines a := ⟨rfl, fun _ s h => ⟨s, h, .refl s⟩⟩

theorem trans (hab : a.Refines b) (hbc : b.Refines c) : a.Refines c where
  keys := hbc.keys.trans hab.keys
  entry := fun name s hs => by
    obtain ⟨t, ht, hst⟩ := hab.entry name s hs
    obtain ⟨u, hu, htu⟩ := hbc.entry name t ht
    exact ⟨u, hu, hst.trans htu⟩

theorem refineSignatures (sigs : Signatures) (functions : List ConvertedFunction) :
    sigs.Refines (refineSignatures sigs functions) where
  keys := keys_refineSignatures sigs functions
  entry := fun name s hs => ⟨_, by rw [get?_refineSignatures_eq_foldl, hs]; rfl,
    foldl_refineSignature_refines _ s⟩

end Signatures.Refines

/-- There is a signature of this name, and it has had the lesson. -/
def Signatures.Knows (sigs : Signatures) (name : String) (l : Lesson) : Prop :=
  ∃ s, sigs.get? name = some s ∧ s.knows l = true

theorem Signatures.Refines.knows {a b : Signatures} (h : a.Refines b) {name : String} {l : Lesson}
    (ha : a.Knows name l) : b.Knows name l := by
  obtain ⟨s, hs, hknows⟩ := ha
  obtain ⟨t, ht, hst⟩ := h.entry name s hs
  exact ⟨t, ht, hst.knows hknows⟩

/-- What a pass teaches is known after it. -/
theorem knows_refineSignatures {sigs : Signatures} {functions : List ConvertedFunction}
    {f : ConvertedFunction} {s : Signature} {l : Lesson} (hf : f ∈ functions)
    (hs : sigs.get? f.name = some s) (hl : f.teaches l = true) :
    (refineSignatures sigs functions).Knows f.name l := by
  refine ⟨_, by rw [get?_refineSignatures_eq_foldl, hs]; rfl, ?_⟩
  rw [foldl_refineSignature_knows, Bool.or_eq_true, List.any_eq_true]
  exact .inr ⟨f, List.mem_filter.mpr ⟨hf, by simp⟩, hl⟩

/-- **A pass changes the signatures exactly if it teaches something new about a function of
theirs.** -/
theorem refineSignatures_ne_iff {sigs : Signatures} {functions : List ConvertedFunction} :
    refineSignatures sigs functions ≠ sigs ↔ ∃ f ∈ functions, ∃ s l,
      sigs.get? f.name = some s ∧ s.knows l = false ∧ f.teaches l = true := by
  constructor
  · contrapose!
    intro hnone
    unfold refineSignatures
    induction functions with
    | nil => rfl
    | cons f rest ih =>
      have hstep : sigs.modify f.name (refineSignature · f) = sigs := by
        refine NameMap.modify_eq_self fun s hs => refineSignature_eq_self fun l hl => ?_
        by_contra hunknown
        exact hnone f List.mem_cons_self s l hs (Bool.eq_false_of_not_eq_true hunknown) hl
      rw [List.foldl_cons, hstep]
      exact ih fun g hg => hnone g (List.mem_cons_of_mem f hg)
  · rintro ⟨f, hf, s, l, hs, hunknown, hl⟩ hsame
    obtain ⟨t, ht, hknows⟩ := knows_refineSignatures hf hs hl
    rw [hsame, hs] at ht
    obtain rfl := Option.some.inj ht
    exact absurd hknows (Bool.eq_false_iff.mp hunknown)

/-! ## Sequences of passes -/

namespace Signatures

variable (sigs : Signatures) (passes : Nat → List ConvertedFunction)

/-- The signatures after the first passes of a sequence. -/
def after : Nat → Signatures
  | 0 => sigs
  | n + 1 => refineSignatures (after n) (passes n)

/-- The passes that change the signatures. -/
def changes : Set Nat := {i | sigs.after passes (i + 1) ≠ sigs.after passes i}

/-- The functions with a signature that any of the passes speaks of. -/
def mentioned : Set String := {name | name ∈ sigs.keys ∧ ∃ i, ∃ f ∈ passes i, f.name = name}

theorem after_refines (i k : Nat) :
    (sigs.after passes i).Refines (sigs.after passes (i + k)) := by
  induction k with
  | zero => exact .refl _
  | succ k ih => exact ih.trans (.refineSignatures _ _)

variable {sigs passes}

/-- What a change is charged to: a lesson about a function that had not been had before. -/
theorem charge_of_mem_changes (i : Nat) (h : i ∈ sigs.changes passes) :
    ∃ x : String × Lesson, x.1 ∈ sigs.mentioned passes ∧ ¬ (sigs.after passes i).Knows x.1 x.2 ∧
      (sigs.after passes (i + 1)).Knows x.1 x.2 := by
  obtain ⟨f, hf, s, l, hs, hunknown, hl⟩ := refineSignatures_ne_iff.mp h
  refine ⟨(f.name, l), ⟨?_, i, f, hf, rfl⟩, ?_, knows_refineSignatures hf hs hl⟩
  · have hkeys : (sigs.after passes i).keys = sigs.keys := by
      simpa [after] using (sigs.after_refines passes 0 i).keys
    rw [← hkeys, NameMap.mem_keys_iff, hs]
    rfl
  · rintro ⟨t, ht, hknows⟩
    rw [hs] at ht
    obtain rfl := Option.some.inj ht
    exact absurd hknows (Bool.eq_false_iff.mp hunknown)

/-- There are at most two changes for each function that is spoken of. -/
theorem encard_changes_le :
    (sigs.changes passes).encard ≤ 2 * (sigs.mentioned passes).encard := by
  choose! charge hcharge using @charge_of_mem_changes sigs passes
  have hearlier : ∀ i j, i < j → i ∈ sigs.changes passes → j ∈ sigs.changes passes →
      charge i ≠ charge j := by
    intro i j hlt hi hj heq
    obtain ⟨k, rfl⟩ := Nat.exists_eq_add_of_lt hlt
    have hknown := (sigs.after_refines passes (i + 1) k).knows (hcharge i hi).2.2
    rw [heq, Nat.add_right_comm] at hknown
    exact (hcharge _ hj).2.1 hknown
  have hinj : Set.InjOn charge (sigs.changes passes) := by
    intro i hi j hj heq
    rcases Nat.lt_trichotomy i j with hlt | rfl | hlt
    · exact absurd heq (hearlier i j hlt hi hj)
    · rfl
    · exact absurd heq.symm (hearlier j i hlt hj hi)
  have hmaps : Set.MapsTo charge (sigs.changes passes)
      (sigs.mentioned passes ×ˢ {Lesson.failure, Lesson.result}) := by
    intro i hi
    refine ⟨(hcharge i hi).1, ?_⟩
    cases (charge i).2 <;> simp
  calc (sigs.changes passes).encard
      ≤ (sigs.mentioned passes ×ˢ {Lesson.failure, Lesson.result}).encard :=
        Set.encard_le_encard_of_injOn hmaps hinj
    _ = 2 * (sigs.mentioned passes).encard := by
        rw [Set.encard_prod, Set.encard_pair (by decide), mul_comm]

end Signatures

/-! ## Conversions without a limit -/

section Rounds

variable {m : Module} {w : Settings}

/-- The functions that the passes of a conversion write, if it never stops. -/
def Module.passes (m : Module) (w : Settings) (i : Nat) : List ConvertedFunction :=
  ((m.round w i).pass m w).functions

theorem Module.signatures_round (i : Nat) :
    (m.round w i).signatures = (m.round w 0).signatures.after (m.passes w) i := by
  induction i with
  | zero => rfl
  | succ i ih => exact congrArg (refineSignatures · (m.passes w i)) ih

theorem Module.mem_changes_iff {i : Nat} :
    i ∈ (m.round w 0).signatures.changes (m.passes w) ↔ ¬ (m.round w i).Settled m w := by
  rw [Signatures.changes, Set.mem_ofPred_eq, ← signatures_round, ← signatures_round]
  rfl

/-- Some round settles, and soon. -/
theorem Module.exists_settled (m : Module) (w : Settings) :
    ∃ i ≤ 2 * (m.functions.map Function.name).toFinset.card, (m.round w i).Settled m w := by
  by_contra hnone
  push Not at hnone
  have hnames : (m.round w 0).signatures.mentioned (m.passes w) ⊆
      ((m.functions.map Function.name).toFinset : Set String) := by
    rintro name ⟨-, i, f, hf, rfl⟩
    obtain ⟨g, hg, hname⟩ := name_mem_of_mem_pass hf
    rw [hname]
    simpa using ⟨g, hg, rfl⟩
  have hchanges : (Finset.range (2 * (m.functions.map Function.name).toFinset.card + 1) : Set Nat) ⊆
      (m.round w 0).signatures.changes (m.passes w) := by
    intro i hi
    have hi := Finset.mem_range.mp (Finset.mem_coe.mp hi)
    exact mem_changes_iff.mpr (hnone i (Nat.le_of_lt_succ hi))
  have hcount := (Set.encard_le_encard hchanges).trans Signatures.encard_changes_le
  have hbound := mul_le_mul_right (Set.encard_le_encard hnames) (2 : ℕ∞)
  have hle := hcount.trans hbound
  rw [Set.encard_coe_eq_coe_finsetCard, Set.encard_coe_eq_coe_finsetCard, Finset.card_range] at hle
  norm_cast at hle
  omega

/-- A conversion stops at its first settled round, unless its limit comes before. -/
theorem Module.stopsAt_eq {i : Nat} (hi : (m.round w i).Settled m w)
    (hbefore : ∀ j < i, ¬ (m.round w j).Settled m w) (more : Nat) :
    m.stopsAt w 0 (i + more) = i := by
  rcases Nat.lt_trichotomy (m.stopsAt w 0 (i + more)) i with hlt | heq | hgt
  · rcases Module.stopsAt_settled_or (m := m) (w := w) 0 (i + more) with hs | hlast
    · exact absurd hs (hbefore _ hlt)
    · omega
  · exact heq
  · exact absurd hi (Module.not_settled_of_lt_stopsAt (Nat.zero_le i) hgt)

end Rounds

/-- **Signatures are refined a bounded number of times.** Along any sequence of passes, from
whatever signatures it starts, parameters stay as they are, no function that is known to fail is
taken for one that does not, and no known result is replaced. A pass changes the signatures exactly
if it teaches something new about one of their functions, and at most two passes do so for each
function that has a signature and is spoken of. So a conversion of functions with `n` different
names settles in one of the first `2 * n + 1` passes, and stops there however many more it would
allow itself. -/
theorem refinement_bounded :
    (∀ (sigs : Signatures) (passes : Nat → List ConvertedFunction),
      (∀ i k, (sigs.after passes i).Refines (sigs.after passes (i + k))) ∧
      (∀ i, i ∈ sigs.changes passes ↔ ∃ f ∈ passes i, ∃ s l,
        (sigs.after passes i).get? f.name = some s ∧ s.knows l = false ∧ f.teaches l = true) ∧
      (sigs.changes passes).encard ≤ 2 * (sigs.mentioned passes).encard) ∧
    ∀ (m : Module) (w : Settings), ∃ i ≤ 2 * (m.functions.map Function.name).toFinset.card,
      (m.round w i).Settled m w ∧ ∀ more,
        convertRounds m w (m.round w 0).signatures 1 (m.round w 0).journal (i + more) =
          (m.round w i).result m w (i + 1) := by
  refine ⟨fun sigs passes => ⟨sigs.after_refines passes, fun i => refineSignatures_ne_iff,
    Signatures.encard_changes_le⟩, fun m w => ?_⟩
  obtain ⟨j, hj, hsettled⟩ := m.exists_settled w
  have hex : ∃ i, (m.round w i).Settled m w := ⟨j, hsettled⟩
  refine ⟨Nat.find hex, (Nat.find_min' hex hsettled).trans hj, Nat.find_spec hex, fun more => ?_⟩
  have hstops := Module.stopsAt_eq (Nat.find_spec hex) (fun i hi => Nat.find_min hex hi) more
  rw [convertRounds_eq 0, hstops]

end ClosureConversion
