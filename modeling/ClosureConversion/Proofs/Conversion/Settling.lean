import ClosureConversion.Proofs.Conversion.Fallibility
import Mathlib.Algebra.GroupWithZero.Nat
import Mathlib.Algebra.Order.BigOperators.Group.List
import Mathlib.Algebra.Order.Group.Nat
import Mathlib.Data.List.Perm.Subperm

/-! # Settling of the signatures -/

set_option autoImplicit false

namespace ClosureConversion

/-! ## Open ends -/

/-- What a signature may still learn: its result, and that the function fails. -/
def Signature.pending (s : Signature) : Nat :=
  (if s.result.isUnknown then 1 else 0) + if s.fallible then 0 else 1

def Signatures.pending (sigs : Signatures) : Nat := (sigs.values.map Signature.pending).sum

theorem Signature.pending_le (s : Signature) : s.pending ≤ 2 := by
  unfold pending
  split <;> split <;> omega

theorem refineSignature_eq_or_pending_lt (s : Signature) (f : ConvertedFunction) :
    refineSignature s f = s ∨ (refineSignature s f).pending < s.pending := by
  obtain ⟨params, result, fallible⟩ := s
  by_cases hflag : fallible = false ∧ f.fallible = true
  · -- the flag goes up; the result may become known at the same time
    refine .inr ?_
    obtain ⟨rfl, hfails⟩ := hflag
    by_cases hresult : result.isUnknown <;>
      simp [refineSignature, Signature.pending, hfails, hresult]
    split <;> omega
  have hsame : (fallible || f.fallible) = fallible := by
    cases fallible <;> simp_all
  by_cases hresult : result.isUnknown
  · obtain rfl := Ty.isUnknown_iff.mp hresult
    by_cases hlearned : f.returnType.isUnknown
    · refine .inl ?_
      simp [refineSignature, hsame, Ty.isUnknown_iff.mp hlearned]
    · refine .inr ?_
      simp [refineSignature, Signature.pending, hsame, hlearned]
  · refine .inl ?_
    simp [refineSignature, hsame, hresult]

theorem NameMap.sum_put {α : Type} (measure : α → Nat) {entries : List (String × α)} {n : String}
    {a b : α} (h : NameMap.find entries n = some a) :
    ((NameMap.put n b entries).map fun e => measure e.2).sum + measure a =
      (entries.map fun e => measure e.2).sum + measure b := by
  induction entries with
  | nil => cases h
  | cons e rest ih =>
    obtain ⟨k, v⟩ := e
    rw [NameMap.find] at h
    rw [NameMap.put]
    split at h
    · rename_i hkey
      obtain rfl := Option.some.inj h
      rw [if_pos hkey]
      simp only [List.map_cons, List.sum_cons]
      omega
    · rename_i hkey
      rw [if_neg hkey]
      have hrest := ih h
      simp only [List.map_cons, List.sum_cons]
      omega

theorem NameMap.put_of_find {α : Type} {entries : List (String × α)} {n : String} {a : α}
    (h : NameMap.find entries n = some a) : NameMap.put n a entries = entries := by
  induction entries with
  | nil => cases h
  | cons e rest ih =>
    obtain ⟨k, v⟩ := e
    rw [NameMap.find] at h
    rw [NameMap.put]
    split at h
    · rename_i hkey
      rw [if_pos hkey, Option.some.inj h]
    · rename_i hkey
      rw [if_neg hkey, ih h]

theorem NameMap.modify_eq_self {α : Type} {m : NameMap α} {n : String} {g : α → α}
    (h : ∀ a, m.get? n = some a → g a = a) : m.modify n g = m := by
  unfold NameMap.modify
  split
  · rename_i a ha
    rw [h a ha, NameMap.insert, NameMap.put_of_find ha]
  · rfl

theorem Signatures.modify_eq_or_pending_lt {g : Signature → Signature}
    (hg : ∀ s, g s = s ∨ (g s).pending < s.pending) (sigs : Signatures) (n : String) :
    sigs.modify n g = sigs ∨ Signatures.pending (sigs.modify n g) < sigs.pending := by
  unfold NameMap.modify
  split
  · rename_i s hfind
    rcases hg s with hsame | hlt
    · refine .inl ?_
      rw [hsame, NameMap.insert, NameMap.put_of_find hfind]
    · refine .inr ?_
      have hsum := NameMap.sum_put Signature.pending (b := g s) hfind
      simp only [Signatures.pending, NameMap.values, NameMap.insert, List.map_map,
        Function.comp_def]
      omega
  · exact .inl rfl

/-- What one pass teaches closes an open end, or there was nothing to learn. -/
theorem refineSignatures_eq_or_pending_lt (sigs : Signatures)
    (functions : List ConvertedFunction) :
    refineSignatures sigs functions = sigs ∨
      (refineSignatures sigs functions).pending < sigs.pending := by
  unfold refineSignatures
  induction functions generalizing sigs with
  | nil => exact .inl rfl
  | cons f rest ih =>
    rw [List.foldl_cons]
    have hstep := Signatures.modify_eq_or_pending_lt
      (fun s => refineSignature_eq_or_pending_lt s f) sigs f.name
    rcases hstep with hsame | hlt
    · rw [hsame]
      exact ih sigs
    · refine .inr ?_
      rcases ih (sigs.modify f.name (refineSignature · f)) with hsame | hlt'
      · rwa [hsame]
      · exact Nat.lt_trans hlt' hlt

/-! ## Rounds -/

section Rounds

variable {m : Module} {w : Settings}

theorem Round.settled_or_pending_lt (r : Round) :
    r.Settled m w ∨ (r.refined m w).pending < r.signatures.pending :=
  refineSignatures_eq_or_pending_lt _ _

/-- Each unsettled round has closed an open end. -/
theorem Module.pending_add_le {n : Nat} (h : ∀ i < n, ¬ (m.round w i).Settled m w) :
    (m.round w n).signatures.pending + n ≤ (m.round w 0).signatures.pending := by
  induction n with
  | zero => exact Nat.le_refl _
  | succ n ih =>
    have hbefore := ih fun i hi => h i (Nat.lt_succ_of_lt hi)
    have hround := (m.round w n).settled_or_pending_lt (m := m) (w := w)
    have hlt : (m.round w (n + 1)).signatures.pending < (m.round w n).signatures.pending :=
      hround.resolve_left (h n (Nat.lt_succ_self n))
    omega

/-- A conversion stops at the first round that settles. -/
theorem Module.not_settled_of_lt_stopsAt {n remaining i : Nat} (hn : n ≤ i)
    (hi : i < m.stopsAt w n remaining) : ¬ (m.round w i).Settled m w := by
  induction remaining generalizing n with
  | zero => exact absurd (Nat.lt_of_lt_of_le hi hn) (Nat.lt_irrefl i)
  | succ remaining ih =>
    rw [Module.stopsAt] at hi
    split at hi
    · exact absurd (Nat.lt_of_lt_of_le hi hn) (Nat.lt_irrefl i)
    · rename_i hs
      rcases Nat.eq_or_lt_of_le hn with rfl | hlt
      · exact hs
      · exact ih hlt hi

/-- If the last round is unsettled, so were all before it, and there were as many as the
conversion allows itself. -/
theorem Module.not_settled_of_lastRound (h : ¬ (m.round w (m.lastRound w)).Settled m w) :
    m.lastRound w = m.functions.length + 1 ∧
      ∀ i < m.functions.length + 2, ¬ (m.round w i).Settled m w := by
  have hlast := Module.lastRound_settled_or.resolve_left h
  refine ⟨hlast, fun i hi => ?_⟩
  rcases Nat.lt_or_ge i (m.lastRound w) with hlt | hge
  · exact Module.not_settled_of_lt_stopsAt (Nat.zero_le i) hlt
  · obtain rfl : i = m.lastRound w := by omega
    exact h

theorem length_keys_round (n : Nat) :
    (m.round w n).signatures.keys.length ≤ m.functions.length := by
  have hsubset : (m.round w n).signatures.keys ⊆ m.functions.map Function.name := by
    obtain ⟨entries, heq, -, hentries⟩ := initialSignatures_eq (m := m) (w := w)
    intro name hname
    rw [keys_round, heq, NameMap.ofList, NameMap.mem_keys_foldl_insert] at hname
    obtain ⟨e, he, rfl⟩ := hname.resolve_left List.not_mem_nil
    obtain ⟨f, hf, hkey, -⟩ := hentries e he
    exact List.mem_map.mpr ⟨f, hf, hkey.symm⟩
  have hlength := (List.subperm_of_subset (nodup_keys_round n) hsubset).length_le
  rwa [List.length_map] at hlength

/-- There are at most two open ends for each function. -/
theorem pending_round_le (n : Nat) :
    (m.round w n).signatures.pending ≤ 2 * m.functions.length := by
  have hsum : (m.round w n).signatures.pending ≤
      ((m.round w n).signatures.values.map Signature.pending).length * 2 := by
    refine List.sum_le_card_nsmul _ 2 fun k hk => ?_
    obtain ⟨s, -, rfl⟩ := List.mem_map.mp hk
    exact s.pending_le
  have hkeys := length_keys_round (m := m) (w := w) n
  rw [NameMap.keys, List.length_map] at hkeys
  rw [List.length_map, NameMap.values, List.length_map] at hsum
  omega

end Rounds

/-! ## Conversions -/

/-- **A conversion settles unless it runs out of rounds.** The answer is the pass of the last
round. That round left the signatures as they were, or it is number `n + 2` for a module of `n`
functions, every round up to it changed the signatures, and the journal says that they were
still changing. It settles whenever no more than `n + 1` ends were open before the first round.
Without the limit one of the first `2 * n + 1` rounds would settle. -/
theorem convert_settles_or_exhausts (m : Module) (oracle : Oracle) (options : Options) :
    let w : Settings := { oracle, options }
    let n := m.functions.length
    let last := m.round w (m.lastRound w)
    (convert m oracle options).functions = (last.pass m w).functions ∧
    (convert m oracle options).report = (last.pass m w).report ∧
    (last.Settled m w ∨
      m.lastRound w = n + 1 ∧ (∀ i < n + 2, ¬ (m.round w i).Settled m w) ∧
      (convertWithJournal m w).2 =
        .converted (last.pass m w).functions.length n m.name (n + 2) ::
          .unsettled m.name (n + 2) :: (last.pass m w).journal) ∧
    ((m.round w 0).signatures.pending ≤ n + 1 → last.Settled m w) ∧
    ∃ i ≤ 2 * n, (m.round w i).Settled m w := by
  intro w n last
  refine ⟨?_, ?_, ?_, ?_, ?_⟩
  · rw [convert, convertWithJournal_eq]
    rfl
  · rw [convert, convertWithJournal_eq]
    rfl
  · by_cases hsettled : last.Settled m w
    · exact .inl hsettled
    · obtain ⟨hlast, hall⟩ := Module.not_settled_of_lastRound hsettled
      refine .inr ⟨hlast, hall, ?_⟩
      have hnumber : m.lastRound w + 1 = n + 2 := congrArg (· + 1) hlast
      rw [convertWithJournal_eq, Round.result, if_neg hsettled, hnumber]
      rfl
  · intro hpending
    by_contra hsettled
    obtain ⟨-, hall⟩ := Module.not_settled_of_lastRound hsettled
    have hclosed := Module.pending_add_le hall
    omega
  · by_contra hnone
    push Not at hnone
    have hclosed := Module.pending_add_le (m := m) (w := w) (n := 2 * n + 1)
      fun i hi => hnone i (Nat.le_of_lt_succ hi)
    have hopen := pending_round_le (m := m) (w := w) 0
    omega

/-- `f` returns what `g` returns, and `g` joins two results of `f` before it returns a text.
The text reaches `f` in the second round, makes `g` fail in the third and `f` in the fourth. -/
def slowPair : Module :=
  { name := "slow"
    functions := [
      { name := "f", body := [.ret (some (.call (.name "g") [] []))] },
      { name := "g"
        body := [
          .expr (.binary .add (.call (.name "f") [] []) (.call (.name "f") [] [])),
          .ret (some (.constant (.str "s")))] }] }

/-- All four rounds change the signatures, and the fourth gives the answer: it calls `f` as a
function that does not fail, though it is written as one that does. -/
theorem convert_unsettled_slowPair :
    let w : Settings := { oracle := Table.oracle {}, options := {} }
    let last := slowPair.round w (slowPair.lastRound w)
    (¬ last.Settled slowPair w ∧ slowPair.lastRound w = 3 ∧
      ∀ i < 4, ¬ (slowPair.round w i).Settled slowPair w) ∧
    (last.signatures.get? "f").map Signature.fallible = some false ∧
    ((convert slowPair (Table.oracle {}) {}).function? "f").map ConvertedFunction.fallible =
      some true := by
  intro w last
  have hunsettled : ¬ last.Settled slowPair w := by decide +kernel
  obtain ⟨hlast, hall, -⟩ :=
    (convert_settles_or_exhausts slowPair (Table.oracle {}) {}).2.2.1.resolve_left hunsettled
  exact ⟨⟨hunsettled, hlast, hall⟩, by decide +kernel⟩

end ClosureConversion
