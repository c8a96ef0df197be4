import ClosureConversion.Proofs.Scope.Confinement
import ClosureConversion.Proofs.Scope.Fresh
import ClosureConversion.Proofs.Scope.Operations
import Mathlib.Data.Finset.Card

/-! # Claims -/

set_option autoImplicit false

namespace ClosureConversion

namespace Scope

variable {s t u : Scope} {ident : String}

theorem isTaken_iff : s.isTaken ident = true ↔ ident ∈ s.taken := by
  rw [isTaken, List.contains_iff_mem]

/-! ## The search -/

/-- **A fresh identifier is the first spelling that is not taken.** -/
theorem freshIdent_eq_first (s : Scope) (base : String) :
    ∃ n, s.freshIdent base = candidate base n ∧ candidate base n ∉ s.taken ∧
      ∀ m < n, candidate base m ∈ s.taken := by
  obtain ⟨n, -, hn⟩ := firstFree_eq_candidate base s.taken 0
  refine ⟨n, hn, ?_, fun m hm => candidate_mem_of_firstFree hn (Nat.zero_le m) hm⟩
  rw [← hn]
  exact firstFree_not_mem base s.taken 0

/-- The spellings tried in vain are different ones of those taken. -/
theorem tries_le {base : String} {taken : List String} {n : Nat}
    (h : ∀ m < n, candidate base m ∈ taken) : n ≤ taken.toFinset.card := by
  have htried : (Finset.range n).image (candidate base) ⊆ taken.toFinset := by
    intro name hname
    obtain ⟨m, hm, rfl⟩ := Finset.mem_image.mp hname
    exact List.mem_toFinset.mpr (h m (Finset.mem_range.mp hm))
  calc
    n = ((Finset.range n).image (candidate base)).card := by
      rw [Finset.card_image_of_injective _ fun _ _ => candidate_injective, Finset.card_range]
    _ ≤ taken.toFinset.card := Finset.card_le_card htried

/-! ## Frames that stay open -/

/-- Frame by frame the second scope binds and has reserved what the first one does. -/
def Grows (s t : Scope) : Prop := List.Forall₂ Frame.Grows s.allFrames t.allFrames

theorem Grows.refl (s : Scope) : s.Grows s := forall₂_grows_refl _

theorem Grows.trans (h : s.Grows t) (h' : t.Grows u) : s.Grows u :=
  forall₂_trans (R := Frame.Grows) (fun _ _ _ => .trans) h h'

theorem Adjusts.grows (h : s.Adjusts true t) : s.Grows t :=
  h.allFrames.imp fun _ _ hfg => ⟨hfg.kind, fun n hn => by rwa [hfg.isSome], hfg.idents⟩

theorem forall₂_grows_modify {f : Frame → Frame} (h : ∀ g : Frame, g.Grows (f g))
    (frames : List Frame) (i : Nat) : List.Forall₂ Frame.Grows frames (frames.modify i f) := by
  induction frames generalizing i with
  | nil =>
    rw [List.modify_nil]
    exact .nil
  | cons g rest ih =>
    cases i with
    | zero => exact .cons (h g) (forall₂_grows_refl rest)
    | succ i => exact .cons (.refl g) (ih i)

theorem grows_declareAs (s : Scope) (name ident : String) (b : Binding) :
    s.Grows (s.declareAs name ident b) :=
  (confined_onInnermost (fun g => g.grows_bind name ident b) s).grows

theorem grows_declareInFunction (s : Scope) (name ident : String) (b : Binding) :
    s.Grows (s.declareInFunction name ident b) := by
  have hbind : ∀ g : Frame, g.Grows (g.bind name ident b) := fun g => g.grows_bind name ident b
  show List.Forall₂ Frame.Grows s.allFrames (s.onFunction (Frame.bind name ident b)).allFrames
  cases hfind : s.frames.findIdx? Frame.isFunction with
  | none =>
    rw [onFunction, hfind]
    exact (confined_onInnermost hbind s).grows
  | some i =>
    rw [allFrames_onFunction hfind]
    exact forall₂_grows_modify hbind s.allFrames i

theorem grows_declareOn (hoisted : Bool) (s : Scope) (name ident : String) (b : Binding) :
    s.Grows (declareOn hoisted s name ident b) := by
  cases hoisted with
  | true => exact grows_declareInFunction s name ident b
  | false => exact grows_declareAs s name ident b

theorem grows_modifyBinding (s : Scope) (name : String) (change : Binding → Binding) :
    s.Grows (s.modifyBinding name change) := by
  unfold modifyBinding
  split
  · rename_i frames hmod
    exact List.rel_append (grows_modifyIn hmod).1 (.cons (.refl _) .nil)
  · exact List.rel_append (forall₂_grows_refl _) (.cons (s.base.grows_modify name change) .nil)

end Scope

theorem Assignment.grows_commit (a : Assignment) (s : Scope) (isMutable : Bool)
    (source : Option String) : s.Grows (a.commit s isMutable source) := by
  have hbind : s.Grows (a.bind s isMutable) :=
    a.bind_elim s isMutable (fun _ _ => Scope.grows_declareAs ..)
      (fun _ => Scope.grows_modifyBinding ..)
      fun _ h => h.trans (Scope.adjusts_recordShadow ..).grows
  obtain ⟨link, hcommit⟩ := a.commit_eq s isMutable source
  rw [hcommit]
  exact hbind.trans (Scope.grows_modifyBinding ..)

namespace Scope

variable {s t u : Scope} {ident : String}

theorem Change.grows (c : Change) (s : Scope) : s.Grows (c.apply s) := by
  cases c with
  | declareAs name ident b => exact grows_declareAs s name ident b
  | declareInFunction name ident b => exact grows_declareInFunction s name ident b
  | declareFresh claimed hoisted base name b =>
    have hclaim : s.Grows (if claimed then (s.claimIdent base).2 else s) := by
      split
      · exact (adjusts_reserveIdent s _).grows
      · exact .refl s
    exact hclaim.trans (grows_declareOn hoisted _ name (s.freshIdent base) b)
  | assign name ty isMutable source => exact Assignment.grows_commit _ s isMutable source
  | recordShadow name ty => exact (adjusts_recordShadow s name ty).grows
  | setType name | setMutable name | update name => exact grows_modifyBinding s name _
  | recordAlias name target => exact (adjusts_recordAlias s name target).grows
  | clearAlias name => exact (adjusts_clearAlias s name).grows
  | reserveIdent | claimIdent => exact (adjusts_reserveIdent s _).grows
  | reserveModuleIdent | claimModuleIdent => exact (adjusts_reserveModuleIdent s _).grows

/-- The operation enters or leaves a frame. -/
def Op.restacks : Op → Bool
  | .pushFunction .. | .pushBlock | .pop => true
  | .declareGlobal .. | .change _ => false

/-- **An operation that enters and leaves no frame** loses nothing of the frames. -/
theorem Op.grows {op : Op} (h : op.restacks = false) (s : Scope) : s.Grows (op.apply s) := by
  cases op with
  | pushFunction | pushBlock | pop => cases h
  | declareGlobal name ty =>
    exact List.rel_append (forall₂_grows_refl _) (.cons (s.base.grows_bind name name _) .nil)
  | change c => exact c.grows s

/-- The second scope comes from the first by operations that enter and leave no frame. The table of
renames may also be changed by hand, in any way. -/
inductive Stays (s : Scope) : Scope → Prop
  | refl : Stays s s
  | op {t : Scope} (h : Stays s t) (op : Op) (hop : op.restacks = false) : Stays s (op.apply t)
  | renames {t : Scope} (h : Stays s t) (renames : RenameTable) : Stays s { t with renames }

theorem Stays.grows (h : s.Stays t) : s.Grows t := by
  induction h with
  | refl => exact .refl s
  | op _ op hop ih => exact ih.trans (op.grows hop _)
  | renames _ _ ih => exact ih

/-! ## Reserved identifiers -/

/-- Reserved for the module or in a frame of the innermost function. -/
def Reserved (s : Scope) (ident : String) : Prop :=
  ident ∈ s.base.idents ∨ ∃ f ∈ innerFrames s.allFrames, ident ∈ f.idents

theorem Reserved.mem_taken (h : s.Reserved ident) : ident ∈ s.taken := by
  simp only [taken, Frame.taken, List.mem_append, List.mem_flatMap]
  rcases h with hbase | ⟨f, hf, hident⟩
  · exact .inl (.inl (.inl (.inl hbase)))
  · exact .inl (.inl (.inr ⟨f, hf, .inl hident⟩))

theorem Grows.base (h : s.Grows t) : s.base.Grows t.base := by
  have hreverse := List.forall₂_reverse_iff.mpr h
  rw [allFrames, allFrames, List.reverse_concat, List.reverse_concat] at hreverse
  cases hreverse with
  | cons hbase _ => exact hbase

/-- **What is reserved stays so** while the frames are open. -/
theorem Grows.reserved (h : s.Grows t) (hreserved : s.Reserved ident) : t.Reserved ident := by
  rcases hreserved with hbase | ⟨f, hf, hident⟩
  · exact .inl (h.base.idents hbase)
  · obtain ⟨g, hg, hgrows⟩ := exists_mem_of_forall₂ (grows_innerFrames h) hf
    exact .inr ⟨g, hg, hgrows.idents hident⟩

/-- A claim for the module or in the innermost frame. -/
def claimOn (forModule : Bool) (s : Scope) (base : String) : String × Scope :=
  if forModule then s.claimModuleIdent base else s.claimIdent base

theorem claimOn_fst (forModule : Bool) (s : Scope) (base : String) :
    (claimOn forModule s base).1 = s.freshIdent base := by
  cases forModule <;> rfl

theorem reserved_claimOn (forModule : Bool) (s : Scope) (base : String) :
    (claimOn forModule s base).2.Reserved (s.freshIdent base) := by
  have hreserve : ∀ f : Frame, s.freshIdent base ∈ (f.reserve (s.freshIdent base)).idents :=
    fun f => mem_pushNew.mpr (.inr rfl)
  cases forModule with
  | true => exact .inl (hreserve s.base)
  | false =>
    show (s.reserveIdent (s.freshIdent base)).Reserved (s.freshIdent base)
    unfold Reserved reserveIdent
    rw [allFrames_onInnermost, allFrames]
    cases s.frames with
    | nil => exact .inr ⟨_, head_mem_innerFrames _ _, hreserve s.base⟩
    | cons f rest => exact .inr ⟨_, head_mem_innerFrames _ _, hreserve f⟩

/-- **Fresh identifiers are found, and claims differ.** In every scope and for every base the fresh
identifier is the first of `base`, `base__1`, `base__2`, … that is not taken, and no more spellings
are tried in vain than there are different ones taken. An identifier that was just claimed, for the
module or in the innermost frame, is taken. A claim of either kind that follows without a frame
being entered or left, for whatever base and whatever else happens in between, gets another one. -/
theorem claims_distinct (s : Scope) (base : String) :
    (∃ n, s.freshIdent base = candidate base n ∧ s.isTaken (candidate base n) = false ∧
      (∀ m < n, s.isTaken (candidate base m) = true) ∧ n ≤ s.taken.toFinset.card) ∧
    ∀ forModule : Bool,
      let claim := s.claimOn forModule base
      claim.1 = s.freshIdent base ∧ claim.2.isTaken claim.1 = true ∧
      ∀ t, claim.2.Stays t → ∀ (forModule' : Bool) (base' : String),
        (t.claimOn forModule' base').1 ≠ claim.1 := by
  refine ⟨?_, fun forModule => ?_⟩
  · obtain ⟨n, hn, hfree, htaken⟩ := freshIdent_eq_first s base
    exact ⟨n, hn, Bool.eq_false_iff.mpr fun h => hfree (isTaken_iff.mp h),
      fun m hm => isTaken_iff.mpr (htaken m hm), tries_le htaken⟩
  · have hreserved := reserved_claimOn forModule s base
    dsimp only
    rw [claimOn_fst]
    refine ⟨rfl, isTaken_iff.mpr hreserved.mem_taken, fun t hstays forModule' base' hsame => ?_⟩
    rw [claimOn_fst] at hsame
    refine freshIdent_not_mem t base' ?_
    rw [hsame]
    exact (hstays.grows.reserved hreserved).mem_taken

/-- A function with a variable `x`, in a module that has a variable `x__1`. -/
def numberedScope : Scope :=
  run [.declareGlobal "x__1" .int, .pushFunction "f" [],
    .change (.declareAs "x" "x" { ty := .int })]

/-- Two claims for `x` with a third one and a loss of all renames in between. -/
theorem claims_distinct_numbered :
    let claim := numberedScope.claimOn false "x"
    let t : Scope := { Op.apply (.change (.claimModuleIdent "x")) claim.2 with renames := .base }
    claim.1 = "x__2" ∧ claim.2.Stays t ∧ (t.claimOn true "x").1 = "x__4" ∧
      (t.claimOn true "x").1 ≠ claim.1 := by
  intro claim t
  have hstays : claim.2.Stays t :=
    .renames (.op .refl (.change (.claimModuleIdent "x")) rfl) .base
  exact ⟨by decide +kernel, hstays, by decide +kernel,
    ((claims_distinct numberedScope "x").2 false).2.2 t hstays true "x"⟩

end Scope

end ClosureConversion
