import ClosureConversion.Proofs.Scope.Operations
import ClosureConversion.Proofs.Usage.Specification
import Mathlib.Data.Finset.Card
import Mathlib.Logic.Relation

/-! # Following alias links -/

set_option autoImplicit false

namespace ClosureConversion

open Relation

/-! ## Links -/

namespace Scope

variable {s : Scope} {p q r : String}

theorem mem_boundNames : p ∈ s.boundNames ↔ s.isDeclared p = true := by
  have hframe : ∀ f : Frame, p ∈ f.bindings.keys ↔ (f.get? p).isSome := fun f =>
    NameMap.mem_keys_iff
  unfold boundNames isDeclared lookup
  rw [Usage.mem_foldl_pushNew]
  simp [List.mem_flatMap, hframe, List.findSome?_isSome_iff]

theorem nodup_boundNames (s : Scope) : s.boundNames.Nodup := by
  have hfold : ∀ (names acc : List String), acc.Nodup → (names.foldl pushNew acc).Nodup := by
    intro names
    induction names with
    | nil => exact fun acc hacc => hacc
    | cons name rest ih => exact fun acc hacc => ih _ (nodup_pushNew hacc)
  exact hfold _ [] .nil

theorem isDeclared_of_aliasOf (h : s.aliasOf p = some r) : s.isDeclared p = true := by
  unfold aliasOf at h
  obtain ⟨b, hb, -⟩ := Option.bind_eq_some_iff.mp h
  exact Option.isSome_iff_exists.mpr ⟨b, hb⟩

/-- A name is linked to another one. -/
def Links (s : Scope) (p q : String) : Prop := s.aliasOf p = some q

instance (s : Scope) (p q : String) : Decidable (s.Links p q) :=
  inferInstanceAs (Decidable (s.aliasOf p = some q))

/-- Links lead from one name to the other, none or several of them. -/
def Leads (s : Scope) : String → String → Prop := ReflTransGen s.Links

theorem links_rightUnique (s : Scope) : Relator.RightUnique s.Links :=
  fun _ _ _ h h' => Option.some.inj (h.symm.trans h')

/-- From a name without a link nothing else is reached. -/
theorem Leads.eq_of_none (h : s.Leads p q) (hp : s.aliasOf p = none) : q = p := by
  rcases h.cases_head with heq | ⟨next, hlink, -⟩
  · exact heq.symm
  · cases hp.symm.trans hlink

/-- Whatever is reached from a circle leads back to it. -/
theorem Leads.back (h : s.Leads p q) (hcircle : TransGen s.Links p p) : TransGen s.Links q p := by
  induction h with
  | refl => exact hcircle
  | tail _ hlink ih =>
    obtain ⟨next, hnext, hrest⟩ := TransGen.head'_iff.mp ih
    obtain rfl := s.links_rightUnique hlink hnext
    exact .trans_right hrest hcircle

end Scope

/-! ## The walk -/

/-- The name that the walk is at and the names it has left behind. -/
structure AliasWalk where
  current : String
  seen : List String

namespace AliasWalk

variable {s : Scope} {w w' : AliasWalk} {looks : Nat} {r : String}

/-- Look for a link and follow it, unless the walk has been here before. -/
def next (s : Scope) (w : AliasWalk) : Option AliasWalk :=
  (s.aliasOf w.current).bind fun target =>
    if w.current ∈ w.seen then none else some ⟨target, w.current :: w.seen⟩

/-- The walk looks for a link so many times, and the last time it stays where it is. -/
inductive Ends (s : Scope) : AliasWalk → Nat → String → Prop
  | stop {w : AliasWalk} (h : w.next s = none) : Ends s w 1 w.current
  | turn {w w' : AliasWalk} {looks : Nat} {r : String} (h : w.next s = some w')
      (hrest : Ends s w' looks r) : Ends s w (looks + 1) r

theorem next_of_none (h : s.aliasOf w.current = none) : w.next s = none := by
  rw [next, h, Option.bind_none]

theorem next_of_mem (h : w.current ∈ w.seen) : w.next s = none := by
  unfold next
  cases s.aliasOf w.current with
  | none => rfl
  | some target => exact if_pos h

theorem next_of_links (h : s.Links w.current r) (hfresh : w.current ∉ w.seen) :
    w.next s = some ⟨r, w.current :: w.seen⟩ := by
  rw [next, show s.aliasOf w.current = some r from h, Option.bind_some, if_neg hfresh]

theorem links_of_next (h : w.next s = some w') :
    s.Links w.current w'.current ∧ w'.seen = w.current :: w.seen := by
  obtain ⟨target, hlink, hstep⟩ := Option.bind_eq_some_iff.mp h
  split at hstep
  · cases hstep
  · obtain rfl := Option.some.inj hstep
    exact ⟨hlink, rfl⟩

theorem of_next_eq_none (h : w.next s = none) :
    s.aliasOf w.current = none ∨ w.current ∈ w.seen := by
  cases hlink : s.aliasOf w.current with
  | none => exact .inl rfl
  | some target =>
    refine .inr (Decidable.byContradiction fun hfresh => ?_)
    cases h.symm.trans (next_of_links hlink hfresh)

/-- The names left behind lead to the name that the walk is at. -/
def Trailing (s : Scope) (w : AliasWalk) : Prop := ∀ n ∈ w.seen, TransGen s.Links n w.current

theorem Trailing.next (h : w.Trailing s) (hnext : w.next s = some w') : w'.Trailing s := by
  obtain ⟨hlink, hseen⟩ := links_of_next hnext
  intro n hn
  rw [hseen] at hn
  rcases List.mem_cons.mp hn with rfl | hbefore
  · exact .single hlink
  · exact (h n hbefore).tail hlink

/-- **A walk ends at a name without a link or in a circle.** -/
theorem Ends.spec (h : Ends s w looks r) (htrailing : w.Trailing s) :
    s.Leads w.current r ∧ (s.aliasOf r = none ∨ TransGen s.Links r r) := by
  induction h with
  | stop hstop => exact ⟨.refl, (of_next_eq_none hstop).imp_right (htrailing _)⟩
  | turn hnext _ ih =>
    obtain ⟨hleads, hend⟩ := ih (htrailing.next hnext)
    exact ⟨.head (links_of_next hnext).1 hleads, hend⟩

end AliasWalk

namespace Scope

variable {s : Scope} {p q r : String}

/-- **Where the walk ends, and after how many looks.** Only bound names have links, so each look but
the last one takes away one of the bound names that the walk has not been at. -/
theorem aliasEnd_ends (s : Scope) (unseen seen : List String) (name : String)
    (hunseen : ∀ n, n ∈ unseen ↔ s.isDeclared n = true ∧ n ∉ seen) :
    ∃ looks, looks ≤ unseen.length + 1 ∧
      AliasWalk.Ends s ⟨name, seen⟩ looks (s.aliasEnd unseen name) := by
  fun_induction aliasEnd s unseen name generalizing seen with
  | case1 unseen name hnone =>
    exact ⟨1, Nat.le_add_left 1 _, .stop (AliasWalk.next_of_none hnone)⟩
  | case2 unseen name target hlink hmem ih =>
    have hrest : ∀ n, n ∈ without unseen name ↔ s.isDeclared n = true ∧ n ∉ name :: seen := by
      intro n
      rw [without, List.mem_filter, hunseen, decide_eq_true_eq, List.mem_cons, not_or, and_assoc,
        and_comm (a := n ∉ seen)]
    obtain ⟨looks, hlooks, hends⟩ := ih (name :: seen) hrest
    have hshorter := length_without_lt hmem
    refine ⟨looks + 1, by omega, .turn (AliasWalk.next_of_links hlink ?_) hends⟩
    exact ((hunseen name).mp hmem).2
  | case3 unseen name target hlink hmem =>
    have hseen : name ∈ seen := by
      by_contra hfresh
      exact hmem ((hunseen name).mpr ⟨isDeclared_of_aliasOf hlink, hfresh⟩)
    exact ⟨1, Nat.le_add_left 1 _, .stop (AliasWalk.next_of_mem hseen)⟩

theorem aliasRoot_ends (s : Scope) (name : String) :
    ∃ looks, looks ≤ s.boundNames.length + 1 ∧
      AliasWalk.Ends s ⟨name, []⟩ looks (s.aliasRoot name) :=
  aliasEnd_ends s s.boundNames [] name fun n => by
    rw [mem_boundNames]
    exact (and_iff_left List.not_mem_nil).symm

/-- **Links that have an end are followed to it.** -/
theorem aliasRoot_of_leads (h : s.Leads p r) (hr : s.aliasOf r = none) : s.aliasRoot p = r := by
  obtain ⟨looks, -, hends⟩ := s.aliasRoot_ends p
  obtain ⟨hroot, hend⟩ := hends.spec fun _ hn => absurd hn List.not_mem_nil
  rcases ReflTransGen.total_of_right_unique s.links_rightUnique hroot h with hahead | hbehind
  · rcases hend with hnone | hcircle
    · exact (Leads.eq_of_none hahead hnone).symm
    · -- a circle does not lead to a name without a link
      obtain ⟨next, hlink, -⟩ := TransGen.head'_iff.mp (Leads.back hahead hcircle)
      cases hr.symm.trans hlink
  · exact Leads.eq_of_none hbehind hr

theorem aliasRoot_of_none (h : s.aliasOf p = none) : s.aliasRoot p = p :=
  aliasRoot_of_leads .refl h

theorem aliasRoot_of_some (h : s.aliasOf p = some r) (hr : s.aliasOf r = none) :
    s.aliasRoot p = r :=
  aliasRoot_of_leads (.single h) hr

/-- The names along links that have an end lead to the same end. -/
theorem Leads.to_end (h : s.Leads p r) (hr : s.aliasOf r = none) (hq : s.Leads p q) :
    s.Leads q r := by
  rcases ReflTransGen.total_of_right_unique s.links_rightUnique hq h with hahead | hbehind
  · exact hahead
  · rw [Leads.eq_of_none hbehind hr]
    exact .refl

/-- **The walk ends in every scope, at the end of the links if they have one.** It looks for a link
once more than there are bound names at most. If the links from a name lead to a name without a
link, that one is the root of the name and of all names on the way, and its own root too. -/
theorem aliasRoot_ends_at_root (s : Scope) (name : String) :
    (∃ looks, looks ≤ s.boundNames.toFinset.card + 1 ∧
      AliasWalk.Ends s ⟨name, []⟩ looks (s.aliasRoot name)) ∧
    ∀ r, s.Leads name r → s.aliasOf r = none →
      s.aliasRoot name = r ∧ s.aliasRoot (s.aliasRoot name) = s.aliasRoot name ∧
      ∀ q, s.Leads name q → s.aliasRoot q = s.aliasRoot name := by
  refine ⟨?_, fun r hleads hr => ?_⟩
  · rw [List.toFinset_card_of_nodup s.nodup_boundNames]
    exact s.aliasRoot_ends name
  · have hroot := aliasRoot_of_leads hleads hr
    rw [hroot]
    exact ⟨rfl, aliasRoot_of_none hr, fun q hq => aliasRoot_of_leads (hleads.to_end hr hq) hr⟩

/-- Links in a circle and in a chain. While a block has a `b` of its own, `a` is linked to it;
after the block, `a` is linked to the outer `b`, which is linked to `a`. -/
def circularScope : Scope :=
  run (.pushFunction "f" [] ::
    ["a", "b", "c", "d", "e"].map (fun n => .change (.declareAs n n { ty := .list .int })) ++
    [.change (.recordAlias "b" "a"), .change (.recordAlias "c" "d"),
      .change (.recordAlias "d" "e"), .pushBlock,
      .change (.declareAs "b" "b__1" { ty := .list .int }), .change (.recordAlias "a" "b"), .pop])

theorem aliasRoot_ends_at_root_circular :
    circularScope.Links "a" "b" ∧ circularScope.Links "b" "a" ∧
    (∃ looks, looks ≤ 6 ∧ AliasWalk.Ends circularScope ⟨"a", []⟩ looks "a") ∧
    circularScope.Leads "c" "e" ∧ circularScope.aliasOf "e" = none ∧
    circularScope.aliasRoot "c" = "e" ∧ circularScope.aliasRoot "d" = "e" := by
  have hcd : circularScope.Links "c" "d" := by decide +kernel
  have hde : circularScope.Links "d" "e" := by decide +kernel
  have hleads : circularScope.Leads "c" "e" := .head hcd (.single hde)
  have hend : circularScope.aliasOf "e" = none := by decide +kernel
  have hroot : circularScope.aliasRoot "a" = "a" := by decide +kernel
  have hbound : circularScope.boundNames.toFinset.card = 5 := by decide +kernel
  obtain ⟨hc, -, hchain⟩ := (aliasRoot_ends_at_root circularScope "c").2 "e" hleads hend
  have hwalk := (aliasRoot_ends_at_root circularScope "a").1
  rw [hroot, hbound] at hwalk
  exact ⟨by decide +kernel, by decide +kernel, hwalk, hleads, hend, hc,
    (hchain "d" (.single hcd)).trans hc⟩

end Scope

end ClosureConversion
