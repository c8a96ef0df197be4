import ClosureConversion.Proofs.Capture.Resolution
import ClosureConversion.Proofs.Usage.Specification

/-! # Free names along a chain of nested functions -/

set_option autoImplicit false

namespace ClosureConversion

/-! ## Nested definitions -/

/-- The blocks of a statement. The body of a nested function is no block of its definition. -/
def Stmt.blocks : Stmt → List (List Stmt)
  | .ifElse _ b e => [b, e]
  | .whileLoop _ b => [b]
  | .forLoop _ _ b => [b]
  | .tryExcept b hs e f => b :: e :: f :: hs.map Handler.body
  | .withItems _ b => [b]
  | _ => []

/-- The statement is the definition of `g`, or holds it in blocks of any depth. -/
inductive Stmt.Defines : Stmt → Function → Prop where
  | here (g : Function) : Defines (.functionDef g) g
  | inside {s t : Stmt} {block : List Stmt} {g : Function} (hblock : block ∈ s.blocks)
      (ht : t ∈ block) (h : Defines t g) : Defines s g

/-- `g` is defined in the body of `f` itself, at any depth of blocks. -/
def Function.Encloses (f g : Function) : Prop := ∃ s ∈ f.body, s.Defines g

namespace Stmt

/-- A union over a list holds what each member adds to it. -/
theorem subset_of_mem {α : Type} (one : α → Finset String) {all : List α → Finset String}
    (hhead : ∀ a l, one a ⊆ all (a :: l)) (htail : ∀ a l, all l ⊆ all (a :: l)) {a : α}
    {l : List α} (h : a ∈ l) : one a ⊆ all l := by
  induction l with
  | nil => cases h
  | cons b l ih =>
    rcases List.mem_cons.mp h with rfl | hrest
    · exact hhead a l
    · exact (ih hrest).trans (htail b l)

theorem mentions_subset_of_mem {s : Stmt} {body : List Stmt} (h : s ∈ body) (k : Mention) :
    s.mentions k ⊆ Stmt.allMentions k body :=
  subset_of_mem _ (fun _ _ => Finset.subset_union_left) (fun _ _ => Finset.subset_union_right) h

theorem innerWrites_subset_of_mem {s : Stmt} {body : List Stmt} (h : s ∈ body) :
    s.innerWrites ⊆ Stmt.allInnerWrites body :=
  subset_of_mem _ (fun _ _ => Finset.subset_union_left) (fun _ _ => Finset.subset_union_right) h

theorem allMentions_subset_handlers {h : Handler} {hs : List Handler} (hmem : h ∈ hs)
    (k : Mention) : Stmt.allMentions k h.body ⊆ Handler.allMentions k hs :=
  subset_of_mem (fun h => Stmt.allMentions k h.body)
    (fun ⟨_, _, _⟩ _ => Finset.subset_union_right.trans Finset.subset_union_left)
    (fun ⟨_, _, _⟩ _ => Finset.subset_union_right) hmem

theorem allInnerWrites_subset_handlers {h : Handler} {hs : List Handler} (hmem : h ∈ hs) :
    Stmt.allInnerWrites h.body ⊆ Handler.allInnerWrites hs :=
  subset_of_mem (fun h => Stmt.allInnerWrites h.body)
    (fun ⟨_, _, _⟩ _ => Finset.subset_union_left) (fun ⟨_, _, _⟩ _ => Finset.subset_union_right)
    hmem

/-- Blocks hide nothing: what they mention, the statement mentions. -/
theorem allMentions_subset_of_mem_blocks {s : Stmt} {block : List Stmt} (h : block ∈ s.blocks)
    (k : Mention) : Stmt.allMentions k block ⊆ s.mentions k := by
  intro n hn
  cases s with
  | tryExcept b hs e f =>
    simp only [blocks, List.mem_cons, List.mem_map] at h
    simp only [Stmt.mentions, Finset.mem_union]
    rcases h with rfl | rfl | rfl | ⟨handler, hmem, rfl⟩
    · exact .inl (.inl (.inl hn))
    · exact .inl (.inr hn)
    · exact .inr hn
    · exact .inl (.inl (.inr (allMentions_subset_handlers hmem k hn)))
  | ifElse t b e =>
    simp only [blocks, List.mem_cons, List.not_mem_nil, or_false] at h
    simp only [Stmt.mentions, Finset.mem_union]
    rcases h with rfl | rfl
    · exact .inl (.inr hn)
    · exact .inr hn
  | whileLoop | forLoop | withItems =>
    obtain rfl := List.mem_singleton.mp h
    exact Finset.mem_union_right _ hn
  | _ => cases h

theorem allInnerWrites_subset_of_mem_blocks {s : Stmt} {block : List Stmt}
    (h : block ∈ s.blocks) : Stmt.allInnerWrites block ⊆ s.innerWrites := by
  intro n hn
  cases s with
  | tryExcept b hs e f =>
    simp only [blocks, List.mem_cons, List.mem_map] at h
    simp only [Stmt.innerWrites, Finset.mem_union]
    rcases h with rfl | rfl | rfl | ⟨handler, hmem, rfl⟩
    · exact .inl (.inl (.inl hn))
    · exact .inl (.inr hn)
    · exact .inr hn
    · exact .inl (.inl (.inr (allInnerWrites_subset_handlers hmem hn)))
  | ifElse t b e =>
    simp only [blocks, List.mem_cons, List.not_mem_nil, or_false] at h
    rcases h with rfl | rfl
    · exact Finset.mem_union_left _ hn
    · exact Finset.mem_union_right _ hn
  | whileLoop | forLoop | withItems =>
    obtain rfl := List.mem_singleton.mp h
    exact hn
  | _ => cases h

theorem Defines.mentions_subset {s : Stmt} {g : Function} (h : s.Defines g) (k : Mention) :
    g.mentions k ⊆ s.mentions k := by
  induction h with
  | here g => exact fun _ hn => hn
  | inside hblock ht _ ih =>
    exact ih.trans ((mentions_subset_of_mem ht k).trans
      (allMentions_subset_of_mem_blocks hblock k))

theorem Defines.freeWrites_subset {s : Stmt} {g : Function} (h : s.Defines g) :
    g.freeWrites ⊆ s.innerWrites := by
  induction h with
  | here g => exact fun _ hn => hn
  | inside hblock ht _ ih =>
    exact ih.trans ((innerWrites_subset_of_mem ht).trans
      (allInnerWrites_subset_of_mem_blocks hblock))

end Stmt

/-! ## From a function to the one around it -/

/-- The name is no formal of the function, and the function neither assigns it nor declares it
global. -/
structure Function.Disowns (f : Function) (n : String) : Prop where
  formal : f.hasFormal n = false
  assigned : (Usage.ofFunction f).isAssigned n = false
  global : (Usage.ofFunction f).isGlobal n = false

/-- The name is read in the body, declared nonlocal, or written by a nested function. -/
def Usage.Uses (u : Usage) (n : String) : Prop :=
  n ∈ u.reads ∨ n ∈ u.nonlocals ∨ n ∈ u.nestedWrites

variable {f g : Function} {n : String}

namespace Usage

theorem mem_candidates {u : Usage} : n ∈ u.candidates ↔ u.Uses n := by
  rw [candidates, mem_foldl_pushNew, List.mem_append, List.mem_append, Uses, or_assoc]
  exact or_iff_right List.not_mem_nil

theorem mem_reads_iff : n ∈ (ofFunction f).reads ↔ n ∈ Stmt.allMentions .read f.body := by
  rw [← (ofFunction_specifies f).reads, List.mem_toFinset]

/-- Writing through is what the tree calls a free write. -/
theorem writesThrough_iff : (ofFunction f).writesThrough n = true ↔ n ∈ f.freeWrites := by
  have hclosed : Closed (Stmt.bodyFootprint f.body) f.formals (ofFunction f) := ofBody_closed ..
  rw [← hclosed.mem_writesOut]
  simp [writesThrough, isNonlocal, writesOut]

end Usage

theorem Function.Disowns.notMem_ownNames (h : f.Disowns n) :
    n ∉ ownNames f.formals f.body := by
  have hclosed : Usage.Closed (Stmt.bodyFootprint f.body) f.formals (Usage.ofFunction f) :=
    Usage.ofBody_closed ..
  obtain ⟨hformal, hassigned, hglobal⟩ := h
  rw [← hclosed.mem_hides]
  simp_all [Usage.hides, Function.hasFormal, Usage.isAssigned, Usage.isGlobal]

/-- A definition mentions the free names of its function. -/
theorem mem_mentions_of_uses (huses : (Usage.ofFunction g).Uses n) (hg : g.Disowns n) :
    n ∈ g.mentions .read := by
  rw [Function.mentions_eq, Finset.mem_union]
  rcases huses with hread | hwrite
  · refine .inl (Finset.mem_union_right _ (Finset.mem_sdiff.mpr ⟨?_, hg.notMem_ownNames⟩))
    exact Usage.mem_reads_iff.mp hread
  · refine .inr ?_
    have hthrough : (Usage.ofFunction g).writesThrough n = true := by
      simpa [Usage.writesThrough, Usage.isNonlocal] using hwrite
    exact Usage.writesThrough_iff.mp hthrough

/-- **A function reads what is free in the functions defined in it.** -/
theorem reads_of_encloses (h : f.Encloses g) (huses : (Usage.ofFunction g).Uses n)
    (hg : g.Disowns n) : n ∈ (Usage.ofFunction f).reads := by
  obtain ⟨s, hs, hdefines⟩ := h
  rw [Usage.mem_reads_iff]
  exact Stmt.mentions_subset_of_mem hs .read
    (hdefines.mentions_subset .read (mem_mentions_of_uses huses hg))

/-- **A function writes through what the functions defined in it write through**, unless the
name is its own. -/
theorem writesThrough_of_encloses (h : f.Encloses g) (hf : f.Disowns n)
    (hwrites : (Usage.ofFunction g).writesThrough n = true) :
    (Usage.ofFunction f).writesThrough n = true := by
  obtain ⟨s, hs, hdefines⟩ := h
  have hinner : n ∈ Stmt.allInnerWrites f.body :=
    Stmt.innerWrites_subset_of_mem hs
      (hdefines.freeWrites_subset (Usage.writesThrough_iff.mp hwrites))
  have hown := hf.notMem_ownNames
  rw [ownNames, Finset.mem_union, Finset.mem_union, not_or, not_or] at hown
  rw [Usage.writesThrough_iff, Function.freeWrites_eq]
  refine Finset.mem_union_right _ (Finset.mem_sdiff.mpr ⟨hinner, ?_⟩)
  exact fun hmem => (Finset.mem_union.mp hmem).elim hown.1.2 hown.1.1

/-! ## Along a chain -/

/-- A name that is free at the inner end of a chain is read all along it, and written through
all along it if it is at the inner end. The induction is on the chain, from outside: each link
hands over what the next one reads and writes. -/
theorem reads_and_writes_of_chain {outer : List Function} {inner : Function}
    (hchain : (outer ++ [inner]).IsChain Function.Encloses)
    (huses : (Usage.ofFunction inner).Uses n) (hinner : inner.Disowns n)
    (houter : ∀ f ∈ outer, f.Disowns n) :
    ∀ f ∈ outer, n ∈ (Usage.ofFunction f).reads ∧
      ((Usage.ofFunction inner).writesThrough n = true →
        (Usage.ofFunction f).writesThrough n = true) := by
  induction outer with
  | nil => exact fun f hf => absurd hf List.not_mem_nil
  | cons f outer ih =>
    obtain ⟨hf, hrest⟩ := List.forall_mem_cons.mp houter
    have hlater := ih hchain.tail hrest
    refine List.forall_mem_cons.mpr ⟨?_, hlater⟩
    cases outer with
    | nil =>
      have hencloses : f.Encloses inner := (List.isChain_cons_cons.mp hchain).1
      exact ⟨reads_of_encloses hencloses huses hinner, writesThrough_of_encloses hencloses hf⟩
    | cons g outer =>
      have hencloses : f.Encloses g := (List.isChain_cons_cons.mp hchain).1
      obtain ⟨hread, hwrites⟩ := hlater g List.mem_cons_self
      exact ⟨reads_of_encloses hencloses (.inl hread) (hrest g List.mem_cons_self),
        fun h => writesThrough_of_encloses hencloses hf (hwrites h)⟩

/-! ## Captures -/

/-- A name that the function uses without owning it, and that a frame above the module's binds,
is captured. The scope may be any. -/
theorem Capture.exists_captured_of_boundInFrames {s : Scope} {qualname : String}
    {r : Capture.Resolved} (hr : Capture.resolve f (Usage.ofFunction f) s qualname = .ok r)
    (huses : (Usage.ofFunction f).Uses n) (hf : f.Disowns n)
    (hown : ((Usage.ofFunction f).selfRecursive && n == f.name) = false)
    (hbound : s.BoundInFrames n) :
    ∃ c ∈ r.captures.toList, c.name = n ∧
      ((Usage.ofFunction f).writesThrough n = true → c.mode = .byReference) := by
  obtain ⟨b, hlookup⟩ := Option.isSome_iff_exists.mp (Scope.lookup_isSome_iff.mpr (.inl hbound))
  have hlocal : ¬ s.isGlobal n = true := fun h => (Scope.isGlobal_iff.mp h).1 hbound
  obtain ⟨c, hverdict⟩ : ∃ c, verdict f (Usage.ofFunction f) s n = .captured c := by
    simp [verdict, hf.formal, hown, hf.global, hf.assigned, hlookup, hlocal]
  have hname := (of_verdict hverdict).1
  subst hname
  exact ⟨c, (mem_captures_iff hr).mpr ⟨Usage.mem_candidates.mpr huses, hverdict⟩, rfl,
    mode_of_verdict hverdict⟩

/-- **A free name is threaded through the functions around it.** Take functions each defined in
the body of the one before, and a name that the last one uses and that belongs to none of them.
All the others read it, and write it through if the last one does. Wherever the name is bound in
a function's frame, resolution captures it for each of them, by reference if the last one writes
it through; only a recursive function of that very name reaches it by its handle instead. -/
theorem captured_along_chain {outer : List Function} {inner : Function}
    (hchain : (outer ++ [inner]).IsChain Function.Encloses)
    (huses : (Usage.ofFunction inner).Uses n) (hinner : inner.Disowns n)
    (houter : ∀ f ∈ outer, f.Disowns n) :
    (∀ f ∈ outer, n ∈ (Usage.ofFunction f).reads ∧
      ((Usage.ofFunction inner).writesThrough n = true →
        (Usage.ofFunction f).writesThrough n = true)) ∧
    ∀ f ∈ outer ++ [inner], ((Usage.ofFunction f).selfRecursive && n == f.name) = false →
      ∀ (s : Scope) (qualname : String) (r : Capture.Resolved), s.BoundInFrames n →
        Capture.resolve f (Usage.ofFunction f) s qualname = .ok r →
        ∃ c ∈ r.captures.toList, c.name = n ∧
          ((Usage.ofFunction inner).writesThrough n = true → c.mode = .byReference) := by
  have hall := reads_and_writes_of_chain hchain huses hinner houter
  refine ⟨hall, fun f hf hown s qualname r hbound hr => ?_⟩
  rcases List.mem_append.mp hf with hmem | hmem
  · obtain ⟨hread, hwrites⟩ := hall f hmem
    obtain ⟨c, hc, hname, hmode⟩ := Capture.exists_captured_of_boundInFrames hr (.inl hread)
      (houter f hmem) hown hbound
    exact ⟨c, hc, hname, fun h => hmode (hwrites h)⟩
  · obtain rfl := List.mem_singleton.mp hmem
    exact Capture.exists_captured_of_boundInFrames hr huses hinner hown hbound

/-- Adds to the `total` of some function around it. -/
def bumpTotal : Function :=
  { name := "bump"
    body := [.nonlocal ["total"], .augAssign (.name "total") .add (.constant (.int 1))] }

/-- Defines `bumpTotal` in one arm of a conditional. -/
def stepTotal : Function :=
  { name := "step", body := [.ifElse (.name "ready") [.functionDef bumpTotal] []] }

/-- Defines `stepTotal` in a handler. -/
def runTotal : Function :=
  { name := "run", body := [.tryExcept [.pass] [{ body := [.functionDef stepTotal] }] [] []] }

/-- Inside a function that has bound `total`. -/
def totalScope : Scope :=
  (({} : Scope).pushFunction "main" []).declare "total" { ty := .int }

/-- The outermost of three functions holds a pointer to the `total` that the innermost one
writes, though it does not mention it. -/
theorem captured_along_chain_total :
    [runTotal, stepTotal, bumpTotal].IsChain Function.Encloses ∧ totalScope.BoundInFrames "total" ∧
      "total" ∈ (Usage.ofFunction runTotal).reads ∧
      (Usage.ofFunction runTotal).writesThrough "total" = true ∧
      ∃ r, Capture.resolve runTotal (Usage.ofFunction runTotal) totalScope "main.run" = .ok r ∧
        ∃ c ∈ r.captures.toList, c.name = "total" ∧ c.mode = .byReference := by
  have hchain : [runTotal, stepTotal, bumpTotal].IsChain Function.Encloses := by
    refine List.isChain_cons_cons.mpr ⟨?_, List.isChain_pair.mpr ?_⟩
    · exact ⟨_, List.mem_singleton.mpr rfl,
        .inside (show [.functionDef stepTotal] ∈ _ by simp [Stmt.blocks])
          (List.mem_singleton.mpr rfl) (.here _)⟩
    · exact ⟨_, List.mem_singleton.mpr rfl,
        .inside (show [.functionDef bumpTotal] ∈ _ by simp [Stmt.blocks])
          (List.mem_singleton.mpr rfl) (.here _)⟩
  have houter : ∀ f ∈ [runTotal, stepTotal], f.Disowns "total" := by
    refine List.forall_mem_cons.mpr ⟨⟨?_, ?_, ?_⟩, List.forall_mem_singleton.mpr ⟨?_, ?_, ?_⟩⟩ <;>
      decide +kernel
  have hbound : totalScope.BoundInFrames "total" :=
    ⟨_, List.mem_singleton.mpr rfl, by decide +kernel⟩
  have hwrites : (Usage.ofFunction bumpTotal).writesThrough "total" = true := by decide +kernel
  obtain ⟨hread, hcaptured⟩ := captured_along_chain
    (show ([runTotal, stepTotal] ++ [bumpTotal]).IsChain Function.Encloses from hchain)
    (.inr (.inl (by decide +kernel))) ⟨by decide +kernel, by decide +kernel, by decide +kernel⟩
    houter
  obtain ⟨hrunReads, hrunWrites⟩ := hread runTotal List.mem_cons_self
  refine ⟨hchain, hbound, hrunReads, hrunWrites hwrites, ?_⟩
  have hok : (Capture.resolve runTotal (Usage.ofFunction runTotal) totalScope "main.run").isOk =
      true := by decide +kernel
  cases hr : Capture.resolve runTotal (Usage.ofFunction runTotal) totalScope "main.run" with
  | error e =>
    rw [hr] at hok
    cases hok
  | ok r =>
    obtain ⟨c, hc, hname, hmode⟩ := hcaptured runTotal List.mem_cons_self (by decide +kernel)
      totalScope "main.run" r hbound hr
    exact ⟨r, rfl, c, hc, hname, hmode hwrites⟩

end ClosureConversion
