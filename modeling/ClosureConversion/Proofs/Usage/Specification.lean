import ClosureConversion.Proofs.Usage.Mentions
import Mathlib.Tactic

/-! # The analysis of a body computes its mentions -/

set_option autoImplicit false

namespace ClosureConversion

/-- What a part of a body adds to the usage of the body. -/
structure Footprint where
  mentions : Mention → Finset String := fun _ => ∅
  bindings : List String := []
  nonlocals : List String := []
  globals : List String := []
  /-- Free names that functions defined here write. -/
  writes : Finset String := ∅

namespace Footprint

def add (a b : Footprint) : Footprint where
  mentions k := a.mentions k ∪ b.mentions k
  bindings := a.bindings ++ b.bindings
  nonlocals := a.nonlocals ++ b.nonlocals
  globals := a.globals ++ b.globals
  writes := a.writes ∪ b.writes

/-- Two footprints that no usage tells apart. -/
structure Same (a b : Footprint) : Prop where
  mentions : ∀ k n, n ∈ a.mentions k ↔ n ∈ b.mentions k
  bindings : ∀ n, a.bindings.count n = b.bindings.count n
  nonlocals : ∀ n, n ∈ a.nonlocals ↔ n ∈ b.nonlocals
  globals : ∀ n, n ∈ a.globals ↔ n ∈ b.globals
  writes : ∀ n, n ∈ a.writes ↔ n ∈ b.writes

end Footprint

@[simp] theorem mem_only {kind k : Mention} {s : Finset String} {n : String} :
    n ∈ Mention.only kind k s ↔ k = kind ∧ n ∈ s := by
  unfold Mention.only
  split <;> simp_all

namespace Usage

/-- The names that are mentioned in the way of `k`. -/
def names (u : Usage) : Mention → List String
  | .read => u.reads
  | .called => u.calls
  | .mutated => u.mutated

/-- `v` is `u` with the footprint `a` added, apart from mentions of hidden names. -/
structure Adds (hidden : List String) (a : Footprint) (u v : Usage) : Prop where
  names : ∀ k n, n ∈ v.names k ↔ n ∈ u.names k ∨ n ∉ hidden ∧ n ∈ a.mentions k
  assigned : ∀ n, n ∈ v.assigned ↔ n ∈ u.assigned ∨ n ∈ a.bindings
  counts : ∀ n, v.assignCount n = u.assignCount n + a.bindings.count n
  nonlocals : ∀ n, n ∈ v.nonlocals ↔ n ∈ u.nonlocals ∨ n ∈ a.nonlocals
  globals : ∀ n, n ∈ v.globals ↔ n ∈ u.globals ∨ n ∈ a.globals
  nestedWrites : ∀ n, n ∈ v.nestedWrites ↔ n ∈ u.nestedWrites ∨ n ∉ hidden ∧ n ∈ a.writes

namespace Adds

variable {hidden inner : List String} {a b : Footprint} {m m' : Mention → Finset String}
  {u v w : Usage}

theorem nothing (hidden : List String) (u : Usage) : Adds hidden {} u u := by
  refine ⟨?_, ?_, ?_, ?_, ?_, ?_⟩ <;> simp

theorem trans (h : Adds hidden a u v) (h' : Adds hidden b v w) : Adds hidden (a.add b) u w := by
  refine ⟨fun k n => ?_, fun n => ?_, fun n => ?_, fun n => ?_, fun n => ?_, fun n => ?_⟩
  · rw [h'.names, h.names, Footprint.add, Finset.mem_union]
    tauto
  · rw [h'.assigned, h.assigned, Footprint.add, List.mem_append, or_assoc]
  · rw [h'.counts, h.counts, Footprint.add, List.count_append, add_assoc]
  · rw [h'.nonlocals, h.nonlocals, Footprint.add, List.mem_append, or_assoc]
  · rw [h'.globals, h.globals, Footprint.add, List.mem_append, or_assoc]
  · rw [h'.nestedWrites, h.nestedWrites, Footprint.add, Finset.mem_union]
    tauto

theorem congr (h : Adds hidden a u v) (hs : a.Same b) : Adds hidden b u v := by
  refine ⟨fun k n => ?_, fun n => ?_, fun n => ?_, fun n => ?_, fun n => ?_, fun n => ?_⟩
  · rw [h.names, hs.mentions]
  · have hb : n ∈ a.bindings ↔ n ∈ b.bindings := by
      rw [← List.count_pos_iff, hs.bindings, List.count_pos_iff]
    rw [h.assigned, hb]
  · rw [h.counts, hs.bindings]
  · rw [h.nonlocals, hs.nonlocals]
  · rw [h.globals, hs.globals]
  · rw [h.nestedWrites, hs.writes]

/-- Two expressions one after the other. -/
theorem union (h : Adds hidden { mentions := m } u v) (h' : Adds hidden { mentions := m' } v w) :
    Adds hidden { mentions := fun k => m k ∪ m' k } u w :=
  (h.trans h').congr ⟨by simp [Footprint.add], by simp [Footprint.add], by simp [Footprint.add],
    by simp [Footprint.add], by simp [Footprint.add]⟩

/-- Names hidden on the way down are names taken out of the set. -/
theorem unhide (h : Adds (hidden ++ inner) { mentions := m } u v) :
    Adds hidden { mentions := fun k => m k \ inner.toFinset } u v := by
  refine ⟨fun k n => ?_, h.assigned, h.counts, h.nonlocals, h.globals, ?_⟩
  · rw [h.names, List.mem_append, Finset.mem_sdiff, List.mem_toFinset]
    tauto
  · simpa using h.nestedWrites

end Adds

/-! ## Single occurrences -/

/-- Noting one name in one of the three lists, unless it is hidden. -/
theorem adds_of_note {hidden : List String} {kind : Mention} {n : String} {u v : Usage}
    (hnames : ∀ k x, x ∈ v.names k ↔ x ∈ u.names k ∨ k = kind ∧ x = n)
    (hassigned : v.assigned = u.assigned) (hcounts : v.assignCounts = u.assignCounts)
    (hnonlocals : v.nonlocals = u.nonlocals) (hglobals : v.globals = u.globals)
    (hwrites : v.nestedWrites = u.nestedWrites) :
    Adds hidden { mentions := fun k => Mention.only kind k {n} } u
      (if hidden.contains n then u else v) := by
  by_cases h : n ∈ hidden
  · refine ⟨fun k x => ?_, ?_, ?_, ?_, ?_, ?_⟩ <;> simp [h]
    rintro hx rfl rfl
    exact absurd h hx
  · refine ⟨fun k x => ?_, ?_, ?_, ?_, ?_, ?_⟩ <;>
      simp [h, hnames, hassigned, hnonlocals, hglobals, hwrites, assignCount, hcounts]
    grind

theorem read_adds (hidden : List String) (n : String) (u : Usage) :
    Adds hidden { mentions := fun k => Mention.only .read k {n} } u (u.read hidden n) :=
  adds_of_note (by intro k x; cases k <;> simp [names]) rfl rfl rfl rfl rfl

theorem called_adds (hidden : List String) (n : String) (u : Usage) :
    Adds hidden { mentions := fun k => Mention.only .called k {n} } u (u.called hidden n) :=
  adds_of_note (by intro k x; cases k <;> simp [names]) rfl rfl rfl rfl rfl

theorem mutate_adds (hidden : List String) (n : String) (u : Usage) :
    Adds hidden { mentions := fun k => Mention.only .mutated k {n} } u (u.mutate hidden n) :=
  adds_of_note (by intro k x; cases k <;> simp [names]) rfl rfl rfl rfl rfl

theorem bind_adds (n : String) (u : Usage) : Adds [] { bindings := [n] } u (u.bind n) := by
  refine ⟨fun k x => ?_, fun x => ?_, fun x => ?_, fun x => ?_, fun x => ?_, fun x => ?_⟩
  · cases k <;> simp [bind, names]
  · simp [bind]
  · by_cases h : n = x
    · subst h
      simp [bind, assignCount]
    · simp [bind, assignCount, h]
  · simp [bind]
  · simp [bind]
  · simp [bind]

theorem writeThrough_adds (hidden : List String) (n : String) (u : Usage) :
    Adds hidden { mentions := fun k => Mention.only .read k {n}, writes := {n} } u
      (u.writeThrough hidden n) := by
  by_cases h : n ∈ hidden
  · refine ⟨fun k x => ?_, ?_, ?_, ?_, ?_, fun x => ?_⟩ <;> simp [writeThrough, h]
    · rintro hx rfl rfl
      exact absurd h hx
    · rintro hx rfl
      exact absurd h hx
  · have hr := read_adds hidden n u
    refine ⟨fun k x => ?_, ?_, ?_, ?_, ?_, fun x => ?_⟩
    · rw [← hr.names]
      cases k <;> simp [writeThrough, h, names]
    · simpa [writeThrough, h] using hr.assigned
    · simpa [writeThrough, h, assignCount] using hr.counts
    · simpa [writeThrough, h] using hr.nonlocals
    · simpa [writeThrough, h] using hr.globals
    · simp [writeThrough, h]
      grind

/-! ## Nested functions -/

theorem foldl_note_adds {hidden : List String} {note : Usage → String → Usage} {kind : Mention}
    (hnote : ∀ n u, Adds hidden { mentions := fun k => Mention.only kind k {n} } u (note u n))
    (ns : List String) (u : Usage) :
    Adds hidden { mentions := fun k => Mention.only kind k ns.toFinset } u (ns.foldl note u) := by
  induction ns generalizing u with
  | nil => exact (Adds.nothing hidden u).congr ⟨by simp, by simp, by simp, by simp, by simp⟩
  | cons n ns ih =>
    refine ((hnote n u).union (ih (note u n))).congr ⟨fun k x => ?_, ?_, ?_, ?_, ?_⟩ <;> simp
    grind

theorem foldl_writeThrough_adds (hidden ns : List String) (u : Usage) :
    Adds hidden { mentions := fun k => Mention.only .read k ns.toFinset, writes := ns.toFinset } u
      (ns.foldl (fun u n => u.writeThrough hidden n) u) := by
  induction ns generalizing u with
  | nil => exact (Adds.nothing hidden u).congr ⟨by simp, by simp, by simp, by simp, by simp⟩
  | cons n ns ih =>
    refine ((writeThrough_adds hidden n u).trans (ih _)).congr ⟨fun k x => ?_, ?_, ?_, ?_, ?_⟩ <;>
      simp [Footprint.add]
    grind

/-- Names of a nested function that mean nothing around it. -/
def hides (inner : Usage) (formals : List String) : Finset String :=
  formals.toFinset ∪ inner.assigned.toFinset ∪ inner.globals.toFinset

/-- Names that a nested function writes and does not bind. -/
def writesOut (inner : Usage) : Finset String := (inner.nonlocals ++ inner.nestedWrites).toFinset

theorem absorb_adds (u : Usage) (hidden : List String) (inner : Usage) (formals : List String) :
    Adds hidden
      { mentions := fun k =>
          ((inner.names k).toFinset \ inner.hides formals) ∪ Mention.only .read k inner.writesOut
        writes := inner.writesOut } u (u.absorb hidden inner formals) := by
  have hreads := fun ns u => foldl_note_adds (read_adds hidden) ns u
  have hcalls := fun ns u => foldl_note_adds (called_adds hidden) ns u
  have hmutated := fun ns u => foldl_note_adds (mutate_adds hidden) ns u
  have hwrites := foldl_writeThrough_adds hidden (inner.nonlocals ++ inner.nestedWrites)
  refine ((((hreads _ u).trans (hcalls _ _)).trans (hwrites _)).trans (hmutated _ _)).congr
    ⟨fun k n => ?_, ?_, ?_, ?_, ?_⟩ <;> simp [Footprint.add, writesOut]
  cases k <;> simp [hides, names, isAssigned, isGlobal, and_assoc]

/-- The usage of a whole body with the footprint `a`. -/
structure Closed (a : Footprint) (formals : List String) (u : Usage) : Prop where
  names : ∀ k n, n ∈ u.names k ↔ n ∈ a.mentions k
  assigned : ∀ n, n ∈ u.assigned ↔
    n ∈ a.bindings ∧ n ∉ a.nonlocals ∧ n ∉ a.globals ∧ n ∉ formals
  counts : ∀ n, u.assignCount n = a.bindings.count n
  nonlocals : ∀ n, n ∈ u.nonlocals ↔ n ∈ a.nonlocals
  globals : ∀ n, n ∈ u.globals ↔ n ∈ a.globals
  nestedWrites : ∀ n, n ∈ u.nestedWrites ↔ n ∈ a.writes ∧ n ∉ u.assigned ∧ n ∉ formals

theorem Adds.close {a : Footprint} {u : Usage} (h : Adds [] a {} u) (ownName : String)
    (formals : List String) : Closed a formals (u.close ownName formals) := by
  have hempty : ∀ k n, n ∉ Usage.names {} k := by
    intro k n
    cases k <;> simp [Usage.names]
  refine ⟨fun k n => ?_, fun n => ?_, fun n => ?_, fun n => ?_, fun n => ?_, fun n => ?_⟩
  · have hn := h.names k n
    simp only [hempty, List.not_mem_nil, not_false_eq_true, true_and, false_or] at hn
    rw [← hn]
    cases k <;> rfl
  · simp [Usage.close, h.assigned, h.nonlocals, h.globals, and_assoc]
  · simpa [Usage.close, assignCount] using h.counts n
  · simpa [Usage.close] using h.nonlocals n
  · simpa [Usage.close] using h.globals n
  · simp [Usage.close, h.nestedWrites]
    tauto

/-! ## Expressions -/

theorem callee_adds (hidden : List String) (f : Expr) (u : Usage) :
    Adds hidden { mentions := fun k => f.asCallee k } u (u.callee hidden f) := by
  unfold callee
  split
  · exact called_adds hidden _ u
  · split
    · refine (mutate_adds hidden _ u).congr ⟨?_, ?_, ?_, ?_, ?_⟩ <;> simp_all [Expr.asCallee]
    · refine (Adds.nothing hidden u).congr ⟨?_, ?_, ?_, ?_, ?_⟩ <;> simp_all [Expr.asCallee]
  · rename_i hname hattr
    have hcallee : ∀ k, f.asCallee k = ∅ := fun k => by
      unfold Expr.asCallee
      split <;> simp_all
    refine (Adds.nothing hidden u).congr ⟨?_, ?_, ?_, ?_, ?_⟩ <;> simp [hcallee]

theorem argument_adds (hidden : List String) (e : Expr) (u : Usage) :
    Adds hidden { mentions := fun k => Mention.only .called k e.plainName } u
      (u.argument hidden e) := by
  unfold argument
  split
  · exact (called_adds hidden _ u).congr
      ⟨by simp [Expr.plainName, Expr.name?], by simp, by simp, by simp, by simp⟩
  · rename_i hne
    have hplain : e.plainName = ∅ := by
      cases e <;> simp [Expr.plainName, Expr.name?] at hne ⊢
    refine (Adds.nothing hidden u).congr ⟨?_, ?_, ?_, ?_, ?_⟩ <;> simp [hplain]

/-- A lambda binds nothing but its formals: its body is an expression. -/
theorem lambda_adds {hidden : List String} {ps : List Param} {b : Expr} {u v : Usage}
    (hps : Adds hidden { mentions := fun k => Param.allMentions k ps } u v)
    (hb : Adds [] { mentions := fun k => b.mentions k } {} (Usage.expr [] b {})) :
    Adds hidden
      { mentions := fun k =>
          Param.allMentions k ps ∪ (b.mentions k \ (ps.map Param.name).toFinset) } u
      (v.absorb hidden ((Usage.expr [] b {}).close "<lambda>" (ps.map Param.name))
        (ps.map Param.name)) := by
  have hc := hb.close "<lambda>" (ps.map Param.name)
  refine (hps.trans (absorb_adds v hidden _ _)).congr ⟨fun k n => ?_, ?_, ?_, ?_, fun n => ?_⟩
  · simp [Footprint.add, hides, writesOut, hc.names, hc.assigned, hc.globals, hc.nonlocals,
      hc.nestedWrites]
  · simp [Footprint.add]
  · simp [Footprint.add]
  · simp [Footprint.add]
  · simp [Footprint.add, writesOut, hc.nonlocals, hc.nestedWrites]

mutual

theorem expr_adds (hidden : List String) : ∀ (e : Expr) (u : Usage),
    Adds hidden { mentions := fun k => e.mentions k } u (Usage.expr hidden e u)
  | .name n, u => by
    simpa only [Usage.expr, Expr.mentions] using read_adds hidden n u
  | .constant _, u => by
    simpa only [Usage.expr, Expr.mentions] using Adds.nothing hidden u
  | .binary _ l r, u => by
    simpa only [Usage.expr, Expr.mentions] using
      (expr_adds hidden l u).union (expr_adds hidden r _)
  | .unary _ e, u => by
    simpa only [Usage.expr, Expr.mentions] using expr_adds hidden e u
  | .boolean _ es, u => by
    simpa only [Usage.expr, Expr.mentions] using exprs_adds hidden es u
  | .compare l _ es, u => by
    simpa only [Usage.expr, Expr.mentions] using
      (expr_adds hidden l u).union (exprs_adds hidden es _)
  | .call f args kws, u => by
    simpa only [Usage.expr, Expr.mentions] using
      (((expr_adds hidden f u).union (callee_adds hidden f _)).union
        (arguments_adds hidden args _)).union (keywords_adds hidden kws _)
  | .attribute e _, u => by
    simpa only [Usage.expr, Expr.mentions] using expr_adds hidden e u
  | .subscript e i, u => by
    simpa only [Usage.expr, Expr.mentions] using
      (expr_adds hidden e u).union (expr_adds hidden i _)
  | .list es, u => by
    simpa only [Usage.expr, Expr.mentions] using exprs_adds hidden es u
  | .tuple es, u => by
    simpa only [Usage.expr, Expr.mentions] using exprs_adds hidden es u
  | .set es, u => by
    simpa only [Usage.expr, Expr.mentions] using exprs_adds hidden es u
  | .dict ks vs, u => by
    simpa only [Usage.expr, Expr.mentions] using
      (exprs_adds hidden ks u).union (exprs_adds hidden vs _)
  | .ifElse t b e, u => by
    simpa only [Usage.expr, Expr.mentions] using
      ((expr_adds hidden t u).union (expr_adds hidden b _)).union (expr_adds hidden e _)
  | .lambda ps b, u => by
    simpa only [Usage.expr, Expr.mentions] using
      lambda_adds (defaults_adds hidden ps u) (expr_adds [] b {})
  | .listComp e gs, u => by
    simpa only [Usage.expr, Expr.mentions] using
      (generators_adds hidden gs u).union (expr_adds (hidden ++ Generator.names gs) e _).unhide
  | .setComp e gs, u => by
    simpa only [Usage.expr, Expr.mentions] using
      (generators_adds hidden gs u).union (expr_adds (hidden ++ Generator.names gs) e _).unhide
  | .generatorExp e gs, u => by
    simpa only [Usage.expr, Expr.mentions] using
      (generators_adds hidden gs u).union (expr_adds (hidden ++ Generator.names gs) e _).unhide
  | .dictComp key value gs, u => by
    simpa only [Usage.expr, Expr.mentions] using
      (generators_adds hidden gs u).union
        ((expr_adds (hidden ++ Generator.names gs) key _).union
          (expr_adds (hidden ++ Generator.names gs) value _)).unhide
  | .format ps, u => by
    simpa only [Usage.expr, Expr.mentions] using parts_adds hidden ps u
  | .starred e, u => by
    simpa only [Usage.expr, Expr.mentions] using expr_adds hidden e u

theorem exprs_adds (hidden : List String) : ∀ (es : List Expr) (u : Usage),
    Adds hidden { mentions := fun k => Expr.allMentions k es } u (Usage.exprs hidden es u)
  | [], u => by
    simpa only [Usage.exprs, Expr.allMentions] using Adds.nothing hidden u
  | e :: es, u => by
    simpa only [Usage.exprs, Expr.allMentions] using
      (expr_adds hidden e u).union (exprs_adds hidden es _)

theorem arguments_adds (hidden : List String) : ∀ (es : List Expr) (u : Usage),
    Adds hidden { mentions := fun k => Expr.argMentions k es } u (Usage.arguments hidden es u)
  | [], u => by
    simpa only [Usage.arguments, Expr.argMentions] using Adds.nothing hidden u
  | e :: es, u => by
    simpa only [Usage.arguments, Expr.argMentions] using
      ((argument_adds hidden e u).union (expr_adds hidden e _)).union (arguments_adds hidden es _)

theorem keywords_adds (hidden : List String) : ∀ (ks : List Keyword) (u : Usage),
    Adds hidden { mentions := fun k => Keyword.allMentions k ks } u (Usage.keywords hidden ks u)
  | [], u => by
    simpa only [Usage.keywords, Keyword.allMentions] using Adds.nothing hidden u
  | ⟨_, e⟩ :: ks, u => by
    simpa only [Usage.keywords, Keyword.allMentions] using
      (expr_adds hidden e u).union (keywords_adds hidden ks _)

theorem defaults_adds (hidden : List String) : ∀ (ps : List Param) (u : Usage),
    Adds hidden { mentions := fun k => Param.allMentions k ps } u (Usage.defaults hidden ps u)
  | [], u => by
    simpa only [Usage.defaults, Param.allMentions] using Adds.nothing hidden u
  | ⟨_, _, some e⟩ :: ps, u => by
    simpa only [Usage.defaults, Param.allMentions] using
      (expr_adds hidden e u).union (defaults_adds hidden ps _)
  | ⟨_, _, none⟩ :: ps, u => by
    simpa only [Usage.defaults, Param.allMentions] using defaults_adds hidden ps u

theorem generators_adds (hidden : List String) : ∀ (gs : List Generator) (u : Usage),
    Adds hidden { mentions := fun k => Generator.allMentions k gs } u
      (Usage.generators hidden gs u)
  | [], u => by
    simpa only [Usage.generators, Generator.allMentions] using Adds.nothing hidden u
  | ⟨target, iter, ifs⟩ :: gs, u => by
    simpa only [Usage.generators, Generator.allMentions] using
      (expr_adds hidden iter u).union
        ((exprs_adds (hidden ++ target.names) ifs _).union
          (generators_adds (hidden ++ target.names) gs _)).unhide

theorem parts_adds (hidden : List String) : ∀ (ps : List FormatPart) (u : Usage),
    Adds hidden { mentions := fun k => FormatPart.allMentions k ps } u (Usage.parts hidden ps u)
  | [], u => by
    simpa only [Usage.parts, FormatPart.allMentions] using Adds.nothing hidden u
  | .literal _ :: ps, u => by
    simpa only [Usage.parts, FormatPart.allMentions] using parts_adds hidden ps u
  | .interpolation e :: ps, u => by
    simpa only [Usage.parts, FormatPart.allMentions] using
      (expr_adds hidden e u).union (parts_adds hidden ps _)

end

theorem optional_adds (e : Option Expr) (u : Usage) :
    Adds [] { mentions := fun k => Expr.optMentions k e } u (Usage.optional e u) := by
  cases e with
  | none => exact Adds.nothing [] u
  | some e => exact expr_adds [] e u

/-! ## Targets -/

theorem container_adds (e : Expr) (u : Usage) :
    Adds [] { mentions := fun k => Mention.only .mutated k e.plainName } u (u.container e) := by
  unfold container
  split
  · exact (mutate_adds [] _ u).congr
      ⟨by simp [Expr.plainName, Expr.name?], by simp, by simp, by simp, by simp⟩
  · rename_i hne
    have hplain : e.plainName = ∅ := by
      cases e <;> simp [Expr.plainName, Expr.name?] at hne ⊢
    refine (Adds.nothing [] u).congr ⟨?_, ?_, ?_, ?_, ?_⟩ <;> simp [hplain]

mutual

theorem store_adds : ∀ (t : Target) (u : Usage),
    Adds [] { mentions := fun k => t.mentions k, bindings := t.names } u (Usage.store t u)
  | .name n, u => by
    simpa only [Usage.store, Target.mentions, Target.names] using bind_adds n u
  | .tuple ts, u => by
    simpa only [Usage.store, Target.mentions, Target.names] using stores_adds ts u
  | .starred t, u => by
    simpa only [Usage.store, Target.mentions, Target.names] using store_adds t u
  | .attribute e _, u => by
    simpa only [Usage.store, Target.mentions, Target.names] using
      (expr_adds [] e u).union (container_adds e _)
  | .subscript e i, u => by
    simpa only [Usage.store, Target.mentions, Target.names] using
      ((expr_adds [] e u).union (expr_adds [] i _)).union (container_adds e _)

theorem stores_adds : ∀ (ts : List Target) (u : Usage),
    Adds [] { mentions := fun k => Target.allMentions k ts, bindings := Target.allNames ts } u
      (Usage.stores ts u)
  | [], u => by
    simpa only [Usage.stores, Target.allMentions, Target.allNames] using Adds.nothing [] u
  | t :: ts, u => by
    refine ((store_adds t u).trans (stores_adds ts _)).congr ⟨?_, ?_, ?_, ?_, ?_⟩ <;>
      simp [Footprint.add, Target.allMentions, Target.allNames]

end

theorem withItems_adds (ws : List WithItem) (u : Usage) :
    Adds [] { mentions := fun k => WithItem.allMentions k ws
              bindings := Target.allNames (ws.filterMap WithItem.target) } u
      (Usage.withItems ws u) := by
  induction ws generalizing u with
  | nil => exact Adds.nothing [] u
  | cons item ws ih =>
    obtain ⟨context, _ | t⟩ := item
    · refine ((expr_adds [] context u).trans (ih _)).congr ⟨?_, ?_, ?_, ?_, ?_⟩ <;>
        simp [Footprint.add, WithItem.allMentions]
    · refine (((expr_adds [] context u).trans (store_adds t _)).trans (ih _)).congr
        ⟨?_, ?_, ?_, ?_, ?_⟩ <;>
        simp [Footprint.add, WithItem.allMentions, Target.allNames]

/-! ## Statements -/

end Usage

/-- The footprint of a statement in the body around it. -/
def Stmt.footprint (s : Stmt) : Footprint where
  mentions k := s.mentions k
  bindings := s.gather Stmt.bindsHere
  nonlocals := s.gather Stmt.nonlocalsHere
  globals := s.gather Stmt.globalsHere
  writes := s.innerWrites

def Stmt.bodyFootprint (body : List Stmt) : Footprint where
  mentions k := Stmt.allMentions k body
  bindings := Stmt.bindings body
  nonlocals := Stmt.nonlocals body
  globals := Stmt.globals body
  writes := Stmt.allInnerWrites body

def Handler.footprint (hs : List Handler) : Footprint where
  mentions k := Handler.allMentions k hs
  bindings := hs.filterMap Handler.name ++ Handler.gatherAll Stmt.bindsHere hs
  nonlocals := Handler.gatherAll Stmt.nonlocalsHere hs
  globals := Handler.gatherAll Stmt.globalsHere hs
  writes := Handler.allInnerWrites hs

namespace Usage

theorem mem_foldl_pushNew (ns xs : List String) (n : String) :
    n ∈ ns.foldl pushNew xs ↔ n ∈ xs ∨ n ∈ ns := by
  induction ns generalizing xs with
  | nil => simp
  | cons x ns ih => simp [ih, or_assoc]

theorem nonlocal_adds (ns : List String) (u : Usage) :
    Adds [] { nonlocals := ns } u { u with nonlocals := ns.foldl pushNew u.nonlocals } := by
  refine ⟨fun k n => ?_, ?_, ?_, ?_, ?_, ?_⟩ <;> simp [mem_foldl_pushNew, assignCount]
  cases k <;> rfl

theorem global_adds (ns : List String) (u : Usage) :
    Adds [] { globals := ns } u { u with globals := ns.foldl pushNew u.globals } := by
  refine ⟨fun k n => ?_, ?_, ?_, ?_, ?_, ?_⟩ <;> simp [mem_foldl_pushNew, assignCount]
  cases k <;> rfl

/-- What a closed body hides, and what it writes outside, in terms of its tree. -/
theorem Closed.mem_hides {body : List Stmt} {formals : List String} {inner : Usage}
    (h : Closed (Stmt.bodyFootprint body) formals inner) (n : String) :
    n ∈ inner.hides formals ↔ n ∈ ownNames formals body := by
  simp [hides, ownNames, localNames, h.assigned, h.globals, Stmt.bodyFootprint]

theorem Closed.mem_writesOut {f : Function} {inner : Usage}
    (h : Closed (Stmt.bodyFootprint f.body) f.formals inner) (n : String) :
    n ∈ inner.writesOut ↔ n ∈ f.freeWrites := by
  simp [writesOut, Function.freeWrites_eq, localNames, h.nonlocals, h.nestedWrites, h.assigned,
    Stmt.bodyFootprint]

/-- A definition, once its body is known to add what the tree says. -/
theorem function_adds_of_body (f : Function) (u : Usage)
    (hbody : Adds [] (Stmt.bodyFootprint f.body) {} (Usage.stmts f.body {})) :
    Adds [] (Stmt.footprint (.functionDef f)) u (Usage.function f u) := by
  have hc := hbody.close f.name f.formals
  have hwalk := (((exprs_adds [] f.decorators u).trans (defaults_adds [] f.params _)).trans
    (bind_adds f.name _)).trans
      (absorb_adds _ [] ((Usage.stmts f.body {}).close f.name f.formals) f.formals)
  have heq : Usage.function f u =
      ((Usage.defaults [] f.params (Usage.exprs [] f.decorators u)).bind f.name).absorb []
        ((Usage.stmts f.body {}).close f.name f.formals) f.formals := by
    cases f
    rfl
  rw [heq]
  refine hwalk.congr ⟨fun k n => ?_, fun n => ?_, fun n => ?_, fun n => ?_, fun n => ?_⟩
  · simp [Footprint.add, Stmt.footprint, Stmt.mentions, Function.mentions_eq, hc.names,
      hc.mem_hides, hc.mem_writesOut, Stmt.bodyFootprint]
  · simp [Footprint.add, Stmt.footprint, Stmt.gather, Stmt.bindsHere]
  · simp [Footprint.add, Stmt.footprint, Stmt.gather, Stmt.nonlocalsHere]
  · simp [Footprint.add, Stmt.footprint, Stmt.gather, Stmt.globalsHere]
  · simp [Footprint.add, Stmt.footprint, Stmt.innerWrites, hc.mem_writesOut]

/-- An augmented assignment reads the plain name that it writes. -/
theorem augRead_adds (t : Target) (u : Usage) :
    Adds [] { mentions := fun k => Mention.only .read k t.plainName } u
      (match t with
        | .name n => u.read [] n
        | _ => u) := by
  split
  · exact read_adds [] _ u
  · rename_i hne
    have hplain : t.plainName = ∅ := by
      cases t <;> simp [Target.plainName] at hne ⊢
    refine (Adds.nothing [] u).congr ⟨?_, ?_, ?_, ?_, ?_⟩ <;> simp [hplain]

section Statements

attribute [local simp] Footprint.add Stmt.footprint Stmt.bodyFootprint Handler.footprint
  Stmt.mentions Stmt.allMentions Handler.allMentions Stmt.innerWrites Stmt.allInnerWrites
  Handler.allInnerWrites Stmt.gather Stmt.gatherAll Handler.gatherAll Stmt.bindsHere
  Stmt.nonlocalsHere Stmt.globalsHere Stmt.bindings Stmt.nonlocals Stmt.globals

mutual

theorem stmt_adds : ∀ (s : Stmt) (u : Usage), Adds [] s.footprint u (Usage.stmt s u)
  | .assign t v _, u => by
    refine ((expr_adds [] v u).trans (store_adds t _)).congr ⟨?_, ?_, ?_, ?_, ?_⟩ <;> simp
  | .augAssign t _ v, u => by
    refine (((augRead_adds t u).trans (expr_adds [] v _)).trans (store_adds t _)).congr
      ⟨?_, ?_, ?_, ?_, ?_⟩ <;> simp
  | .expr e, u => by
    refine (expr_adds [] e u).congr ⟨?_, ?_, ?_, ?_, ?_⟩ <;> simp
  | .ret v, u => by
    refine (optional_adds v u).congr ⟨?_, ?_, ?_, ?_, ?_⟩ <;> simp
  | .ifElse t b e, u => by
    refine (((expr_adds [] t u).trans (stmts_adds b _)).trans (stmts_adds e _)).congr
      ⟨?_, ?_, ?_, ?_, ?_⟩ <;> simp
  | .whileLoop t b, u => by
    refine ((expr_adds [] t u).trans (stmts_adds b _)).congr ⟨?_, ?_, ?_, ?_, ?_⟩ <;> simp
  | .forLoop t i b, u => by
    refine (((expr_adds [] i u).trans (store_adds t _)).trans (stmts_adds b _)).congr
      ⟨?_, ?_, ?_, ?_, ?_⟩ <;> simp
  | .breakLoop, u => by
    refine (Adds.nothing [] u).congr ⟨?_, ?_, ?_, ?_, ?_⟩ <;> simp
  | .continueLoop, u => by
    refine (Adds.nothing [] u).congr ⟨?_, ?_, ?_, ?_, ?_⟩ <;> simp
  | .pass, u => by
    refine (Adds.nothing [] u).congr ⟨?_, ?_, ?_, ?_, ?_⟩ <;> simp
  | .raise e, u => by
    refine (optional_adds e u).congr ⟨?_, ?_, ?_, ?_, ?_⟩ <;> simp
  | .assert t m, u => by
    refine ((expr_adds [] t u).trans (optional_adds m _)).congr ⟨?_, ?_, ?_, ?_, ?_⟩ <;> simp
  | .tryExcept b hs e f, u => by
    refine ((((stmts_adds b u).trans (handlers_adds hs _)).trans (stmts_adds e _)).trans
      (stmts_adds f _)).congr ⟨?_, ?_, ?_, ?_, ?_⟩ <;> simp
    omega
  | .withItems ws b, u => by
    refine ((withItems_adds ws u).trans (stmts_adds b _)).congr ⟨?_, ?_, ?_, ?_, ?_⟩ <;> simp
  | .functionDef f, u => by
    obtain ⟨name, params, vararg, kwarg, declaredResult, body, decorators, span⟩ := f
    exact function_adds_of_body _ u (stmts_adds body {})
  | .nonlocal ns, u => by
    refine (nonlocal_adds ns u).congr ⟨?_, ?_, ?_, ?_, ?_⟩ <;> simp
  | .global ns, u => by
    refine (global_adds ns u).congr ⟨?_, ?_, ?_, ?_, ?_⟩ <;> simp
  | .delete ts, u => by
    refine (stores_adds ts u).congr ⟨?_, ?_, ?_, ?_, ?_⟩ <;> simp

theorem stmts_adds : ∀ (ss : List Stmt) (u : Usage),
    Adds [] (Stmt.bodyFootprint ss) u (Usage.stmts ss u)
  | [], u => by
    refine (Adds.nothing [] u).congr ⟨?_, ?_, ?_, ?_, ?_⟩ <;> simp
  | s :: ss, u => by
    refine ((stmt_adds s u).trans (stmts_adds ss _)).congr ⟨?_, ?_, ?_, ?_, ?_⟩ <;> simp

theorem handlers_adds : ∀ (hs : List Handler) (u : Usage),
    Adds [] (Handler.footprint hs) u (Usage.handlers hs u)
  | [], u => by
    refine (Adds.nothing [] u).congr ⟨?_, ?_, ?_, ?_, ?_⟩ <;> simp
  | ⟨kind, none, body⟩ :: hs, u => by
    refine (((optional_adds kind u).trans (stmts_adds body _)).trans (handlers_adds hs _)).congr
      ⟨?_, ?_, ?_, ?_, ?_⟩ <;> simp
    omega
  | ⟨kind, some n, body⟩ :: hs, u => by
    refine ((((optional_adds kind u).trans (bind_adds n _)).trans (stmts_adds body _)).trans
      (handlers_adds hs _)).congr ⟨?_, ?_, ?_, ?_, ?_⟩ <;> simp [List.count_cons]
    omega

end

end Statements

/-! ## Functions -/

/-- The usage of a function, read off its tree. -/
structure Specifies (f : Function) (u : Usage) : Prop where
  reads : u.reads.toFinset = Stmt.allMentions .read f.body
  assigned : u.assigned.toFinset = localNames f.formals f.body
  counts : ∀ n, u.assignCount n = (Stmt.bindings f.body).count n
  mutated : u.mutated.toFinset = Stmt.allMentions .mutated f.body
  nonlocals : u.nonlocals.toFinset = (Stmt.nonlocals f.body).toFinset
  globals : u.globals.toFinset = (Stmt.globals f.body).toFinset
  nestedWrites : u.nestedWrites.toFinset =
    Stmt.allInnerWrites f.body \ (localNames f.formals f.body ∪ f.formals.toFinset)
  calls : u.calls.toFinset = Stmt.allMentions .called f.body
  selfRecursive : u.selfRecursive = true ↔
    f.name ∈ Stmt.allMentions .called f.body ∧ f.name ∉ ownNames f.formals f.body

/-- The usage of a whole body; the name of the function plays no part. -/
theorem ofBody_closed (ownName : String) (formals : List String) (body : List Stmt) :
    Closed (Stmt.bodyFootprint body) formals (ofBody ownName formals body) :=
  (stmts_adds body {}).close ownName formals

theorem ofFunction_selfRecursive (f : Function) :
    (ofFunction f).selfRecursive = true ↔
      f.name ∈ (ofFunction f).calls ∧ f.name ∉ (ofFunction f).hides f.formals := by
  simp [ofFunction, ofBody, close, hides]
  tauto

/-- **The analysis meets its specification.** The walk over a body, with its state and its
hidden names, gathers for every function exactly what the tree of the function defines. -/
theorem ofFunction_specifies (f : Function) : Specifies f (ofFunction f) := by
  have hc : Closed (Stmt.bodyFootprint f.body) f.formals (ofFunction f) := ofBody_closed ..
  refine ⟨?_, ?_, hc.counts, ?_, ?_, ?_, ?_, ?_, ?_⟩
  · ext n
    rw [List.mem_toFinset]
    exact hc.names .read n
  · ext n
    simp [hc.assigned, localNames, Stmt.bodyFootprint]
  · ext n
    rw [List.mem_toFinset]
    exact hc.names .mutated n
  · ext n
    simp [hc.nonlocals, Stmt.bodyFootprint]
  · ext n
    simp [hc.globals, Stmt.bodyFootprint]
  · ext n
    simp [hc.nestedWrites, hc.assigned, localNames, Stmt.bodyFootprint]
  · ext n
    rw [List.mem_toFinset]
    exact hc.names .called n
  · rw [ofFunction_selfRecursive, hc.mem_hides]
    exact and_congr_left' (hc.names .called f.name)

end Usage

end ClosureConversion
