import ClosureConversion.Proofs.Conversion.Fallibility
import ClosureConversion.Proofs.Emit.Composed
import ClosureConversion.Proofs.Scope.Fresh
import Mathlib.Data.List.Perm.Basic

/-! # Names at container level -/

set_option autoImplicit false

namespace ClosureConversion

/-! ## Names of closures and their declarations -/

/-- Names of the declarations apart from the wrapper. -/
def Closure.Layout.names : Closure.Layout → List String
  | .routine implementation => [implementation]
  | .environment env implementation => [env, implementation]
  | .aggregate => []

/-- All names that the closure has at container level. -/
def ClosureSummary.names (s : ClosureSummary) : List String := s.wrapper :: s.layout.names

/-- The text declares the closure under its names. -/
def ClosureSummary.Declares (s : ClosureSummary) (text : String) : Prop :=
  ∃ captures parts result,
    text = (Closure.declarations s.wrapper s.layout captures parts result).text ++ "\n"

/-- The closures that were made between two contexts, with the texts that declare them and in the
order of these texts. -/
structure Context.Makes (c c' : Context) (made : List (ClosureSummary × String)) : Prop where
  closures : c'.closures.Perm (c.closures ++ made.map Prod.fst)
  declarations : c'.declarations = c.declarations ++ String.join (made.map Prod.snd)
  declares : ∀ p ∈ made, p.1.Declares p.2
  claimed : c.scope.Claimed c'.scope (made.flatMap (·.1.names))

namespace Context

variable {c c₁ c₂ : Context} {made more : List (ClosureSummary × String)}

theorem makes_nil (hclosures : c₁.closures = c.closures)
    (hdeclarations : c₁.declarations = c.declarations)
    (hidents : c.scope.base.idents ⊆ c₁.scope.base.idents) : c.Makes c₁ [] := by
  refine ⟨?_, ?_, fun p hp => absurd hp List.not_mem_nil, .nil hidents⟩
  · rw [hclosures, List.map_nil, List.append_nil]
  · rw [hdeclarations, List.map_nil, String.join_nil, String.append_empty]

/-- One computation after the other. -/
theorem Makes.trans (h : c.Makes c₁ made) (h' : c₁.Makes c₂ more) : c.Makes c₂ (made ++ more) := by
  refine ⟨?_, ?_, fun p hp => ?_, ?_⟩
  · rw [List.map_append, ← List.append_assoc]
    exact h'.closures.trans (h.closures.append_right _)
  · rw [h'.declarations, h.declarations, List.map_append, String.join_append, String.append_assoc]
  · rcases List.mem_append.mp hp with hfirst | hlater
    · exact h.declares p hfirst
    · exact h'.declares p hlater
  · rw [List.flatMap_append]
    exact h.claimed.append h'.claimed

end Context

namespace Emit

variable {α β : Type} {w : Settings} {c c' : Context}

/-! ## Names of one closure -/

theorem claimModuleIdent_claimed {base n : String} (h : claimModuleIdent base w c = (.ok n, c')) :
    c.scope.Claimed c'.scope [n] := by
  cases h
  exact Scope.claimed_claimModuleIdent c.scope base

theorem Annotates.grows {x : Emit α} {a : α} (hx : Annotates x) (h : x w c = (.ok a, c')) :
    c.scope.Claimed c'.scope [] := by
  have hbalanced := (hx.balanced w c).1
  rw [h] at hbalanced
  exact .nil hbalanced.scope.idents

theorem claimNames_claimed {name wrapper : String} {shape : Shape} {layout : Closure.Layout}
    (h : claimNames name shape w c = (.ok (wrapper, layout), c')) :
    c.scope.Claimed c'.scope (wrapper :: layout.names) := by
  obtain ⟨o, c₁, hoptions, h⟩ := bind_eq_ok h
  cases hoptions
  obtain ⟨n, c₂, hwrapper, h⟩ := bind_eq_ok h
  have hfirst := claimModuleIdent_claimed hwrapper
  cases shape with
  | structCapture =>
    obtain ⟨env, c₃, henv, h⟩ := bind_eq_ok h
    obtain ⟨implementation, c₄, himpl, h⟩ := bind_eq_ok h
    cases h
    exact (hfirst.append (claimModuleIdent_claimed henv)).append (claimModuleIdent_claimed himpl)
  | zeroCapture =>
    obtain ⟨implementation, c₃, himpl, h⟩ := bind_eq_ok h
    cases h
    exact hfirst.append (claimModuleIdent_claimed himpl)
  | recursiveSelfCapture =>
    cases h
    exact hfirst

/-- The names of a draft are claimed while it is prepared. -/
theorem prepare_claimed {f : Function} {d : Draft} {ident : String}
    (h : prepare f w c = (.ok (d, ident), c')) :
    c.scope.Claimed c'.scope (d.wrapper :: d.layout.names) := by
  obtain ⟨qualname, c₁, hqualify, h⟩ := bind_eq_ok h
  obtain ⟨_, c₂, htell, h⟩ := bind_eq_ok h
  obtain ⟨cs, c₃, hcaptures, h⟩ := bind_eq_ok h
  obtain ⟨_, c₄, htell', h⟩ := bind_eq_ok h
  obtain ⟨⟨wrapper, layout⟩, c₅, hnames, h⟩ := bind_eq_ok h
  obtain ⟨ident, c₆, hident, h⟩ := bind_eq_ok h
  obtain ⟨types, c₇, htypes, h⟩ := bind_eq_ok h
  obtain ⟨result, c₈, hresult, h⟩ := bind_eq_ok h
  have hbefore : c.scope.Claimed c₄.scope [] :=
    (((qualify_edits _).grows hqualify).append ((tell_edits _).grows htell)).append
      (((captures_edits _ _ _).grows hcaptures).append ((tell_edits _).grows htell'))
  have hafter : c₅.scope.Claimed c₈.scope [] := by
    refine ((claimIdent_edits _).grows hident).append ?_
    refine ((formalTypes_edits _ _).grows htypes).append ?_
    exact Annotates.grows (oracle_edits.toAnnotates.bind fun _ => .pure _) hresult
  have hall := (hbefore.append (claimNames_claimed hnames)).append hafter
  cases h
  rwa [List.nil_append, List.append_nil] at hall

/-! ## Everything that is made -/

/-- A computation that succeeds makes closures, declares them and claims their names. -/
def Makes (x : Emit α) : Prop := ∀ w c a c', x w c = (.ok a, c') → ∃ made, c.Makes c' made

theorem Annotates.makes {x : Emit α} (h : Annotates x) : Makes x := by
  intro w c a c' heq
  exact ⟨[], Context.makes_nil (h.closures heq) (h.declarations heq) (h.grows heq).grows⟩

/-- The text of a closure's declarations is added to the others. -/
theorem declareClosure_eq_ok {d : Draft} {parts : Closure.Parts} {signature : Signature}
    (h : declareClosure d parts w c = (.ok signature, c')) :
    ∃ text, (d.summary parts.fallible).Declares text ∧ c'.closures = c.closures ∧
      c'.declarations = c.declarations ++ text ∧ c.scope.Claimed c'.scope [] := by
  obtain ⟨result, c₁, hresult, h⟩ := bind_eq_ok h
  have hedits := returnText_edits (d.declaredReturn.or parts.returnType) parts.fallible d.qualname
    d.function
  have hclosures := hedits.closures hresult
  have hdeclarations := hedits.declarations hresult
  have hgrows := hedits.grows hresult
  refine ⟨_, ⟨d.representation.captures, parts, result, rfl⟩, ?_, ?_, ?_⟩
  · cases h
    exact hclosures
  · cases h
    rw [← hdeclarations, ← String.append_assoc]
    rfl
  · cases h
    exact hgrows

/-- **Making a closure.** Its own names are claimed before its body is written, so they differ from
those of the closures inside it, and from those that its decorators make. -/
theorem synthesize_makes {f : Function} {body : Buffer → Emit Buffer}
    {decorators : List (Emit String)} {discardUnused : Bool} {out : Buffer}
    (hparts : ∀ d, Makes (isolated (settledParts d body)))
    (hbind : ∀ d ident signature,
      Makes (bindInstance d ident signature decorators discardUnused out)) :
    Makes (synthesize f body decorators discardUnused out) := by
  intro w c built c' h
  obtain ⟨⟨d, ident⟩, c₁, hprepare, h⟩ := bind_eq_ok h
  obtain ⟨⟨parts, left⟩, c₂, hwritten, h⟩ := bind_eq_ok h
  obtain ⟨signature, c₃, hdeclare, h⟩ := bind_eq_ok h
  obtain ⟨out', c₄, hinstance, h⟩ := bind_eq_ok h
  have hnames := prepare_claimed hprepare
  obtain ⟨inside, hinside⟩ := hparts d w c₁ _ c₂ hwritten
  obtain ⟨text, htext, hclosures, hdeclarations, hgrows⟩ := declareClosure_eq_ok hdeclare
  obtain ⟨beside, hbeside⟩ := hbind d ident signature w c₃ _ c₄ hinstance
  have hbefore : c₁.closures = c.closures ∧ c₁.declarations = c.declarations :=
    ⟨(prepare_edits f).closures hprepare, (prepare_edits f).declarations hprepare⟩
  let own : ClosureSummary := d.summary parts.fallible
  refine ⟨inside ++ (own, text) :: beside, ?_, ?_, fun p hp => ?_, ?_⟩
  · have hlisted : c'.closures = c₄.closures ++ [own] := by
      cases h
      rfl
    have hmade : c₄.closures.Perm (c.closures ++ inside.map Prod.fst ++ beside.map Prod.fst) := by
      refine hbeside.closures.trans (List.Perm.append_right _ ?_)
      rw [hclosures, ← hbefore.1]
      exact hinside.closures
    rw [hlisted, List.map_append, List.map_cons, ← List.append_assoc]
    exact (hmade.append_right [own]).trans (by
      rw [List.append_assoc]
      exact List.Perm.append_left _ (List.perm_append_comm))
  · have hwrote : c'.declarations = c₄.declarations := by
      cases h
      rfl
    rw [hwrote, hbeside.declarations, hdeclarations, hinside.declarations, hbefore.2,
      List.map_append, List.map_cons, String.join_append, String.join_cons]
    simp only [String.append_assoc]
  · rcases List.mem_append.mp hp with hinner | hrest
    · exact hinside.declares p hinner
    · rcases List.mem_cons.mp hrest with rfl | hlater
      · exact htext
      · exact hbeside.declares p hlater
  · have hscope : c'.scope = c₄.scope := by
      cases h
      rfl
    have hall := (hnames.append hinside.claimed).append (hgrows.append hbeside.claimed)
    rw [hscope]
    refine hall.perm ?_
    rw [List.flatMap_append, List.flatMap_cons, List.nil_append, ← List.append_assoc]
    exact List.Perm.append_right _ List.perm_append_comm

/-- **What a composed computation makes when it succeeds.** -/
theorem Composed.makes {k : Latitude} {x : Emit α} (h : Composed k x) : Makes x := by
  induction h with
  | annotates h => exact h.makes
  | returning | jumping | pushPrelude =>
    intro w c a c' heq
    cases heq
    exact ⟨[], Context.makes_nil rfl rfl (List.Subset.refl _)⟩
  | flushPrelude out =>
    intro w c a c' heq
    unfold Emit.flushPrelude at heq
    split at heq <;> cases heq <;> exact ⟨[], Context.makes_nil rfl rfl (List.Subset.refl _)⟩
  | bind _ _ hx hf =>
    intro w c b c' heq
    obtain ⟨a, c₁, hfirst, hsecond⟩ := bind_eq_ok heq
    obtain ⟨made, hmade⟩ := hx w c a c₁ hfirst
    obtain ⟨more, hmore⟩ := hf a w c₁ b c' hsecond
    exact ⟨made ++ more, hmade.trans hmore⟩
  | @inFrame _ _ kind _ _ hx =>
    intro w c a c' heq
    obtain ⟨c₁, left, hinside, hpop, rfl⟩ := inFrame_eq_ok heq
    obtain ⟨made, hmade⟩ := hx w _ a c₁ hinside
    have hentered : c.scope.Claimed (c.scope.push kind) [] := .nil (List.Subset.refl _)
    have hclaimed := (hentered.append hmade.claimed).append (.nil (Scope.idents_of_pop hpop))
    rw [List.nil_append, List.append_nil] at hclaimed
    exact ⟨made, hmade.closures, hmade.declarations, hmade.declares, hclaimed⟩
  | isolated _ hx =>
    intro w c ⟨a, text⟩ c' heq
    obtain ⟨c₁, hinside, -, rfl⟩ := isolated_eq_ok heq
    obtain ⟨made, hmade⟩ := hx w _ a c₁ hinside
    exact ⟨made, hmade.closures, hmade.declarations, hmade.declares, hmade.claimed⟩
  | inFunction _ hx =>
    intro w c ⟨a, ended⟩ c' heq
    obtain ⟨c₁, hinside, -, rfl⟩ := inFunction_eq_ok heq
    obtain ⟨made, hmade⟩ := hx w _ a c₁ hinside
    exact ⟨made, hmade.closures, hmade.declarations, hmade.declares, hmade.claimed⟩
  | catching _ hx =>
    intro w c a c' heq
    obtain ⟨c₁, hinside, rfl⟩ := catching_eq_ok heq
    obtain ⟨made, hmade⟩ := hx w _ a c₁ hinside
    exact ⟨made, hmade.closures, hmade.declarations, hmade.declares, hmade.claimed⟩
  | handling _ hx =>
    intro w c a c' heq
    obtain ⟨c₁, hinside, rfl⟩ := handling_eq_ok heq
    obtain ⟨made, hmade⟩ := hx w _ a c₁ hinside
    exact ⟨made, hmade.closures, hmade.declarations, hmade.declares, hmade.claimed⟩
  | looping _ hx =>
    intro w c a c' heq
    obtain ⟨c₁, hinside, rfl⟩ := looping_eq_ok heq
    obtain ⟨made, hmade⟩ := hx w _ a c₁ hinside
    exact ⟨made, hmade.closures, hmade.declarations, hmade.declares, hmade.claimed⟩
  | settledParts hparts h =>
    intro w c parts c' heq
    rcases settledParts_cases _ _ w c with hcase | ⟨first, c₁, hfirst, hcase⟩
    · rw [hcase] at heq
      exact h none w c parts c' heq
    · rw [hcase] at heq
      obtain ⟨made, hmade⟩ := h (some true) w _ parts c' heq
      have hbalanced := ((hparts none).balanced w c).1
      rw [hfirst] at hbalanced
      have hclosures := hmade.closures
      rw [closures_rewound hbalanced] at hclosures
      exact ⟨made, hclosures, hmade.declarations, hmade.declares, hmade.claimed⟩
  | synthesize _ _ hparts hbind => exact synthesize_makes hparts hbind

end Emit

/-! ## The module's own frame -/

/-- The names that a module gives to its functions and globals. -/
def Module.names (m : Module) : List String :=
  m.functions.map Function.name ++ m.globals.map GlobalVar.name

theorem mem_idents_foldl {ι : Type} {f : Scope → ι → Scope} (name : ι → String)
    (hf : ∀ s i, (f s i).base.idents = pushNew s.base.idents (name i)) (items : List ι) {s : Scope}
    {n : String} :
    n ∈ (items.foldl f s).base.idents ↔ n ∈ s.base.idents ∨ n ∈ items.map name := by
  induction items generalizing s with
  | nil => simp
  | cons i rest ih =>
    rw [List.foldl_cons, ih, hf, mem_pushNew, List.map_cons, List.mem_cons, or_assoc]

/-- What is reserved where a function of the module is converted. -/
theorem mem_idents_moduleScope {m : Module} {sigs : Signatures} {claimed : List String}
    {n : String} :
    n ∈ (moduleScope m sigs claimed).base.idents ↔
      (n ∈ m.globals.map GlobalVar.name ∨ n ∈ sigs.keys) ∨ n ∈ claimed := by
  unfold moduleScope
  dsimp only
  rw [mem_idents_foldl id (fun _ _ => rfl), List.map_id,
    mem_idents_foldl Prod.fst (fun _ _ => rfl), mem_idents_foldl GlobalVar.name (fun _ _ => rfl)]
  simp [NameMap.keys]

/-! ## Passes -/

/-- What a converted function adds at container level is the declarations of its closures. -/
def ConvertedFunction.DeclaresClosures (f : ConvertedFunction) : Prop :=
  ∃ made : List (ClosureSummary × String), f.closures.Perm (made.map Prod.fst) ∧
    f.declarations = String.join (made.map Prod.snd) ∧ ∀ p ∈ made, p.1.Declares p.2

/-- The names at container level of all closures in a pass. -/
def Pass.names (p : Pass) : List String :=
  (p.functions.flatMap (·.closures)).flatMap ClosureSummary.names

/-- The names in a pass differ from each other and from those of the module, and the functions to
come know them as claimed. -/
structure Pass.Distinct (m : Module) (p : Pass) : Prop where
  declares : ∀ f ∈ p.functions, f.DeclaresClosures
  nodup : p.names.Nodup
  claimed : p.names ⊆ p.claimed
  apart : ∀ n ∈ p.names, n ∉ m.names

/-- **One more function.** -/
theorem Pass.step_distinct {m : Module} {sigs : Signatures} {w : Settings} {p : Pass}
    (f : Function) (hsigs : ∀ g ∈ m.functions, g.name ∈ sigs.keys) (hp : p.Distinct m) :
    (Pass.step m sigs w p f).Distinct m := by
  unfold Pass.step
  dsimp only
  split
  · rename_i g c htop
    obtain ⟨made, hmade⟩ := (Emit.topLevel_composed f (sigs.get? f.name)).makes w _ g c htop
    have hlisted : c.closures.Perm (made.map Prod.fst) := hmade.closures
    have hnew : (moduleScope m sigs p.claimed).Claimed c.scope
        (c.closures.flatMap ClosureSummary.names) := by
      refine hmade.claimed.perm ?_
      have hnames := hlisted.flatMap_right ClosureSummary.names
      rw [List.flatMap_map] at hnames
      exact hnames.symm
    have hnames : Pass.names { p with functions := p.functions ++
          [{ g with declarations := c.declarations, closures := c.closures }] } =
        p.names ++ c.closures.flatMap ClosureSummary.names := by
      simp [Pass.names]
    have hbefore : p.claimed ⊆ (moduleScope m sigs p.claimed).base.idents :=
      fun n hn => mem_idents_moduleScope.mpr (.inr hn)
    refine ⟨fun f' hf' => ?_, ?_, fun n hn => ?_, fun n hn => ?_⟩
    · rcases List.mem_append.mp hf' with hold | hlast
      · exact hp.declares f' hold
      · obtain rfl := List.mem_singleton.mp hlast
        refine ⟨made, hlisted, ?_, hmade.declares⟩
        have htext := hmade.declarations
        rwa [String.empty_append] at htext
    · refine hnames ▸ List.nodup_append.mpr ⟨hp.nodup, hnew.nodup, fun a ha b hb heq => ?_⟩
      exact hnew.fresh b hb (heq ▸ hbefore (hp.claimed ha))
    · rcases List.mem_append.mp (hnames ▸ hn) with hold | hfresh
      · exact hnew.grows (hbefore (hp.claimed hold))
      · exact hnew.reserved n hfresh
    · rcases List.mem_append.mp (hnames ▸ hn) with hold | hfresh
      · exact hp.apart n hold
      · intro hmodule
        refine hnew.fresh n hfresh (mem_idents_moduleScope.mpr (.inl ?_))
        rcases List.mem_append.mp hmodule with hfunction | hglobal
        · obtain ⟨g', hg', rfl⟩ := List.mem_map.mp hfunction
          exact .inr (hsigs g' hg')
        · exact .inl hglobal
  · exact ⟨hp.declares, hp.nodup, hp.claimed, hp.apart⟩

theorem Pass.foldl_distinct {m : Module} {sigs : Signatures} {w : Settings} {p : Pass}
    (fs : List Function) (hsigs : ∀ g ∈ m.functions, g.name ∈ sigs.keys) (hp : p.Distinct m) :
    (fs.foldl (Pass.step m sigs w) p).Distinct m := by
  induction fs generalizing p with
  | nil => exact hp
  | cons f rest ih => exact ih (Pass.step_distinct f hsigs hp)

/-- Every round knows all functions of the module, so its pass keeps clear of their names. -/
theorem Round.pass_distinct (m : Module) (w : Settings) (n : Nat) :
    ((m.round w n).pass m w).Distinct m := by
  have hsigs : ∀ g ∈ m.functions, g.name ∈ (m.round w n).signatures.keys := by
    intro g hg
    rw [keys_round, NameMap.mem_keys_iff]
    exact initialSignatures_isSome hg
  refine Pass.foldl_distinct m.functions hsigs ⟨fun f hf => ?_, .nil, List.nil_subset _, ?_⟩
  · exact absurd hf List.not_mem_nil
  · exact fun n hn => absurd hn List.not_mem_nil

theorem wrappers_sublist_names (closures : List ClosureSummary) :
    (closures.map ClosureSummary.wrapper).Sublist (closures.flatMap ClosureSummary.names) := by
  induction closures with
  | nil => exact .slnil
  | cons s rest ih => exact (List.sublist_append_of_sublist_right ih).cons_cons _

/-- **Names at container level are free of collisions**, whatever the suffixes are. What every
converted function adds at container level is the declarations of its closures, each under the
names of its wrapper, its environment and its routine. All these names, of all closures of all
functions, are different, and none is the name of a function or a global of the module. -/
theorem container_names_distinct (m : Module) (oracle : Oracle) (options : Options) :
    let result := convert m oracle options
    let names := result.closures.flatMap ClosureSummary.names
    (∀ f ∈ result.functions, f.DeclaresClosures) ∧ names.Nodup ∧
      (∀ n ∈ names, (∀ f ∈ m.functions, n ≠ f.name) ∧ ∀ g ∈ m.globals, n ≠ g.name) ∧
      (result.closures.map ClosureSummary.wrapper).Nodup := by
  rw [convert, convertWithJournal_eq]
  obtain ⟨hdeclares, hnodup, -, hapart⟩ :=
    Round.pass_distinct m ⟨oracle, options⟩ (m.lastRound ⟨oracle, options⟩)
  refine ⟨hdeclares, hnodup, fun n hn => ⟨fun f hf heq => ?_, fun g hg heq => ?_⟩, ?_⟩
  · exact hapart n hn (List.mem_append_left _ (List.mem_map.mpr ⟨f, hf, heq.symm⟩))
  · exact hapart n hn (List.mem_append_right _ (List.mem_map.mpr ⟨g, hg, heq.symm⟩))
  · exact hnodup.sublist (wrappers_sublist_names _)

end ClosureConversion
