import ClosureConversion.Proofs.Scope.Operations

/-! # Scopes in which a body can be planned -/

set_option autoImplicit false

namespace ClosureConversion

/-- Whether stores to it are accepted is up to the plan of the body. -/
def SlotForm.asksPlan : SlotForm → Bool
  | .declared _ | .formal _ => true
  | _ => false

/-! ## Layers -/

namespace Layer

/-- Names are spelled as their slots say. -/
def Spelled (l : Layer) : Prop := ∀ n, l.ident? n = (l.slot? n).map Slot.ident

theorem spelled_new (kind : FrameKind) : (new kind).Spelled := fun _ => rfl

theorem Spelled.bind {l : Layer} (h : l.Spelled) (name : String) (slot : Slot) :
    (l.bind name slot).Spelled := by
  intro n
  show (if name = n then _ else _) = (if name = n then _ else _ : Option Slot).map Slot.ident
  split
  · rfl
  · exact h n

/-- The binding that a name has in the innermost function is the one its spelling is of. -/
theorem findSome?_ident {layers : List Layer} {n : String} {slot : Slot}
    (h : ∀ l ∈ inner layers, l.Spelled)
    (hslot : (inner layers).findSome? (·.slot? n) = some slot) :
    layers.findSome? (·.ident? n) = some slot.ident := by
  induction layers with
  | nil => cases hslot
  | cons l rest ih =>
    have hhead : l.Spelled := h l (head_mem_inner l rest)
    rw [inner] at h hslot
    rw [List.findSome?_cons, hhead n]
    cases hl : l.slot? n with
    | some slot' =>
      obtain rfl : slot' = slot := by
        split at hslot <;> simpa [hl] using hslot
      rfl
    | none =>
      split at h
      · rename_i hfun
        simp [hfun, hl] at hslot
      · rename_i hblock
        rw [if_neg hblock, List.findSome?_cons, hl] at hslot
        exact ih (fun k hk => h k (List.mem_cons_of_mem l hk)) hslot

/-- Bind a name in the layer of the innermost function. -/
def hoist (name : String) (slot : Slot) : List Layer → List Layer
  | [] => []
  | l :: rest => if l.isFunction then l.bind name slot :: rest else l :: hoist name slot rest

theorem mem_inner_hoist {name : String} {slot : Slot} {layers : List Layer} {l : Layer}
    (h : l ∈ inner (hoist name slot layers)) :
    l ∈ inner layers ∨ ∃ m ∈ inner layers, m.bind name slot = l := by
  induction layers with
  | nil => cases h
  | cons a rest ih =>
    rw [inner]
    rw [hoist] at h
    split at h
    · rename_i hfun
      rw [inner, if_pos (show (a.bind name slot).isFunction = true from hfun),
        List.mem_singleton] at h
      rw [if_pos hfun]
      exact .inr ⟨a, List.mem_singleton.mpr rfl, h.symm⟩
    · rename_i hblock
      rw [inner, if_neg hblock, List.mem_cons] at h
      rw [if_neg hblock]
      rcases h with rfl | hmem
      · exact .inl List.mem_cons_self
      · rcases ih hmem with hold | ⟨m, hm, heq⟩
        · exact .inl (List.mem_cons_of_mem a hold)
        · exact .inr ⟨m, List.mem_cons_of_mem a hm, heq⟩

/-- The frame and the renames of the innermost function are changed together. -/
theorem all_modify_function {frames : List Frame} {i : Nat} {name : String} {ident : String}
    {b : Binding} (hident : b.slot.ident = ident)
    (h : frames.findIdx? Frame.isFunction = some i) (base : Frame)
    {renames : List (NameMap String)} (hlength : renames.length = (frames ++ [base]).length) :
    all (frames.modify i (Frame.bind name ident b) ++ [base])
        (renames.modify i (·.insert name ident)) =
      hoist name b.slot (all (frames ++ [base]) renames) := by
  induction frames generalizing i renames with
  | nil => cases h
  | cons f rest ih =>
    match renames, hlength with
    | r :: rs, hlength =>
      have hlayers : all (f :: rest ++ [base]) (r :: rs) = ofFrame f r :: all (rest ++ [base]) rs :=
        rfl
      rw [List.findIdx?_cons] at h
      rw [hlayers, hoist]
      split at h
      · rename_i hfun
        obtain rfl := Option.some.inj h
        rw [if_pos (show (ofFrame f r).isFunction = true from hfun)]
        exact congrArg (· :: _) (Scope.ofFrame_bind f r name hident)
      · rename_i hblock
        obtain ⟨j, hj, rfl⟩ := Option.map_eq_some_iff.mp h
        rw [if_neg (show ¬ (ofFrame f r).isFunction = true from hblock)]
        exact congrArg (ofFrame f r :: ·) (ih hj (Nat.succ.inj hlength))

end Layer

/-! ## Frames of the innermost function -/

/-- No field of an environment is bound as a variable or a formal. -/
def Frame.Sorted (f : Frame) : Prop :=
  ∀ n b, f.get? n = some b → b.slot.form.asksPlan = true → b.kind ≠ .captured

theorem Frame.Sorted.bind {f : Frame} (h : f.Sorted) (name ident : String) {b : Binding}
    (hb : b.kind ≠ .captured) : (f.bind name ident b).Sorted := by
  intro n b' hb'
  change (f.bindings.insert name b).get? n = some b' at hb'
  rw [NameMap.get?_insert] at hb'
  split at hb'
  · obtain rfl := Option.some.inj hb'
    exact fun _ => hb
  · exact h n b' hb'

theorem Frame.Sorted.adjusts {f g : Frame} (h : f.Sorted) (hfg : f.Adjusts true g) : g.Sorted := by
  intro n b hb hasks
  have houtline := hfg.outline n
  rw [hb] at houtline
  obtain ⟨b', hb', hsame⟩ := Option.map_eq_some_iff.mp houtline.symm
  have hslot := congrArg Binding.slot hsame
  have hkind := congrArg Binding.kind hsame
  change b'.slot = b.slot at hslot
  change b'.kind = b.kind at hkind
  rw [← hkind]
  exact h n b' hb' (hslot ▸ hasks)

namespace Scope

variable {s t : Scope}

/-- A hoisted name is bound in the innermost function, and blocks inside it do not show it. -/
theorem layers_declareInFunction (h : s.Leveled) (hfun : s.frames.any Frame.isFunction = true)
    (name : String) {ident : String} {b : Binding} (hident : b.slot.ident = ident) :
    (s.declareInFunction name ident b).Leveled ∧
      (s.declareInFunction name ident b).layers = Layer.hoist name b.slot s.layers := by
  obtain ⟨i, hfind⟩ : ∃ i, s.frames.findIdx? Frame.isFunction = some i := by
    rw [← Option.isSome_iff_exists, List.findIdx?_isSome]
    exact hfun
  obtain ⟨-, ⟨b', hframes⟩, hrenames⟩ := binds_declareInFunction h name ident b
  obtain ⟨hlt, hany, hstart⟩ := findIdx?_isFunction hfind
  have hplace : s.depth - 1 - s.hoistIndex = i := by
    unfold hoistIndex depth
    rw [hany, if_pos rfl, hstart]
    omega
  rw [hplace] at hrenames
  have hall : (s.declareInFunction name ident b).allFrames =
      s.frames.modify i (Frame.bind name ident b) ++ [s.base] := by
    show (s.onFunction (Frame.bind name ident b)).allFrames = _
    unfold onFunction
    rw [hfind]
    rfl
  refine ⟨?_, ?_⟩
  · unfold Leveled
    rw [hframes, hrenames, List.length_modify, List.length_modify]
    exact h
  · rw [layers, hall, hrenames]
    exact Layer.all_modify_function hident hfind s.base h

theorem any_isFunction_modify {change : Frame → Frame} (hchange : ∀ f, (change f).kind = f.kind)
    (frames : List Frame) (i : Nat) :
    (frames.modify i change).any Frame.isFunction = frames.any Frame.isFunction := by
  induction frames generalizing i with
  | nil => rw [List.modify_nil]
  | cons f rest ih =>
    cases i with
    | zero =>
      rw [List.modify_zero_cons, List.any_cons, List.any_cons]
      unfold Frame.isFunction
      rw [hchange]
    | succ i => rw [List.modify_succ_cons, List.any_cons, List.any_cons, ih]

theorem mem_innerFrames_modify {change : Frame → Frame} (hchange : ∀ f, (change f).kind = f.kind)
    {frames : List Frame} {i : Nat} {f : Frame} (h : f ∈ innerFrames (frames.modify i change)) :
    f ∈ innerFrames frames ∨ ∃ g ∈ innerFrames frames, change g = f := by
  have hfunction (g : Frame) : (change g).isFunction = g.isFunction := by
    unfold Frame.isFunction
    rw [hchange]
  induction frames generalizing i with
  | nil =>
    rw [List.modify_nil] at h
    exact .inl h
  | cons g rest ih =>
    rw [innerFrames]
    cases i with
    | zero =>
      rw [List.modify_zero_cons, innerFrames, hfunction] at h
      split at h
      · rename_i hfun
        rw [if_pos hfun]
        exact .inr ⟨g, List.mem_singleton.mpr rfl, (List.mem_singleton.mp h).symm⟩
      · rename_i hblock
        rw [if_neg hblock]
        rcases List.mem_cons.mp h with rfl | hmem
        · exact .inr ⟨g, List.mem_cons_self, rfl⟩
        · exact .inl (List.mem_cons_of_mem g hmem)
    | succ i =>
      rw [List.modify_succ_cons, innerFrames] at h
      split at h
      · rename_i hfun
        rw [if_pos hfun]
        exact .inl h
      · rename_i hblock
        rw [if_neg hblock]
        rcases List.mem_cons.mp h with rfl | hmem
        · exact .inl List.mem_cons_self
        · rcases ih hmem with hold | ⟨g', hg', heq⟩
          · exact .inl (List.mem_cons_of_mem g hold)
          · exact .inr ⟨g', List.mem_cons_of_mem g hg', heq⟩

theorem mem_innerFrames_adjusts {kinds : Bool} {fs gs : List Frame}
    (h : List.Forall₂ (Frame.Adjusts kinds) fs gs) {g : Frame} (hg : g ∈ innerFrames gs) :
    ∃ f ∈ innerFrames fs, f.Adjusts kinds g := by
  induction h with
  | nil => cases hg
  | @cons f g' fs gs hhead _ ih =>
    rw [innerFrames, hhead.isFunction] at hg
    rw [innerFrames]
    split at hg
    · rename_i hfun
      rw [if_pos hfun]
      exact ⟨f, List.mem_singleton.mpr rfl, List.mem_singleton.mp hg ▸ hhead⟩
    · rename_i hblock
      rw [if_neg hblock]
      rcases List.mem_cons.mp hg with rfl | hmem
      · exact ⟨f, List.mem_cons_self, hhead⟩
      · obtain ⟨f', hf', hadjusts⟩ := ih hmem
        exact ⟨f', List.mem_cons_of_mem f hf', hadjusts⟩

theorem layers_of_adjusts {kinds : Bool} {fs gs : List Frame}
    (h : List.Forall₂ (Frame.Adjusts kinds) fs gs) (renames : List (NameMap String)) :
    Layer.all gs renames = Layer.all fs renames := by
  induction h generalizing renames with
  | nil => rfl
  | @cons f g fs gs hhead _ ih =>
    match renames with
    | [] => rfl
    | r :: rs =>
      refine congrArg₂ List.cons ?_ (ih rs)
      ext n : 2
      · exact hhead.kind
      · -- what a binding is, apart from its value, includes its slot
        have hslot := congrArg (Option.map Binding.slot) (hhead.outline n)
        rw [Option.map_map, Option.map_map] at hslot
        exact hslot
      · rfl

theorem Adjusts.layers {kinds : Bool} (h : s.Adjusts kinds t) : t.layers = s.layers := by
  rw [Scope.layers, Scope.layers, h.renames]
  exact layers_of_adjusts h.allFrames _

/-- Leaving a frame takes it away and adjusts what is below it. -/
theorem pop_adjusts {f : Frame} {rest : List Frame} {left : Left} (hframes : s.frames = f :: rest)
    (hpop : s.pop = .ok left) :
    ∃ outer : Scope, outer.frames = rest ∧ outer.base = s.base ∧ outer.Adjusts true left.scope := by
  unfold pop at hpop
  rw [hframes] at hpop
  dsimp only at hpop
  refine ⟨{ s with frames := rest, renames := s.renames.pop }, rfl, rfl, ?_⟩
  split at hpop <;> cases hpop
  · exact adjusts_foldl_widen ..
  · exact .refl _

/-- The innermost layer is of the kind of the innermost frame. -/
theorem exists_head_layer (h : s.Leveled) {f : Frame} {rest : List Frame}
    (hframes : s.allFrames = f :: rest) : ∃ l ls, s.layers = l :: ls ∧ l.kind = f.kind := by
  have hkinds := map_kind_layers h
  rw [hframes] at hkinds
  rcases hlayers : s.layers with _ | ⟨l, ls⟩
  · rw [hlayers] at hkinds
    cases hkinds
  · rw [hlayers] at hkinds
    exact ⟨l, ls, rfl, (List.cons.inj hkinds).1⟩

/-! ## Scopes in which a body can be planned -/

/-- The scope is inside a function, which spells its names as their slots say and takes no field of
an environment for a variable. -/
structure Plannable (s : Scope) : Prop where
  leveled : s.Leveled
  function : s.frames.any Frame.isFunction = true
  spelled : ∀ l ∈ Layer.inner s.layers, l.Spelled
  sorted : ∀ f ∈ innerFrames s.allFrames, f.Sorted

namespace Plannable

/-- What a name of the function stands for, and how it is spelled. -/
theorem lookup (h : s.Plannable) {n : String} {b : Binding}
    (hb : s.lookupInFunction n = some b) :
    s.ident n = b.slot.ident ∧ (b.slot.form.asksPlan = true → b.kind ≠ .captured) := by
  constructor
  · have hslot := lookupInFunction_slot h.leveled n
    rw [hb] at hslot
    rw [ident, resolve?_eq h.leveled, Layer.findSome?_ident h.spelled hslot.symm]
    rfl
  · obtain ⟨f, hf, hfn⟩ := List.exists_of_findSome?_eq_some hb
    exact h.sorted f hf n b hfn

/-- Types, aliases and reserved identifiers are nothing to it. -/
theorem adjusts (h : s.Plannable) (hadjusts : s.Adjusts true t) : t.Plannable where
  leveled := hadjusts.leveled h.leveled
  function := (functionStart_of_adjusts hadjusts.frames).2.trans h.function
  spelled := by
    rw [hadjusts.layers]
    exact h.spelled
  sorted := by
    intro g hg
    obtain ⟨f, hf, hfg⟩ := mem_innerFrames_adjusts hadjusts.allFrames hg
    exact (h.sorted f hf).adjusts hfg

theorem declareAs (h : s.Plannable) (name : String) {ident : String} {b : Binding}
    (hident : b.slot.ident = ident) (hb : b.kind ≠ .captured) :
    (s.declareAs name ident b).Plannable where
  leveled := leveled_declareAs h.leveled name ident b
  function := by
    have hfunction := h.function
    unfold Scope.declareAs onInnermost
    rcases hframes : s.frames with _ | ⟨f, rest⟩
    · rw [hframes] at hfunction
      cases hfunction
    · rw [hframes] at hfunction
      exact hfunction
  spelled := by
    intro l hl
    rw [layers_declareAs h.leveled name hident] at hl
    have hkind : ∀ m, (Layer.bind name b.slot m).kind = m.kind := fun _ => rfl
    rcases Layer.mem_inner_modifyHead hkind hl with hold | ⟨m, hm, rfl⟩
    · exact h.spelled l hold
    · exact (h.spelled m hm).bind name b.slot
  sorted := by
    intro f hf
    have hframes : (s.declareAs name ident b).allFrames =
        s.allFrames.modify 0 (Frame.bind name ident b) := by
      rw [← List.modifyHead_eq_modify_zero]
      exact allFrames_onInnermost _ s
    rw [hframes] at hf
    rcases mem_innerFrames_modify (fun _ => by rfl) hf with hold | ⟨g, hg, rfl⟩
    · exact h.sorted f hold
    · exact (h.sorted g hg).bind name ident hb

theorem declareInFunction (h : s.Plannable) (name : String) {ident : String} {b : Binding}
    (hident : b.slot.ident = ident) (hb : b.kind ≠ .captured) :
    (s.declareInFunction name ident b).Plannable := by
  obtain ⟨hlevel, hlayers⟩ := layers_declareInFunction h.leveled h.function name hident
  obtain ⟨i, hfind⟩ : ∃ i, s.frames.findIdx? Frame.isFunction = some i := by
    rw [← Option.isSome_iff_exists, List.findIdx?_isSome]
    exact h.function
  refine ⟨hlevel, ?_, fun l hl => ?_, fun f hf => ?_⟩
  · have hframes : (s.declareInFunction name ident b).frames =
        s.frames.modify i (Frame.bind name ident b) := by
      show (s.onFunction _).frames = _
      unfold onFunction
      rw [hfind]
    rw [hframes, any_isFunction_modify fun _ => by rfl]
    exact h.function
  · rw [hlayers] at hl
    rcases Layer.mem_inner_hoist hl with hold | ⟨m, hm, rfl⟩
    · exact h.spelled l hold
    · exact (h.spelled m hm).bind name b.slot
  · have hframes : (s.declareInFunction name ident b).allFrames =
        s.allFrames.modify i (Frame.bind name ident b) := allFrames_onFunction hfind _
    rw [hframes] at hf
    rcases mem_innerFrames_modify (fun _ => by rfl) hf with hold | ⟨g, hg, rfl⟩
    · exact h.sorted f hold
    · exact (h.sorted g hg).bind name ident hb

theorem pushBlock (h : s.Plannable) : s.pushBlock.Plannable where
  leveled := leveled_push h.leveled .block
  function := h.function
  spelled := by
    intro l hl
    rcases List.mem_cons.mp hl with rfl | hmem
    · exact Layer.spelled_new .block
    · exact h.spelled l hmem
  sorted := by
    intro f hf n b hb
    rcases List.mem_cons.mp hf with rfl | hmem
    · change (NameMap.empty : NameMap Binding).get? n = some b at hb
      rw [NameMap.get?_empty] at hb
      cases hb
    · exact h.sorted f hmem n b hb

/-- A block is left. -/
theorem pop (h : s.Plannable) {f : Frame} {rest : List Frame} (hframes : s.frames = f :: rest)
    (hblock : f.isFunction = false) {left : Left} (hpop : s.pop = .ok left) :
    left.scope.Plannable := by
  obtain ⟨-, hlayers, hlevel⟩ := pop_layers h.leveled hpop
  obtain ⟨outer, hrest, hbase, hadjusts⟩ := pop_adjusts hframes hpop
  have hall : s.allFrames = f :: outer.allFrames := by
    rw [allFrames, allFrames, hframes, hrest, hbase]
    rfl
  have hinner : innerFrames s.allFrames = f :: innerFrames outer.allFrames := by
    rw [hall, innerFrames, hblock]
    rfl
  refine ⟨hlevel, ?_, fun l hl => ?_, fun g hg => ?_⟩
  · have hfunction := h.function
    rw [hframes, List.any_cons, hblock, Bool.false_or, ← hrest] at hfunction
    exact (functionStart_of_adjusts hadjusts.frames).2.trans hfunction
  · obtain ⟨m, ls, hm, hkind⟩ := exists_head_layer h.leveled hall
    have hmblock : m.isFunction = false :=
      (show m.isFunction = f.isFunction by unfold Layer.isFunction; rw [hkind]; rfl).trans hblock
    refine h.spelled l ?_
    rw [hlayers, hm] at hl
    rw [hm, Layer.inner, hmblock]
    exact List.mem_cons_of_mem m hl
  · obtain ⟨f', hf', hadjusts'⟩ := mem_innerFrames_adjusts hadjusts.allFrames hg
    exact (h.sorted f' (hinner ▸ List.mem_cons_of_mem f hf')).adjusts hadjusts'

end Plannable

end Scope

end ClosureConversion
