import ClosureConversion.Proofs.Emit.Carrying

/-! # Expressions show what was noted of them -/

set_option autoImplicit false

namespace ClosureConversion

open Text (Shows)

namespace Emit

variable {α β : Type} {all : Prop} {p : String} {H F : Prop} {T : α → Prop} {U : β → Prop}

/-! ## Expressions from their parts -/

/-- A text that nothing is noted of. -/
theorem Edits.shown {x : Emit String} (h : Edits x) : Shown all p x :=
  fun _ => h.carries.mono id fun _ => .inl

theorem operand_shown (e : Expr) {text : Emit String} (h : Shown all p text) :
    Shown all p (operand e text) := by
  intro H
  refine h.carrying fun t => .pure ?_
  split
  · rintro (h | h) <;> simp [h]
  · exact id

theorem condition_shown (e : Expr) {text : Emit String} (h : Shown all p text) :
    Shown all p (condition e text) := by
  intro H
  refine (typeOf_edits e).carrying fun ty => h.carrying fun t => ?_
  split
  · exact .pure id
  · exact .pure id
  · exact .pure (by rintro (h | h) <;> simp [h])

theorem name_edits (n : String) : Edits (name n) := by
  refine (isDeclaredGlobal_edits n).bind fun isGlobal => .ite (.pure _) ?_
  exact scope_edits.bind fun _ => .pure _

/-- Operands are widened, and not changed otherwise. -/
theorem shows_widenOperands (op : BinOp) (lt rt : Ty) {l r : String} :
    (Shows l p → Shows (widenOperands op lt rt l r).1 p) ∧
      (Shows r p → Shows (widenOperands op lt rt l r).2 p) := by
  have hwidened (t : String) : Shows t p → Shows (Code.widened t) p := by
    intro h
    unfold Code.widened
    simp [h]
  unfold widenOperands
  split
  · exact ⟨id, id⟩
  · exact ⟨id, id⟩
  · exact ⟨id, id⟩
  · split
    · exact ⟨hwidened l, id⟩
    · exact ⟨id, hwidened r⟩
    · exact ⟨id, id⟩

theorem binary_shown (op : BinOp) (left right : Expr) {leftText rightText : Emit String}
    (hl : Shown all p leftText) (hr : Shown all p rightText) :
    Shown all p (binary op left right leftText rightText) := by
  intro H
  refine (typeOf_edits left).carrying fun lt => (typeOf_edits right).carrying fun rt => ?_
  refine (operand_shown left hl).carrying fun l => (operand_shown right hr).carrying fun r => ?_
  obtain ⟨hleft, hright⟩ := shows_widenOperands (p := p) op lt rt (l := l) (r := r)
  generalize widenOperands op lt rt l r = widened at hleft hright ⊢
  obtain ⟨l', r'⟩ := widened
  refine options_edits.carrying fun o => ?_
  have hheld : ((H ∨ all ∧ Shows l p) ∨ all ∧ Shows r p) →
      H ∨ all ∧ (Shows l' p ∨ Shows r' p) := by
    rintro ((h | h) | h)
    · exact .inl h
    · exact .inr ⟨h.1, .inl (hleft h.2)⟩
    · exact .inr ⟨h.1, .inr (hright h.2)⟩
  have hboth {text : String} (htext : Shows l' p ∨ Shows r' p → Shows text p) :
      ((H ∨ all ∧ Shows l p) ∨ all ∧ Shows r p) → H ∨ all ∧ Shows text p :=
    fun h => (hheld h).imp_right (And.imp_right htext)
  dsimp only
  cases op with
  | add =>
    refine .ite (fallibleIf_carries _ (hboth ?_)) ?_
    · rintro (h | h) <;> simp [h]
    · split
      · exact fallibleIf_carries _ (hboth (by rintro (h | h) <;> simp [h]))
      · exact .pure (hboth (by rintro (h | h) <;> simp [h]))
  | mult =>
    refine .ite (fallibleIf_carries _ (hboth ?_)) (.pure (hboth ?_))
    · rintro (h | h) <;> simp [h]
    · rintro (h | h) <;> simp [h]
  | div | floorDiv | mod => exact fallibleIf_carries _ (hboth (by rintro (h | h) <;> simp [h]))
  | pow | sub | bitAnd | bitOr | bitXor | lShift | rShift =>
    exact .pure (hboth (by rintro (h | h) <;> simp [h]))

/-- Texts of which one shows what was noted of them. -/
def AllShown (all : Prop) (p : String) (x : Emit (List String)) : Prop :=
  ∀ H, Carries all p H x fun texts => H ∨ all ∧ ∃ text ∈ texts, Shows text p

theorem AllShown.carrying {x : Emit (List String)} {f : List String → Emit β}
    (hx : AllShown all p x)
    (hf : ∀ texts, Carries all p (H ∨ all ∧ ∃ text ∈ texts, Shows text p) (f texts) U) :
    Carries all p H (x >>= f) U :=
  (hx H).bind hf

/-- One more text, in front of the others. -/
theorem Shown.cons {x : Emit String} {xs : Emit (List String)} (hx : Shown all p x)
    (hxs : AllShown all p xs) :
    AllShown all p (x >>= fun text => xs >>= fun texts => pure (text :: texts)) := by
  intro H
  refine hx.carrying fun text => hxs.carrying fun texts => .pure ?_
  rintro ((h | h) | ⟨h, t, ht, hshows⟩)
  · exact .inl h
  · exact .inr ⟨h.1, text, List.mem_cons_self, h.2⟩
  · exact .inr ⟨h, t, List.mem_cons_of_mem _ ht, hshows⟩

theorem allShown_nil : AllShown all p (pure []) := fun _ => .pure .inl

theorem sequence_shown {xs : List (Emit String)} (h : ∀ x ∈ xs, Shown all p x) :
    AllShown all p (sequence xs) := by
  induction xs with
  | nil => exact allShown_nil
  | cons x rest ih =>
    exact (h x List.mem_cons_self).cons (ih fun y hy => h y (List.mem_cons_of_mem _ hy))

theorem shows_commas {texts : List String} (h : ∃ text ∈ texts, Shows text p) :
    Shows (Code.commas texts) p :=
  Text.shows_intercalate h

theorem isEmpty_of_shows {texts : List String} (h : ∃ text ∈ texts, Shows text p) :
    texts.isEmpty = false := by
  obtain ⟨text, htext, -⟩ := h
  exact List.isEmpty_eq_false_iff.mpr (List.ne_nil_of_mem htext)

theorem shows_tuple {texts : List String} (h : ∃ text ∈ texts, Shows text p) :
    Shows (Code.tuple texts) p := by
  unfold Code.tuple
  rw [isEmpty_of_shows h]
  simp [shows_commas h]

theorem boolean_shown (op : BoolOp) {parts : List (Emit String)}
    (h : ∀ x ∈ parts, Shown all p x) : Shown all p (boolean op parts) := by
  intro H
  refine (sequence_shown h).carrying fun texts => ?_
  cases op with
  | and | or => exact .pure (Or.imp_right (And.imp_right Text.shows_intercalate))

theorem shows_comparison (op : CmpOp) {l r : String} (strings : Bool)
    (h : Shows l p ∨ Shows r p) : Shows (Code.comparison op l r strings) p := by
  unfold Code.comparison
  cases op with
  | eq | notEq => cases strings <;> rcases h with h | h <;> simp [h]
  | «is» | isNot | lt | ltE | gt | gtE | «in» | notIn => rcases h with h | h <;> simp [h]

theorem shows_unary (op : UnaryOp) {operand : String} (h : Shows operand p) :
    Shows (Code.unary op operand) p := by
  unfold Code.unary
  cases op with
  | pos => exact h
  | neg | not | invert => simp [h]

/-- Each comparison shows both its operands. The first operand is handed over by the caller, who
keeps it if there is nothing to compare it with. -/
theorem comparisons_carries (left : Expr) (leftText : String)
    {ops : List (CmpOp × Expr × Emit String)} (h : ∀ o ∈ ops, Shown all p o.2.2) :
    Carries all p (H ∨ all ∧ Shows leftText p) (comparisons left leftText ops) fun texts =>
      H ∨ all ∧ ((∃ text ∈ texts, Shows text p) ∨ texts = [] ∧ Shows leftText p) := by
  induction ops generalizing left leftText H with
  | nil => exact .pure (Or.imp_right (And.imp_right fun hshows => .inr ⟨rfl, hshows⟩))
  | cons o rest ih =>
    obtain ⟨op, right, text⟩ := o
    rw [comparisons]
    refine (operand_shown right (h _ List.mem_cons_self)).carrying fun rightText => ?_
    refine (typeOf_edits left).carrying fun lt => (typeOf_edits right).carrying fun rt => ?_
    dsimp only
    generalize hstrings : (decide (lt = .str) || decide (rt = .str)) = strings
    let first := Code.comparison op leftText rightText strings
    have hfirst : (H ∨ all ∧ Shows leftText p) ∨ all ∧ Shows rightText p →
        (H ∨ all ∧ Shows first p) ∨ all ∧ Shows rightText p := by
      rintro ((h | h) | h)
      · exact .inl (.inl h)
      · exact .inl (.inr ⟨h.1, shows_comparison op strings (.inl h.2)⟩)
      · exact .inr h
    have hrest := ih right rightText (fun o ho => h o (List.mem_cons_of_mem _ ho))
      (H := H ∨ all ∧ Shows first p)
    refine (hrest.mono hfirst fun _ => id).bind fun others => .pure ?_
    rintro ((h | h) | ⟨hall, ⟨t, ht, hshows⟩ | ⟨-, hshows⟩⟩)
    · exact .inl h
    · exact .inr ⟨h.1, .inl ⟨first, List.mem_cons_self, h.2⟩⟩
    · exact .inr ⟨hall, .inl ⟨t, List.mem_cons_of_mem _ ht, hshows⟩⟩
    · exact .inr ⟨hall, .inl ⟨first, List.mem_cons_self, shows_comparison op strings (.inr hshows)⟩⟩

theorem compare_shown (left : Expr) {leftText : Emit String} (ops : List CmpOp)
    (rights : List Expr) {rightTexts : List (Emit String)} (hleft : Shown all p leftText)
    (hrights : ∀ x ∈ rightTexts, Shown all p x) :
    Shown all p (compare left leftText ops rights rightTexts) := by
  intro H
  refine (operand_shown left hleft).carrying fun l => ?_
  refine (comparisons_carries left l fun o ho => ?_).bind fun texts => ?_
  · exact hrights _ (List.of_mem_zip (List.of_mem_zip ho).2).2
  · split
    · refine (dropped_carries l ?_).bind fun _ => .pure .inl
      rintro (h | ⟨hall, ⟨t, ht, -⟩ | ⟨-, hshows⟩⟩)
      · exact .inl h
      · cases ht
      · exact .inr ⟨hall, hshows⟩
    · refine .pure ?_
      rintro (h | ⟨hall, ⟨t, ht, hshows⟩ | ⟨hnil, -⟩⟩)
      · exact .inl h
      · exact .inr ⟨hall, List.mem_singleton.mp ht ▸ hshows⟩
      · cases hnil
    · rename_i parts hnil hone
      refine .pure ?_
      rintro (h | ⟨hall, ⟨t, ht, hshows⟩ | ⟨hempty, -⟩⟩)
      · exact .inl h
      · refine .inr ⟨hall, Text.shows_intercalate ⟨_, List.mem_map_of_mem ht, ?_⟩⟩
        simp [hshows]
      · exact absurd hempty hnil

/-- An index that counts from the end is a constant, of which nothing was noted. -/
theorem subscript_shown (value index : Expr) {valueText indexText : Emit String}
    (hvalue : Shown all p valueText) (hindex : Shown all p indexText)
    (hconstant : ∀ k, index = .constant k → ∃ text, indexText = pure text) :
    Shown all p (subscript value index valueText indexText) := by
  intro H
  refine (typeOf_edits value).carrying fun container => ?_
  refine (operand_shown value hvalue).carrying fun v => ?_
  have hindex' : Carries all p (H ∨ all ∧ Shows v p) indexText fun i =>
      (H ∨ all ∧ Shows v p) ∨ all ∧ Shows i p ∧ ∀ k, index ≠ .constant k := by
    by_cases hk : ∃ k, index = .constant k
    · obtain ⟨k, hk⟩ := hk
      obtain ⟨i, rfl⟩ := hconstant k hk
      exact .pure .inl
    · exact (hindex _).mono id fun i => Or.imp_right fun h => ⟨h.1, h.2, fun k heq => hk ⟨k, heq⟩⟩
  refine hindex'.bind fun i => ?_
  have hshown {text : String} (hv : Shows v p → Shows text p)
      (hi : (∀ k, index ≠ .constant k) → Shows i p → Shows text p) :
      (H ∨ all ∧ Shows v p) ∨ all ∧ Shows i p ∧ (∀ k, index ≠ .constant k) →
        H ∨ all ∧ Shows text p := by
    rintro ((h | h) | h)
    · exact .inl h
    · exact .inr ⟨h.1, hv h.2⟩
    · exact .inr ⟨h.1, hi h.2.2 h.2.1⟩
  dsimp only
  split
  · rename_i hfrom
    refine .pure (hshown (fun h => by simp [h]) fun hne => ?_)
    split at hfrom
    · exact absurd rfl (hne _)
    · cases hfrom
  · exact .pure (hshown (fun h => by simp [h]) fun _ h => by simp [h])
  · rename_i hfrom
    refine .pure (hshown (fun h => by simp [h]) fun hne => ?_)
    split at hfrom
    · exact absurd rfl (hne _)
    · cases hfrom
  · exact .pure (hshown (fun h => by simp [h]) fun _ h => by simp [h])
  · exact .pure (hshown (fun h => by simp [h]) fun _ h => by simp [h])
  · exact .pure (hshown (fun h => by simp [h]) fun _ h => by simp [h])
  · exact fallibleIf_carries _ (hshown (fun h => by simp [h]) fun _ h => by simp [h])
  · exact fallible_carries _ (hshown (fun h => by simp [h]) fun _ h => by simp [h])

/-! ## Calls -/

theorem positional_shown {args : List (Expr × Emit String)} (h : ∀ a ∈ args, Shown all p a.2) :
    AllShown all p (positional args) := by
  induction args with
  | nil => exact allShown_nil
  | cons a rest ih =>
    obtain ⟨e, text⟩ := a
    have hcons : AllShown all p
        (text >>= fun t => positional rest >>= fun ts => pure (t :: ts)) :=
      Shown.cons (h _ List.mem_cons_self) (ih fun b hb => h b (List.mem_cons_of_mem _ hb))
    intro H
    rw [positional]
    exact .ite ((unsupported_edits _).carrying fun _ => hcons H) (hcons H)

theorem keywordArgs_shown {args : List (Option String × Emit String)}
    (h : ∀ a ∈ args, Shown all p a.2) : AllShown all p (keywordArgs args) := by
  induction args with
  | nil => exact allShown_nil
  | cons a rest ih =>
    obtain ⟨arg, text⟩ := a
    have hcons : AllShown all p
        (text >>= fun t => keywordArgs rest >>= fun ts => pure (t :: ts)) :=
      Shown.cons (h _ List.mem_cons_self) (ih fun b hb => h b (List.mem_cons_of_mem _ hb))
    intro H
    rw [keywordArgs]
    exact .ite ((unsupported_edits _).carrying fun _ => hcons H) (hcons H)

section Calls

variable {args : List String}

/-- What the caller holds of the arguments is in the text of the call. -/
theorem held_of_args {text : String} (htext : (∃ a ∈ args, Shows a p) → Shows text p) :
    (H ∨ all ∧ ∃ a ∈ args, Shows a p) → H ∨ all ∧ Shows text p :=
  Or.imp_right (And.imp_right htext)

theorem shows_commas_cons {text : String} (h : ∃ a ∈ args, Shows a p) :
    Shows (Code.commas (text :: args)) p := by
  obtain ⟨a, ha, hshows⟩ := h
  exact shows_commas ⟨a, List.mem_cons_of_mem _ ha, hshows⟩

theorem builtinCall_carries (name : String) :
    Carries all p (H ∨ all ∧ ∃ a ∈ args, Shows a p) (builtinCall name args)
      fun text => H ∨ all ∧ Shows text p := by
  refine options_edits.carrying fun o => fallibleIf_carries _ (held_of_args fun h => ?_)
  split
  · simp [shows_tuple h]
  · split
    · simp [shows_commas_cons h]
    · simp [shows_commas h]

theorem boundCall?_carries (name : String) :
    Carries all p (H ∨ all ∧ ∃ a ∈ args, Shows a p) (boundCall? name args)
      fun text? => H ∨ all ∧ text?.elim (∃ a ∈ args, Shows a p) (Shows · p) := by
  refine (isDeclaredGlobal_edits name).carrying fun isGlobal => .ite (.pure id) ?_
  refine scope_edits.carrying fun s => ?_
  split
  · exact .pure id
  · refine .ite ?_ ?_
    · refine (fallibleIf_carries _ (held_of_args fun h => ?_)).bind fun text => .pure id
      simp [shows_commas h]
    · split
      · refine (fallibleIf_carries _ (held_of_args fun h => ?_)).bind fun text => .pure id
        simp [shows_commas h]
      · refine .ite ?_ (.pure id)
        refine (fallible_carries _ (held_of_args fun h => ?_)).bind fun text => .pure id
        simp [shows_tuple h]

theorem namedCall_carries (call : Expr) (name : String) :
    Carries all p (H ∨ all ∧ ∃ a ∈ args, Shows a p) (namedCall call name args)
      fun text => H ∨ all ∧ Shows text p := by
  refine (boundCall?_carries name).bind fun text? => ?_
  cases text? with
  | some text => exact .pure id
  | none =>
    refine options_edits.carrying fun o => (typeOf_edits call).carrying fun ty => ?_
    refine .ite (fallibleIf_carries _ (held_of_args fun h => ?_)) ?_
    · simp [shows_commas_cons h]
    · refine scope_edits.carrying fun s => .ite (builtinCall_carries name) ?_
      refine oracle_edits.carrying fun oracle => fallibleIf_carries _ (held_of_args fun h => ?_)
      simp [shows_commas h]

theorem methodCall_carries (receiver : Expr) {receiverText : Emit String} (method : String)
    (h : Shown all p receiverText) :
    Carries all p (H ∨ all ∧ ∃ a ∈ args, Shows a p) (methodCall receiver receiverText method args)
      fun text => H ∨ all ∧ Shows text p := by
  refine (operand_shown receiver h).carrying fun r => options_edits.carrying fun o => ?_
  refine fallibleIf_carries _ ?_
  rintro ((h | ⟨hall, h⟩) | ⟨hall, h⟩)
  · exact .inl h
  · exact .inr ⟨hall, by simp [shows_commas h]⟩
  · exact .inr ⟨hall, by simp [h]⟩

theorem valueCall_carries (callee : Expr) {calleeText : Emit String}
    (h : Shown all p calleeText) :
    Carries all p (H ∨ all ∧ ∃ a ∈ args, Shows a p) (valueCall callee calleeText args)
      fun text => H ∨ all ∧ Shows text p := by
  refine (operand_shown callee h).carrying fun c => (typeOf_edits callee).carrying fun ty => ?_
  refine .ite (fallible_carries _ ?_) (fallible_carries _ ?_)
  all_goals
    rintro ((h | ⟨hall, h⟩) | ⟨hall, h⟩)
    · exact .inl h
    · exact .inr ⟨hall, by simp [shows_commas h, shows_tuple h]⟩
    · exact .inr ⟨hall, by simp [h]⟩

end Calls

/-! ## Collections and format texts -/

theorem elements_shown (kind elem : String) {items : List (Emit String)}
    (h : ∀ x ∈ items, Shown all p x) : Shown all p (elements kind elem items) := by
  intro H
  refine options_edits.carrying fun o => (sequence_shown h).carrying fun texts => ?_
  refine fallibleIf_carries _ (Or.imp_right (And.imp_right fun hshows => ?_))
  rw [isEmpty_of_shows hshows]
  simp [shows_commas hshows]

theorem entry_shown {key value : Emit String} (hkey : Shown all p key)
    (hvalue : Shown all p value) : Shown all p (entry key value) := by
  intro H
  refine hkey.carrying fun k => hvalue.carrying fun v => .pure ?_
  rintro ((h | h) | h) <;> simp [h]

theorem dict_shown (ty : Ty) {keys values : List (Emit String)}
    (hkeys : ∀ x ∈ keys, Shown all p x) (hvalues : ∀ x ∈ values, Shown all p x) :
    Shown all p (dict ty keys values) := by
  intro H
  refine options_edits.carrying fun o => (sequence_shown fun x hx => ?_).carrying fun entries => ?_
  · obtain ⟨e, he, rfl⟩ := List.mem_map.mp hx
    obtain ⟨hk, hv⟩ := List.of_mem_zip he
    exact entry_shown (hkeys _ hk) (hvalues _ hv)
  · refine fallibleIf_carries _ (Or.imp_right (And.imp_right fun hshows => ?_))
    rw [isEmpty_of_shows hshows]
    simp [shows_commas hshows]

theorem formatParts_carries {parts : List (FormatPart × Emit String)}
    (h : ∀ q ∈ parts, Shown all p q.2) :
    Carries all p H (formatParts parts) fun r => H ∨ all ∧ ∃ arg ∈ r.2, Shows arg p := by
  induction parts generalizing H with
  | nil => exact .pure .inl
  | cons q rest ih =>
    have hrest {F : Prop} := ih (H := F) fun r hr => h r (List.mem_cons_of_mem _ hr)
    obtain ⟨part, text⟩ := q
    cases part with
    | literal s =>
      rw [formatParts]
      exact hrest.bind fun ⟨format, args⟩ => .pure id
    | interpolation e =>
      rw [formatParts]
      refine (typeOf_edits e).carrying fun ty => (h _ List.mem_cons_self).carrying fun arg => ?_
      refine hrest.bind fun ⟨format, args⟩ => .pure ?_
      rintro ((h | h) | ⟨hall, a, ha, hshows⟩)
      · exact .inl h
      · exact .inr ⟨h.1, arg, List.mem_cons_self, h.2⟩
      · exact .inr ⟨hall, a, List.mem_cons_of_mem _ ha, hshows⟩

theorem format_shown {parts : List (FormatPart × Emit String)}
    (h : ∀ q ∈ parts, Shown all p q.2) : Shown all p (format parts) := by
  intro H
  refine options_edits.carrying fun o => (formatParts_carries h).bind fun ⟨text, args⟩ => ?_
  refine fallibleIf_carries _ (Or.imp_right (And.imp_right fun hshows => ?_))
  simp [shows_tuple hshows]

/-! ## Loops -/

theorem length_sequence {xs : List (Emit α)} {w : Settings} {c c' : Context} {as : List α}
    (heq : sequence xs w c = (.ok as, c')) : as.length = xs.length := by
  induction xs generalizing c as with
  | nil =>
    cases heq
    rfl
  | cons x rest ih =>
    rw [sequence] at heq
    obtain ⟨a, c₁, -, heq⟩ := bind_eq_ok heq
    obtain ⟨as', c₂, hrest, heq⟩ := bind_eq_ok heq
    cases heq
    rw [List.length_cons, List.length_cons, ih hrest]

/-- A range of at most three arguments uses all of them. -/
theorem shows_rangeBounds {bounds : List String} (hlength : bounds.length ≤ 3)
    (h : ∃ b ∈ bounds, Shows b p) :
    Shows (rangeBounds bounds).1 p ∨ Shows (rangeBounds bounds).2.1 p ∨
      Shows (rangeBounds bounds).2.2 p := by
  obtain ⟨b, hb, hshows⟩ := h
  rcases bounds with _ | ⟨start, _ | ⟨stop, _ | ⟨step, _ | ⟨extra, rest⟩⟩⟩⟩
  · cases hb
  · obtain rfl := List.mem_singleton.mp hb
    exact .inr (.inl hshows)
  · simp only [List.mem_cons, List.not_mem_nil, or_false] at hb
    rcases hb with rfl | rfl
    · exact .inl hshows
    · exact .inr (.inl hshows)
  · simp only [List.mem_cons, List.not_mem_nil, or_false] at hb
    rcases hb with rfl | rfl | rfl
    · exact .inl hshows
    · exact .inr (.inl hshows)
    · exact .inr (.inr hshows)
  · simp only [List.length_cons] at hlength
    omega

theorem bindCounter_carries (name start : String) :
    Carries all p H (bindCounter name start)
      fun ident => H ∨ Shows s!"var {ident}: i64 = {start};" p := by
  refine scope_edits.carrying fun s => ?_
  refine (note_carries (Note.text?_var rfl _ _)).bind fun _ => ?_
  refine (declareAs_edits ..).carrying fun _ => .pure ?_
  have hline (ident : String) :
      "var " ++ ident ++ s!": i64 = {start};" = s!"var {ident}: i64 = {start};" := by
    simp only [Text.toString_text, String.append_assoc]
  rw [hline]
  exact id

theorem openCounted_carries (name : String) (args : List Expr) (bounds : List String)
    (out : Buffer) :
    Carries all p ((H ∨ all ∧ bounds.length ≤ 3 ∧ ∃ b ∈ bounds, Shows b p) ∨ Shows out.text p)
      (openCounted name args bounds out) fun out' => H ∨ Shows out'.text p := by
  have hbounds (hlength : bounds.length ≤ 3) := shows_rangeBounds (p := p) hlength
  unfold openCounted
  generalize rangeBounds bounds = range at hbounds ⊢
  obtain ⟨start, stop, step⟩ := range
  refine (bindCounter_carries name start).bind fun ident => .pure ?_
  rintro (((h | ⟨-, hlength, h⟩) | h) | h)
  · exact .inl h
  · rcases hbounds hlength h with h | h | h <;> simp [h]
  · simp [h]
  · exact .inr (Buffer.shows_line.mpr (Buffer.shows_line.mpr h.append_right).append_left)

/-- At most three arguments become the bounds of a counted loop. -/
theorem length_of_countedRange? {target : Target} {iter : Expr} {s : Scope} {name : String}
    {args : List Expr} {argTexts : List (Emit String)}
    (harity : ∀ f args kws, iter = .call f args kws → argTexts.length = args.length)
    (h : countedRange? target iter s = some (name, args)) : argTexts.length ≤ 3 := by
  unfold countedRange? at h
  split at h
  · rw [harity _ _ _ rfl]
    split at h
    · rename_i hlengths
      simp only [Bool.and_eq_true, decide_eq_true_eq] at hlengths
      exact hlengths.1.2
    · cases h
  · cases h

theorem openLoop_carries (target : Target) {iter : Expr} {iterText : Emit String}
    {argTexts : List (Emit String)} (used : List String) (out : Buffer)
    (hiter : Shown all p iterText) (hargs : ∀ x ∈ argTexts, Shown all p x)
    (harity : ∀ f args kws, iter = .call f args kws → argTexts.length = args.length) :
    Carries all p (H ∨ Shows out.text p) (openLoop target iter iterText argTexts used out)
      fun r => H ∨ Shows r.2.text p := by
  refine scope_edits.carrying fun s => ?_
  split
  · rename_i name args hcounted
    have hlength := length_of_countedRange? harity hcounted
    have hbounds := (sequence_shown hargs (H ∨ Shows out.text p)).knowing
      fun w c bounds c' heq => (length_sequence heq).trans_le hlength
    refine hbounds.bind fun bounds => ?_
    refine flushing (F := H ∨ all ∧ bounds.length ≤ 3 ∧ ∃ b ∈ bounds, Shows b p) ?_ fun out' => ?_
    · rintro ⟨(h | h) | h, hlength⟩
      · exact .inl (.inl h)
      · exact .inr h
      · exact .inl (.inr ⟨h.1, hlength, h.2⟩)
    · exact (openCounted_carries name args bounds out').bind fun out'' => .pure id
  · refine (typeOf_edits iter).carrying fun ty => (operand_shown iter hiter).carrying fun it => ?_
    refine flushing or_right_comm.mp fun out' => ?_
    refine (loopPayload_edits ..).carrying fun ⟨payload, lines⟩ => ?_
    dsimp only
    split
    · exact .pure (by rintro ((h | h) | h) <;> simp [h])
    · exact .pure (by rintro ((h | h) | h) <;> simp [h])
    · exact .pure (by rintro ((h | h) | h) <;> simp [h])
    · refine (temporary_edits "it").carrying fun cursor => .pure ?_
      rintro ((h | h) | h) <;> simp [h]

theorem shows_closeLoop (n : Nat) {out : Buffer} (h : Shows out.text p) :
    Shows (closeLoop n out).text p := by
  induction n generalizing out with
  | zero => exact h
  | succ n ih => exact ih (Buffer.shows_line.mpr h.append_left)

/-! ## Comprehensions -/

/-- A computation for a text whose statements come first. -/
theorem isolated_carrying {x : Emit String} {f : String × String → Emit β} (hx : Shown all p x)
    (hf : ∀ text before,
      Carries all p (H ∨ Shows before p ∨ all ∧ Shows text p) (f (text, before)) U) :
    Carries all p H (isolated x >>= f) U := by
  refine (Carries.isolated (hx H)).bind fun ⟨text, before⟩ => (hf text before).mono ?_ fun _ => id
  rintro ((h | h) | h)
  · exact .inl h
  · exact .inr (.inr h)
  · exact .inr (.inl h)

theorem conditions_written {ifs : List (Expr × Emit String)}
    (h : ∀ q ∈ ifs, Shown all p q.2) : Written all p (conditions ifs) := by
  induction ifs with
  | nil => exact fun _ _ => .pure id
  | cons q rest ih =>
    obtain ⟨e, text⟩ := q
    intro H out
    rw [conditions]
    refine isolated_carrying (condition_shown e (h _ List.mem_cons_self)) fun c before => ?_
    refine (ih (fun r hr => h r (List.mem_cons_of_mem _ hr)) H _).mono ?_ fun _ => id
    rintro ((h | h) | h | h) <;> simp [h]

/-- The texts that a generator is given show what was noted of them. -/
structure GeneratorParts.Shown (all : Prop) (p : String) (g : GeneratorParts) : Prop where
  iterText : Emit.Shown all p g.iterText
  argTexts : ∀ x ∈ g.argTexts, Emit.Shown all p x
  arity : ∀ f args kws, g.iter = .call f args kws → g.argTexts.length = args.length
  ifs : ∀ q ∈ g.ifs, Emit.Shown all p q.2

theorem generatorLoops_written {insert : Emit String} (used : List String)
    {parts : List GeneratorParts} (hinsert : Shown all p insert)
    (h : ∀ g ∈ parts, g.Shown all p) : Written all p (generatorLoops insert used parts) := by
  induction parts with
  | nil =>
    intro H out
    rw [generatorLoops]
    refine isolated_carrying hinsert fun line before => .pure ?_
    rintro ((h | h) | h | h) <;> simp [h]
  | cons g rest ih =>
    intro H out
    rw [generatorLoops]
    obtain ⟨hiter, hargs, harity, hifs⟩ := h g List.mem_cons_self
    refine (openLoop_carries _ used out hiter hargs harity).bind fun ⟨braces, opened⟩ => ?_
    refine (conditions_written hifs).carrying id fun tested => ?_
    refine (ih fun g' hg => h g' (List.mem_cons_of_mem _ hg)).carrying id fun filled => .pure ?_
    exact Or.imp_right (shows_closeLoop braces)

theorem insertion_shown {text : Emit String} (h : Shown all p text) :
    Shown all p (insertion text) := by
  intro H
  refine h.carrying fun t => options_edits.carrying fun o => ?_
  refine (fallibleIf_carries _ id).bind fun line => .pure ?_
  rintro (h | h) <;> simp [h]

theorem comprehension_shown (container : String) (elems : List Expr)
    {insert : String → Emit String} (generators : List Generator) {parts : List GeneratorParts}
    (hinsert : ∀ acc, Shown all p (insert acc)) (hparts : ∀ g ∈ parts, g.Shown all p) :
    Shown all p (comprehension container elems insert generators parts) := by
  intro H
  refine (temporary_edits "comp").carrying fun acc => options_edits.carrying fun o => ?_
  refine (fallibleIf_carries (F := H) _ .inl).bind fun init => (tell_edits _).carrying fun _ => ?_
  refine Carries.bind (T := fun out => H ∨ Shows out.text p) ?_ fun out => ?_
  · refine ((generatorLoops_written _ (insertion_shown (hinsert acc)) hparts H _).mono ?_
      fun _ => id).inFrame
    rintro (h | h) <;> simp [h]
  · exact (pushPrelude_carries id).bind fun _ => .pure .inl

/-! ## Closures -/

/-- Writing the body of a closure leaves no note in the function around it. -/
theorem closureParts_notes {d : Draft} {assumed : Option Bool} {body : Buffer → Emit Buffer}
    {w : Settings} {c c' : Context} {parts : Closure.Parts}
    (heq : closureParts d assumed body w c = (.ok parts, c')) :
    c'.current.notes = c.current.notes := by
  obtain ⟨c₁, left, hframe, -, rfl⟩ := inFrame_eq_ok heq
  obtain ⟨entry, c₂, henter, hframe⟩ := bind_eq_ok hframe
  obtain ⟨written, c₃, hbody, hframe⟩ := bind_eq_ok hframe
  obtain ⟨⟨state, formals⟩, c₄, hplan, hbody⟩ := bind_eq_ok hbody
  obtain ⟨⟨out, ended⟩, c₅, hplanned, hbody⟩ := bind_eq_ok hbody
  obtain ⟨c₆, -, -, rfl⟩ := inFunction_eq_ok hplanned
  cases hbody
  cases hframe
  have hfirst := (enterClosure_edits d assumed).notes_eq henter
  have hsecond := (planFunction_edits ..).notes_eq hplan
  exact hsecond.trans hfirst

theorem settledParts_notes {d : Draft} {body : Buffer → Emit Buffer} {w : Settings}
    {c c' : Context} {parts : Closure.Parts}
    (heq : settledParts d body w c = (.ok parts, c')) : c'.current.notes = c.current.notes := by
  rcases settledParts_cases d body w c with hcase | ⟨first, c₁, hfirst, hcase⟩
  · rw [hcase] at heq
    exact closureParts_notes heq
  · rw [hcase] at heq
    have hbefore := closureParts_notes hfirst
    have hagain := closureParts_notes heq
    exact hagain.trans hbefore

theorem closure_carries (d : Draft) (body : Buffer → Emit Buffer) :
    Carries all p H (isolated (settledParts d body)) fun _ => H := by
  refine carries_of_same fun w c ⟨parts, text⟩ c' heq => ?_
  obtain ⟨c₁, hinside, -, rfl⟩ := isolated_eq_ok heq
  have hnotes := settledParts_notes hinside
  exact ⟨hnotes, rfl⟩

theorem decorate_carries {decorators : List (Emit String)} (init : String)
    (h : ∀ x ∈ decorators, Shown all p x) :
    Carries all p (H ∨ all ∧ Shows init p) (decorate init decorators)
      fun text => H ∨ all ∧ Shows text p := by
  unfold decorate
  have hreverse : ∀ x ∈ decorators.reverse, Shown all p x := fun x hx =>
    h x (List.mem_reverse.mp hx)
  generalize decorators.reverse = ds at hreverse
  induction ds generalizing init with
  | nil => exact .pure id
  | cons d rest ih =>
    rw [List.foldlM_cons]
    refine Carries.bind (T := fun text => H ∨ all ∧ Shows text p) ?_ fun text => ?_
    · refine (hreverse d List.mem_cons_self).carrying fun decorator => .pure ?_
      rintro ((h | h) | h) <;> simp [h]
    · exact ih text fun x hx => hreverse x (List.mem_cons_of_mem _ hx)

/-- The line of an instance starts with the keyword that the plan asks for. -/
theorem bindInstance_carries (d : Draft) (ident : String) (signature : Signature)
    {decorators : List (Emit String)} (discardUnused : Bool) (out : Buffer)
    (h : ∀ x ∈ decorators, Shown all p x) :
    Carries all p (H ∨ Shows out.text p)
      (bindInstance d ident signature decorators discardUnused out)
      fun out' => H ∨ Shows out'.text p := by
  refine Carries.bind ((decorate_carries _ h).mono .inl fun _ => id) fun init => ?_
  refine flushing or_right_comm.mp fun flushed => ?_
  intro w c out' c' heq
  let rest := s!" = {init};"
  let line := s!"{Code.keyword (c.current.plan.isMutable ident)} {ident}{rest}"
  have hkept : Shows (flushed.line line).text p → Shows out'.text p := by
    intro hline
    cases heq
    split
    · exact Buffer.shows_line.mpr hline.append_left
    · exact hline
  refine ⟨[.introduced ⟨ident, .declared (c.current.plan.isMutable ident)⟩ rest], ?_, ?_⟩
  · cases heq
    rfl
  · rintro (((h | h) | h) | hpending | ⟨n, hn, htraced, -⟩)
    · exact .inl (.inl h)
    · exact .inl (.inr (hkept (Buffer.shows_line.mpr (by simp [line, rest, h]))))
    · exact .inl (.inr (hkept (Buffer.shows_line.mpr h.append_left)))
    · refine .inr (.inl ?_)
      cases heq
      exact hpending
    · obtain rfl := List.mem_singleton.mp hn
      rw [Note.text?_declared] at htraced
      obtain rfl := Option.some.inj htraced
      exact .inl (.inr (hkept (Buffer.shows_line.mpr (Shows.refl _).append_right)))

theorem declareClosure_carries (d : Draft) (parts : Closure.Parts) :
    Carries all p H (declareClosure d parts) fun _ => H := by
  refine (returnText_edits ..).carrying fun result => ?_
  refine Carries.bind (T := fun _ => H) (carries_of_same fun w c a c' heq => ?_) fun _ => .pure id
  cases heq
  exact ⟨rfl, rfl⟩

theorem synthesize_carries (f : Function) (body : Buffer → Emit Buffer)
    {decorators : List (Emit String)} (discardUnused : Bool) (out : Buffer)
    (h : ∀ x ∈ decorators, Shown all p x) :
    Carries all p (H ∨ Shows out.text p) (synthesize f body decorators discardUnused out)
      fun r => H ∨ Shows r.2.text p := by
  refine (prepare_edits f).carrying fun ⟨d, ident⟩ => ?_
  refine (closure_carries d body).bind fun ⟨parts, text⟩ => ?_
  refine (declareClosure_carries d parts).bind fun signature => ?_
  refine (bindInstance_carries d ident signature discardUnused out h).bind fun out' => ?_
  refine Carries.bind (T := fun _ => H ∨ Shows out'.text p) (carries_of_same ?_) fun _ => .pure id
  exact fun w c a c' heq => by cases heq; exact ⟨rfl, rfl⟩

theorem lambda_carries (params : List Param) (body : Expr) (text : Emit String) :
    Carries all p H (lambda params body text) fun _ => H := by
  refine current_edits.carrying fun state => ?_
  refine Carries.bind ((synthesize_carries _ _ false {} fun x hx => by cases hx).mono .inl
    fun _ => id) ?_
  rintro ⟨built, out⟩
  exact (pushPrelude_carries id).bind fun _ => .pure id

/-! ## All expressions -/

theorem collectionType_edits (e : Expr) (expected : Option Ty) :
    Edits (collectionType e expected) := by
  refine (typeOf_edits e).bind fun ty => ?_
  split <;> exact .pure _

theorem length_renders (es : List Expr) : (renders es).length = es.length := by
  induction es with
  | nil => rw [renders]; rfl
  | cons e rest ih => rw [renders, List.length_cons, List.length_cons, ih]

theorem length_argTexts {iter f : Expr} {args : List Expr} {kws : List Keyword}
    (h : iter = .call f args kws) : (argTexts iter).length = args.length := by
  rw [h, argTexts, length_renders]

mutual

/-- **The text of an expression shows what was noted of it.** -/
theorem render_shown : ∀ (e : Expr) (expected : Option Ty), Shown all p (render e expected)
  | .name n, _ => by
    rw [render]
    exact (name_edits n).shown
  | .constant c, _ => by
    rw [render]
    exact fun _ => .pure .inl
  | .binary op l r, _ => by
    rw [render]
    exact binary_shown op l r (render_shown l none) (render_shown r none)
  | .unary op e, _ => by
    rw [render]
    refine fun H => (operand_shown e (render_shown e none)).carrying fun t => .pure ?_
    exact Or.imp_right (And.imp_right (shows_unary op))
  | .boolean op es, _ => by
    rw [render]
    exact boolean_shown op (operands_shown es)
  | .compare l ops es, _ => by
    rw [render]
    exact compare_shown l ops es (render_shown l none) (renders_shown es)
  | .call f args kws, _ => by
    rw [render]
    intro H
    refine (positional_shown fun q hq => ?_).carrying fun texts => ?_
    · exact renders_shown args _ (List.of_mem_zip hq).2
    refine (keywordArgs_shown (keywordTexts_shown kws)).carrying fun more => ?_
    have hargs : (H ∨ all ∧ ∃ t ∈ texts, Shows t p) ∨ (all ∧ ∃ t ∈ more, Shows t p) →
        H ∨ all ∧ ∃ t ∈ texts ++ more, Shows t p := by
      rintro ((h | ⟨hall, t, ht, h⟩) | ⟨hall, t, ht, h⟩)
      · exact .inl h
      · exact .inr ⟨hall, t, List.mem_append_left _ ht, h⟩
      · exact .inr ⟨hall, t, List.mem_append_right _ ht, h⟩
    have hvalue : Shown all p (render f none) := render_shown f none
    cases f with
    | name n => exact (namedCall_carries _ n).mono hargs fun _ => id
    | «attribute» e method =>
      exact (methodCall_carries e method (render_shown e none)).mono hargs fun _ => id
    | _ => exact (valueCall_carries _ hvalue).mono hargs fun _ => id
  | .attribute e _, _ => by
    rw [render]
    refine fun H => (operand_shown e (render_shown e none)).carrying fun t => .pure ?_
    rintro (h | h) <;> simp [h]
  | .subscript e i, _ => by
    rw [render]
    refine subscript_shown e i (render_shown e none) (render_shown i none) fun k hk => ?_
    exact ⟨Code.constant k, by rw [hk, render]⟩
  | .tuple es, _ => by
    rw [render]
    refine fun H => (sequence_shown (renders_shown es)).carrying fun texts => .pure ?_
    exact Or.imp_right (And.imp_right shows_tuple)
  | .list es, _ | .set es, _ => by
    rw [render]
    exact fun H => (collectionType_edits _ _).carrying fun ty =>
      elements_shown _ _ (renders_shown es) H
  | .dict ks vs, _ => by
    rw [render]
    exact fun H => (collectionType_edits _ _).carrying fun ty =>
      dict_shown ty (renders_shown ks) (renders_shown vs) H
  | .ifElse t b e, _ => by
    rw [render]
    refine fun H => (condition_shown t (render_shown t none)).carrying fun test => ?_
    refine (operand_shown b (render_shown b none)).carrying fun body => ?_
    refine (operand_shown e (render_shown e none)).carrying fun orelse => .pure ?_
    rintro (((h | h) | h) | h) <;> simp [h]
  | .lambda ps b, _ => by
    rw [render]
    exact fun H => (lambda_carries ps b _).bind fun built => .pure .inl
  | .listComp e gs, _ | .generatorExp e gs, _ | .setComp e gs, _ => by
    rw [render]
    refine fun H => (collectionType_edits _ _).carrying fun ty => ?_
    refine comprehension_shown _ _ gs (fun acc H => ?_) (generatorParts_shown gs) H
    refine (render_shown e none).carrying fun t => .pure ?_
    rintro (h | h) <;> simp [h]
  | .dictComp k v gs, _ => by
    rw [render]
    refine fun H => (collectionType_edits _ _).carrying fun ty => ?_
    refine comprehension_shown _ _ gs (fun acc H => ?_) (generatorParts_shown gs) H
    refine (render_shown k none).carrying fun key => ?_
    refine (render_shown v none).carrying fun value => .pure ?_
    rintro ((h | h) | h) <;> simp [h]
  | .format ps, _ => by
    rw [render]
    exact format_shown fun q hq => partTexts_shown ps _ (List.of_mem_zip hq).2
  | .starred _, _ => by
    rw [render]
    exact fun H => unsupported_carries _

theorem renders_shown : ∀ (es : List Expr), ∀ x ∈ renders es, Shown all p x
  | [], x, hx => by
    rw [renders] at hx
    cases hx
  | e :: es, x, hx => by
    rw [renders] at hx
    rcases List.mem_cons.mp hx with rfl | hmem
    · exact render_shown e none
    · exact renders_shown es x hmem

theorem operands_shown : ∀ (es : List Expr), ∀ x ∈ operands es, Shown all p x
  | [], x, hx => by
    rw [operands] at hx
    cases hx
  | e :: es, x, hx => by
    rw [operands] at hx
    rcases List.mem_cons.mp hx with rfl | hmem
    · exact operand_shown e (render_shown e none)
    · exact operands_shown es x hmem

theorem keywordTexts_shown : ∀ (ks : List Keyword), ∀ q ∈ keywordTexts ks, Shown all p q.2
  | [], q, hq => by
    rw [keywordTexts] at hq
    cases hq
  | ⟨_, e⟩ :: ks, q, hq => by
    rw [keywordTexts] at hq
    rcases List.mem_cons.mp hq with rfl | hmem
    · exact render_shown e none
    · exact keywordTexts_shown ks q hmem

theorem argTexts_shown (e : Expr) : ∀ x ∈ argTexts e, Shown all p x := by
  intro x hx
  cases e with
  | call _ args _ =>
    rw [argTexts] at hx
    exact renders_shown args x hx
  | _ => simp [argTexts] at hx

theorem conditionTexts_shown : ∀ (es : List Expr), ∀ q ∈ conditionTexts es, Shown all p q.2
  | [], q, hq => by
    rw [conditionTexts] at hq
    cases hq
  | e :: es, q, hq => by
    rw [conditionTexts] at hq
    rcases List.mem_cons.mp hq with rfl | hmem
    · exact render_shown e none
    · exact conditionTexts_shown es q hmem

theorem generatorParts_shown : ∀ (gs : List Generator), ∀ g ∈ generatorParts gs, g.Shown all p
  | [], g, hg => by
    rw [generatorParts] at hg
    cases hg
  | ⟨_, iter, ifs⟩ :: gs, g, hg => by
    rw [generatorParts] at hg
    rcases List.mem_cons.mp hg with rfl | hmem
    · exact ⟨render_shown iter none, argTexts_shown iter, fun f args kws => length_argTexts,
        conditionTexts_shown ifs⟩
    · exact generatorParts_shown gs g hmem

theorem partTexts_shown : ∀ (ps : List FormatPart), ∀ x ∈ partTexts ps, Shown all p x
  | [], x, hx => by
    rw [partTexts] at hx
    cases hx
  | .literal _ :: ps, x, hx => by
    rw [partTexts] at hx
    rcases List.mem_cons.mp hx with rfl | hmem
    · exact (Edits.pure _).shown
    · exact partTexts_shown ps x hmem
  | .interpolation e :: ps, x, hx => by
    rw [partTexts] at hx
    rcases List.mem_cons.mp hx with rfl | hmem
    · exact render_shown e none
    · exact partTexts_shown ps x hmem

end

theorem renderExpr_shown (e : Expr) : Shown all p (renderExpr e) := render_shown e none

theorem renderOperand_shown (e : Expr) : Shown all p (renderOperand e) :=
  operand_shown e (renderExpr_shown e)

theorem renderCondition_shown (e : Expr) : Shown all p (renderCondition e) :=
  condition_shown e (renderExpr_shown e)

end Emit

end ClosureConversion
