import ClosureConversion.Proofs.Emit.Edits

/-! # Where noted text is found -/

set_option autoImplicit false

namespace ClosureConversion

open Text (Shows)

/-- The note stands for the piece `p`. Without `all` only notes of lines count. -/
def Note.Traced (all : Prop) (p : String) (n : Note) : Prop :=
  n.text? = some p ∧ (all ∨ n.isInline = false)

namespace Emit

variable {α β : Type} {all : Prop} {p : String} {H F : Prop} {T : α → Prop} {U : β → Prop}

/-- Where the piece `p` is found: if the caller holds it as `H` says, or it is pending, or it is
noted on the way, then the result holds it as `T` says, or it is pending, or it was dropped. -/
def Carries (all : Prop) (p : String) (H : Prop) (x : Emit α) (T : α → Prop) : Prop :=
  ∀ w c a c', x w c = (.ok a, c') → ∃ new, c'.current.notes = new ++ c.current.notes ∧
    (H ∨ Shows c.prelude.text p ∨ (∃ n ∈ new, n.Traced all p) →
      T a ∨ Shows c'.prelude.text p ∨ ∃ text, all ∧ Note.dropped text ∈ new ∧ Shows text p)

/-- A text that shows what was noted of it; what the caller holds is held afterwards. -/
def Shown (all : Prop) (p : String) (x : Emit String) : Prop :=
  ∀ H, Carries all p H x fun text => H ∨ all ∧ Shows text p

/-- A body whose text shows what was written before and what was noted of it. -/
def Written (all : Prop) (p : String) (body : Buffer → Emit Buffer) : Prop :=
  ∀ H out, Carries all p (H ∨ Shows out.text p) (body out) fun out' => H ∨ Shows out'.text p

/-! ## Putting computations together -/

theorem Carries.mono {x : Emit α} {T' : α → Prop} (hx : Carries all p F x T) (hH : H → F)
    (hT : ∀ a, T a → T' a) : Carries all p H x T' := by
  intro w c a c' heq
  obtain ⟨new, hnotes, hfound⟩ := hx w c a c' heq
  exact ⟨new, hnotes, fun h => (hfound (h.imp_left hH)).imp_left (hT a)⟩

theorem Carries.pure {a : α} (h : H → T a) : Carries all p H (pure a : Emit α) T := by
  intro w c b c' heq
  cases heq
  refine ⟨[], rfl, ?_⟩
  rintro (hheld | hpending | ⟨n, hn, -⟩)
  · exact .inl (h hheld)
  · exact .inr (.inl hpending)
  · cases hn

theorem Carries.bind {x : Emit α} {f : α → Emit β} (hx : Carries all p H x T)
    (hf : ∀ a, Carries all p (T a) (f a) U) : Carries all p H (x >>= f) U := by
  intro w c b c' heq
  obtain ⟨a, c₁, hfirst, hsecond⟩ := bind_eq_ok heq
  obtain ⟨new, hnew, hfound⟩ := hx w c a c₁ hfirst
  obtain ⟨later, hlater, hfound'⟩ := hf a w c₁ b c' hsecond
  refine ⟨later ++ new, by rw [hlater, hnew, List.append_assoc], fun h => ?_⟩
  have hmid : (T a ∨ Shows c₁.prelude.text p ∨ ∃ n ∈ later, n.Traced all p) ∨
      ∃ text, all ∧ Note.dropped text ∈ new ∧ Shows text p := by
    rcases h with hheld | hpending | ⟨n, hn, htraced⟩
    · exact (or_assoc.mpr (hfound (.inl hheld))).imp_left (·.imp_right .inl)
    · exact (or_assoc.mpr (hfound (.inr (.inl hpending)))).imp_left (·.imp_right .inl)
    · rcases List.mem_append.mp hn with hlast | hearlier
      · exact .inl (.inr (.inr ⟨n, hlast, htraced⟩))
      · exact (or_assoc.mpr (hfound (.inr (.inr ⟨n, hearlier, htraced⟩)))).imp_left
          (·.imp_right .inl)
  rcases hmid with hmid | ⟨text, hall, hdropped, hshows⟩
  · rcases hfound' hmid with hresult | hpending | ⟨text, hall, hdropped, hshows⟩
    · exact .inl hresult
    · exact .inr (.inl hpending)
    · exact .inr (.inr ⟨text, hall, List.mem_append_left _ hdropped, hshows⟩)
  · exact .inr (.inr ⟨text, hall, List.mem_append_right _ hdropped, hshows⟩)

/-- What is known of every result may be used afterwards. -/
theorem Carries.knowing {x : Emit α} {Q : α → Prop} (hx : Carries all p H x T)
    (hQ : ∀ w c a c', x w c = (.ok a, c') → Q a) : Carries all p H x fun a => T a ∧ Q a := by
  intro w c a c' heq
  obtain ⟨new, hnotes, hfound⟩ := hx w c a c' heq
  exact ⟨new, hnotes, fun h => (hfound h).imp_left fun hresult => ⟨hresult, hQ w c a c' heq⟩⟩

theorem Carries.ite {q : Prop} [Decidable q] {x y : Emit α} (hx : Carries all p H x T)
    (hy : Carries all p H y T) : Carries all p H (if q then x else y) T := by
  split
  · exact hx
  · exact hy

/-- A computation that notes nothing and leaves the prelude alone. -/
theorem carries_of_same {x : Emit α} (hnotes : ∀ w c a c', x w c = (.ok a, c') →
      c'.current.notes = c.current.notes ∧ c'.prelude = c.prelude) :
    Carries all p H x fun _ => H := by
  intro w c a c' heq
  obtain ⟨hsame, hprelude⟩ := hnotes w c a c' heq
  refine ⟨[], hsame, ?_⟩
  rintro (hheld | hpending | ⟨n, hn, -⟩)
  · exact .inl hheld
  · rw [hprelude]
    exact .inr (.inl hpending)
  · cases hn

theorem Edits.notes_eq {x : Emit α} {w : Settings} {c c' : Context} {a : α} (h : Edits x)
    (heq : x w c = (.ok a, c')) : c'.current.notes = c.current.notes := by
  have hsame := h.notes w c
  rw [heq] at hsame
  exact hsame

theorem Edits.carries {x : Emit α} (h : Edits x) : Carries all p H x fun _ => H :=
  carries_of_same fun _ _ _ _ heq => ⟨h.notes_eq heq, h.prelude heq⟩

/-- An edit before a computation. -/
theorem Edits.carrying {x : Emit α} {f : α → Emit β} (hx : Edits x)
    (hf : ∀ a, Carries all p H (f a) U) : Carries all p H (x >>= f) U :=
  hx.carries.bind hf

/-- A text before a computation that holds it. -/
theorem Shown.carrying {x : Emit String} {f : String → Emit β} (hx : Shown all p x)
    (hf : ∀ text, Carries all p (H ∨ all ∧ Shows text p) (f text) U) :
    Carries all p H (x >>= f) U :=
  (hx H).bind hf

/-- A body before a computation that goes on with its buffer. -/
theorem Written.carrying {body : Buffer → Emit Buffer} {f : Buffer → Emit β} {out : Buffer}
    (hbody : Written all p body) (hH : H → F ∨ Shows out.text p)
    (hf : ∀ out', Carries all p (F ∨ Shows out'.text p) (f out') U) :
    Carries all p H (body out >>= f) U :=
  ((hbody F out).mono hH fun _ => id).bind hf

theorem unsupported_carries (what : String) : Carries all p H (unsupported what : Emit α) T :=
  fun _ _ _ _ heq => by cases heq

/-! ## Notes -/

theorem noteAll_carries {notes : List Note} (h : (∃ n ∈ notes, n.Traced all p) → F) :
    Carries all p H (noteAll notes) fun _ => H ∨ F := by
  intro w c a c' heq
  cases heq
  refine ⟨notes, rfl, ?_⟩
  rintro (hheld | hpending | hnoted)
  · exact .inl (.inl hheld)
  · exact .inr (.inl hpending)
  · exact .inl (.inr (h hnoted))

/-- After a note the caller holds its text, which is still to be written. -/
theorem note_carries {n : Note} {text : String} (hn : n.text? = some text) :
    Carries all p H (note n) fun _ => H ∨ Shows text p := by
  refine noteAll_carries ?_
  rintro ⟨m, hm, htext, -⟩
  obtain rfl := List.mem_singleton.mp hm
  obtain rfl := Option.some.inj (hn.symm.trans htext)
  exact .refl _

theorem dropped_carries (text : String) (h : H → F ∨ all ∧ Shows text p) :
    Carries all p H (note (.dropped text)) fun _ => F := by
  intro w c a c' heq
  cases heq
  refine ⟨[.dropped text], rfl, ?_⟩
  rintro (hheld | hpending | ⟨n, hn, htraced, -⟩)
  · rcases h hheld with hframe | ⟨hall, hshows⟩
    · exact .inl hframe
    · exact .inr (.inr ⟨text, hall, List.mem_singleton_self _, hshows⟩)
  · exact .inr (.inl hpending)
  · obtain rfl := List.mem_singleton.mp hn
    cases htraced

/-- **The text of a failing expression** shows its value and what was noted of it. -/
theorem fallible_carries (op : Operation) {text : String} (h : H → F ∨ all ∧ Shows text p) :
    Carries all p H (fallible op text) fun t => F ∨ all ∧ Shows t p := by
  intro w c a c' heq
  rw [fallible_eq] at heq
  cases heq
  have hvalue : Shows text p → Shows (Exit.text (.failing ⟨op, c.current.catches⟩ text)) p := by
    intro hshows
    cases c.current.catches with
    | nil => exact Shows.append_right hshows
    | cons target rest =>
      show Shows s!"({text} catch |__e| \x7b {target.slot} = __e; break :{target.label}; \x7d)" p
      simp [hshows]
  refine ⟨[_], rfl, ?_⟩
  rintro (hheld | hpending | ⟨n, hn, htraced, hall | hline⟩)
  · exact .inl ((h hheld).imp_right (And.imp_right hvalue))
  · exact .inr (.inl hpending)
  · obtain rfl := List.mem_singleton.mp hn
    obtain rfl := Option.some.inj htraced
    exact .inl (.inr ⟨hall, .refl _⟩)
  · obtain rfl := List.mem_singleton.mp hn
    cases hline

theorem fallibleIf_carries {op : Operation} (fails : Bool) {text : String}
    (h : H → F ∨ all ∧ Shows text p) :
    Carries all p H (fallibleIf op fails text) fun t => F ∨ all ∧ Shows t p :=
  .ite (fallible_carries op h) (.pure h)

/-- Lines that leave show what was noted of them, and the value that they leave with. -/
theorem exitLines_carries (body : Buffer → Emit Buffer) (exit : Context → Exit)
    (h : ∀ out w c, ∃ c', body out w c = (.ok (out.lines (exit c).lines), c') ∧
      c'.current.notes = .exit (exit c) :: c.current.notes ∧ c'.prelude = c.prelude)
    (hheld : F → ∀ c, Shows (exit c).text p) (out : Buffer) :
    Carries all p ((H ∨ F) ∨ Shows out.text p) (body out) fun out' => H ∨ Shows out'.text p := by
  intro w c out' c' heq
  obtain ⟨c₁, hbody, hnotes, hprelude⟩ := h out w c
  rw [hbody] at heq
  cases heq
  have hlines : Shows (exit c).text p → Shows (out.lines (exit c).lines).text p := by
    intro hshows
    refine Buffer.shows_lines.mpr (hshows.of_ink ?_).append_right
    rw [Exit.ink_text, Text.ink_join]
  refine ⟨[.exit (exit c)], hnotes, ?_⟩
  rintro (((hother | hvalue) | hbefore) | hpending | ⟨n, hn, htraced, -⟩)
  · exact .inl (.inl hother)
  · exact .inl (.inr (hlines (hheld hvalue c)))
  · exact .inl (.inr (Buffer.shows_lines.mpr hbefore.append_left))
  · exact .inr (.inl (hprelude ▸ hpending))
  · obtain rfl := List.mem_singleton.mp hn
    obtain rfl := Option.some.inj htraced
    exact .inl (.inr (hlines (.refl _)))

theorem exitLines_written (body : Buffer → Emit Buffer) (exit : Context → Exit)
    (h : ∀ out w c, ∃ c', body out w c = (.ok (out.lines (exit c).lines), c') ∧
      c'.current.notes = .exit (exit c) :: c.current.notes ∧ c'.prelude = c.prelude) :
    Written all p body := by
  intro H out
  refine Carries.mono (exitLines_carries (F := False) body exit h False.elim out) ?_ fun _ => id
  exact Or.imp_left .inl

/-- **The lines that raise an error** show what was noted of it. -/
theorem errorExit_written (op : Operation) (error : String) :
    Written all p (errorExit op error) :=
  exitLines_written _ (fun c => .raising ⟨op, c.current.catches⟩ error)
    fun out w c => ⟨_, errorExit_eq op error out w c, rfl, rfl⟩

/-! ## Brackets -/

section Brackets

variable {x : Emit α}

theorem Carries.inFrame {kind : FrameKind} (hx : Carries all p H x T) :
    Carries all p H (inFrame kind x) T := by
  intro w c a c' heq
  obtain ⟨c₁, left, hinside, -, rfl⟩ := inFrame_eq_ok heq
  exact hx w { c with scope := c.scope.push kind } a c₁ hinside

theorem Carries.catching {target : CatchTarget} (hx : Carries all p H x T) :
    Carries all p H (catching target x) T := by
  intro w c a c' heq
  obtain ⟨c₁, hinside, rfl⟩ := catching_eq_ok heq
  exact hx w { c with current := { c.current with catches := target :: c.current.catches } } a c₁
    hinside

theorem Carries.handling {payload : String} (hx : Carries all p H x T) :
    Carries all p H (handling payload x) T := by
  intro w c a c' heq
  obtain ⟨c₁, hinside, rfl⟩ := handling_eq_ok heq
  exact hx w { c with current := { c.current with
    handlerErrors := payload :: c.current.handlerErrors } } a c₁ hinside

theorem Carries.looping (hx : Carries all p H x T) : Carries all p H (looping x) T := by
  intro w c a c' heq
  obtain ⟨c₁, hinside, rfl⟩ := looping_eq_ok heq
  exact hx w { c with current := { c.current with loops := c.current.loops + 1 } } a c₁ hinside

/-- What was queued inside comes with the result, and what was pending outside still is. -/
theorem Carries.isolated (hx : Carries all p H x T) :
    Carries all p H (isolated x) fun r => T r.1 ∨ Shows r.2 p := by
  intro w c ⟨a, text⟩ c' heq
  obtain ⟨c₁, hinside, rfl, rfl⟩ := isolated_eq_ok heq
  obtain ⟨new, hnotes, hfound⟩ := hx w { c with prelude := {} } a c₁ hinside
  refine ⟨new, hnotes, ?_⟩
  rintro (hheld | hpending | hnoted)
  · exact or_assoc.mpr ((hfound (.inl hheld)).imp_right (·.imp_right .inr))
  · exact .inr (.inl hpending)
  · exact or_assoc.mpr ((hfound (.inr (.inr hnoted))).imp_right (·.imp_right .inr))

end Brackets

/-- **A flush loses nothing**: what was pending stands in the buffer. -/
theorem flushPrelude_carries {out : Buffer} (h : H → F ∨ Shows out.text p) :
    Carries all p H (flushPrelude out) fun out' => F ∨ Shows out'.text p := by
  intro w c a c' heq
  unfold flushPrelude at heq
  refine ⟨[], ?_, ?_⟩
  · split at heq <;> cases heq <;> rfl
  · rintro (hheld | hpending | ⟨n, hn, -⟩)
    · refine .inl ((h hheld).imp_right fun hshows => ?_)
      split at heq <;> cases heq
      · exact hshows
      · exact Buffer.shows_block.mpr hshows.append_left
    · refine .inl (.inr ?_)
      split at heq
      · rename_i hempty
        cases heq
        rw [String.isEmpty_iff.mp hempty] at hpending
        exact hpending.of_empty
      · cases heq
        exact Buffer.shows_block.mpr hpending.append_right
    · cases hn

/-- **What is queued is pending.** -/
theorem pushPrelude_carries {text : String} (h : H → F ∨ Shows text p) :
    Carries all p H (pushPrelude text) fun _ => F := by
  intro w c a c' heq
  cases heq
  refine ⟨[.queued text], rfl, ?_⟩
  have hqueued : Shows text p → Shows (c.prelude.block text).text p := fun hshows =>
    Buffer.shows_block.mpr hshows.append_right
  rintro (hheld | hpending | ⟨n, hn, htraced, -⟩)
  · exact (h hheld).imp_right fun hshows => .inl (hqueued hshows)
  · exact .inr (.inl (Buffer.shows_block.mpr hpending.append_left))
  · obtain rfl := List.mem_singleton.mp hn
    obtain rfl := Option.some.inj htraced
    exact .inr (.inl (hqueued (.refl _)))

/-- Flush before a computation that goes on with the buffer. -/
theorem flushing {out : Buffer} {f : Buffer → Emit β} (hH : H → F ∨ Shows out.text p)
    (hf : ∀ out', Carries all p (F ∨ Shows out'.text p) (f out') U) :
    Carries all p H (flushPrelude out >>= f) U :=
  (flushPrelude_carries hH).bind hf

/-- A body that writes the text it was given, behind what was written before. -/
def Takes (all : Prop) (p text : String) (body : Buffer → Emit Buffer) : Prop :=
  ∀ H out, Carries all p ((H ∨ all ∧ Shows text p) ∨ Shows out.text p) (body out)
    fun out' => H ∨ Shows out'.text p

theorem Takes.written {text : String} {body : Buffer → Emit Buffer} (h : Takes all p text body) :
    Written all p body :=
  fun H out => (h H out).mono (Or.imp_left .inl) fun _ => id

/-- A flush before a body that takes a text. -/
theorem Takes.flushing {text : String} {body : Buffer → Emit Buffer} (h : Takes all p text body) :
    Takes all p text fun out => flushPrelude out >>= body :=
  fun H _ => Emit.flushing id fun out' => h H out'

/-- A text before a body that takes it. -/
theorem Shown.taken {x : Emit String} {body : String → Buffer → Emit Buffer} (hx : Shown all p x)
    (h : ∀ text, Takes all p text (body text)) : Written all p fun out => x >>= (body · out) :=
  fun H out => hx.carrying fun text => (h text H out).mono or_right_comm.mp fun _ => id

end Emit

end ClosureConversion
