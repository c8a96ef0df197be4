import ClosureConversion.Code.Buffer
import Mathlib.Data.List.Infix

/-! # What can be seen of a text -/

set_option autoImplicit false

namespace ClosureConversion

namespace Text

/-- The characters of a text that can be seen. -/
def ink (text : String) : List Char := text.toList.filter (!isBlankChar ·)

@[simp] theorem ink_empty : ink "" = [] := rfl

theorem ink_ofList (cs : List Char) : ink (String.ofList cs) = cs.filter (!isBlankChar ·) := by
  rw [ink, String.toList_ofList]

@[simp] theorem ink_append (a b : String) : ink (a ++ b) = ink a ++ ink b := by
  simp only [ink, String.toList_append, List.filter_append]

theorem ink_join (texts : List String) : ink (String.join texts) = texts.flatMap ink := by
  induction texts with
  | nil => rfl
  | cons t rest ih => rw [String.join_cons, ink_append, ih, List.flatMap_cons]

theorem filter_eq_nil_of_isBlank {line : List Char} (h : isBlank line = true) :
    line.filter (!isBlankChar ·) = [] := by
  refine List.filter_eq_nil_iff.mpr fun c hc => ?_
  simp [List.all_eq_true.mp h c hc]

/-- The end of a line takes away blanks only. -/
theorem filter_endOfLine (start : List Char) :
    (endOfLine start).filter (!isBlankChar ·) = start.reverse.filter (!isBlankChar ·) := by
  unfold endOfLine
  split
  · rw [List.reverse_cons, List.filter_append]
    exact (List.append_nil _).symm
  · rfl

/-- Cutting a text into lines takes away blanks only. -/
theorem flatMap_linesFrom (start text : List Char) :
    (linesFrom start text).flatMap (List.filter (!isBlankChar ·)) =
      (start.reverse ++ text).filter (!isBlankChar ·) := by
  induction text generalizing start with
  | nil =>
    rw [linesFrom, List.append_nil]
    split
    · rename_i hstart
      rw [List.isEmpty_iff.mp hstart]
      rfl
    · rw [List.flatMap_cons, List.flatMap_nil, List.append_nil]
  | cons c rest ih =>
    rw [linesFrom]
    split
    · rename_i hnewline
      rw [List.flatMap_cons, ih, filter_endOfLine, hnewline, List.filter_append, List.filter_append]
      rfl
    · rw [ih, List.reverse_cons, List.append_assoc, List.singleton_append]

/-- A text is written into another as it is. -/
@[simp] theorem toString_text (text : String) : toString text = text := rfl

/-- The text holds the piece, but for blanks. -/
def Shows (text piece : String) : Prop := ink piece <:+: ink text

instance (text piece : String) : Decidable (Shows text piece) :=
  inferInstanceAs (Decidable (ink piece <:+: ink text))

/-- The piece lies across the seam of two texts. -/
def Across (text other piece : String) : Prop :=
  Shows (text ++ other) piece ∧ ¬ (Shows text piece ∨ Shows other piece)

namespace Shows

variable {text other piece : String}

theorem refl (text : String) : Shows text text := List.infix_refl _

theorem of_ink (h : Shows text piece) (hink : ink text <:+: ink other) : Shows other piece :=
  List.IsInfix.trans h hink

/-- What a text without ink shows has none, and is shown by every text. -/
theorem of_empty (h : Shows "" piece) : Shows text piece :=
  h.of_ink List.nil_infix

theorem append_left (h : Shows text piece) : Shows (text ++ other) piece :=
  h.of_ink (by rw [ink_append]; exact List.infix_append_left)

theorem append_right (h : Shows other piece) : Shows (text ++ other) piece :=
  h.of_ink (by rw [ink_append]; exact List.infix_append_right)

end Shows

/-- **A piece of two texts** stands in one of them or lies across their seam. -/
@[simp] theorem shows_append {text other piece : String} :
    Shows (text ++ other) piece ↔ Shows text piece ∨ Shows other piece ∨ Across text other piece := by
  constructor
  · intro h
    by_cases hpart : Shows text piece ∨ Shows other piece
    · exact hpart.imp_right .inl
    · exact .inr (.inr ⟨h, hpart⟩)
  · rintro (h | h | h)
    · exact h.append_left
    · exact h.append_right
    · exact h.1

theorem shows_join_of_mem {texts : List String} {text piece : String} (htext : text ∈ texts)
    (h : Shows text piece) : Shows (String.join texts) piece := by
  induction texts with
  | nil => cases htext
  | cons t rest ih =>
    rw [String.join_cons, shows_append]
    rcases List.mem_cons.mp htext with rfl | hrest
    · exact .inl h
    · exact .inr (.inl (ih hrest))

theorem shows_intercalate {separator : String} {texts : List String} {piece : String}
    (h : ∃ text ∈ texts, Shows text piece) : Shows (separator.intercalate texts) piece := by
  obtain ⟨text, htext, hshows⟩ := h
  induction texts with
  | nil => cases htext
  | cons t rest ih =>
    cases rest with
    | nil =>
      rw [String.intercalate_singleton, ← List.mem_singleton.mp htext]
      exact hshows
    | cons u rest =>
      rw [String.intercalate_cons_cons]
      rcases List.mem_cons.mp htext with rfl | hrest
      · exact hshows.append_left.append_left
      · exact (ih hrest).append_right

end Text

/-! ## Buffers -/

namespace Buffer

open Text (ink Shows)

variable {b : Buffer} {piece : String}

theorem ink_indentation (level : Nat) : ink (indentation level) = [] := by
  unfold indentation
  induction level with
  | zero => rfl
  | succ n ih =>
    rw [List.replicate_succ, String.join_cons, Text.ink_append, ih]
    rfl

@[simp] theorem ink_line (b : Buffer) (text : String) :
    ink (b.line text).text = ink b.text ++ ink text := by
  unfold line raw
  split <;> simp [ink_indentation] <;> rfl

@[simp] theorem ink_lines (b : Buffer) (texts : List String) :
    ink (b.lines texts).text = ink b.text ++ texts.flatMap ink := by
  unfold lines
  induction texts generalizing b with
  | nil => rw [List.foldl_nil, List.flatMap_nil, List.append_nil]
  | cons t rest ih => rw [List.foldl_cons, ih, ink_line, List.flatMap_cons, List.append_assoc]

@[simp] theorem ink_block (b : Buffer) (text : String) :
    ink (b.block text).text = ink b.text ++ ink text := by
  have hrows : ∀ (rows : List (List Char)) (b : Buffer),
      ink (rows.foldl (fun b l =>
        if Text.isBlank l then b.raw "\n" else b.line (String.ofList l)) b).text =
        ink b.text ++ rows.flatMap (List.filter (!Text.isBlankChar ·)) := by
    intro rows
    induction rows with
    | nil => exact fun b => (List.append_nil _).symm
    | cons l rest ih =>
      intro b
      rw [List.foldl_cons, ih, List.flatMap_cons, ← List.append_assoc]
      congr 1
      split
      · -- a blank line is left out, and has no ink
        rename_i hblank
        rw [raw, Text.ink_append, Text.filter_eq_nil_of_isBlank hblank]
        rfl
      · rw [ink_line, Text.ink_ofList]
  rw [block, hrows, Text.lines, Text.flatMap_linesFrom]
  rfl

@[simp] theorem text_indent (b : Buffer) : b.indent.text = b.text := rfl

@[simp] theorem text_dedent (b : Buffer) : b.dedent.text = b.text := rfl

@[simp] theorem shows_line {text : String} :
    Shows (b.line text).text piece ↔ Shows (b.text ++ text) piece := by
  rw [Shows, Shows, ink_line, Text.ink_append]

@[simp] theorem shows_block {text : String} :
    Shows (b.block text).text piece ↔ Shows (b.text ++ text) piece := by
  rw [Shows, Shows, ink_block, Text.ink_append]

@[simp] theorem shows_lines {texts : List String} :
    Shows (b.lines texts).text piece ↔ Shows (b.text ++ String.join texts) piece := by
  rw [Shows, Shows, ink_lines, Text.ink_append, Text.ink_join]

end Buffer

end ClosureConversion
