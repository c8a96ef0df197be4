import ClosureConversion.Emit.Stmt
import ClosureConversion.Proofs.Text.Ink

/-! # What notes say of the text -/

set_option autoImplicit false

namespace ClosureConversion

namespace Exit

/-- How an exit is written; that of an expression is a piece of a line. An error that a `try` body
around takes is stored, and the block of that body is left. Any other goes to the caller. -/
def lines : Exit → List String
  | .failing ⟨_, target :: _⟩ value =>
    [s!"({value} catch |__e| \x7b {target.slot} = __e; break :{target.label}; \x7d)"]
  | .failing ⟨_, []⟩ value => [s!"try {value}"]
  | .raising ⟨_, target :: _⟩ error => [s!"{target.slot} = {error};", s!"break :{target.label};"]
  | .raising ⟨_, []⟩ error => [s!"return {error};"]
  | .result (some value) => [s!"return {value};"]
  | .result none => ["return;"]
  | .jump _ keyword => [s!"{keyword};"]

def text (e : Exit) : String := "\n".intercalate e.lines

theorem ink_text (e : Exit) : Text.ink e.text = e.lines.flatMap Text.ink := by
  rw [text]
  induction e.lines with
  | nil => rfl
  | cons t rest ih =>
    cases rest with
    | nil => rw [String.intercalate_singleton, List.flatMap_singleton]
    | cons u rest =>
      rw [String.intercalate_cons_cons, Text.ink_append, Text.ink_append, ih, List.flatMap_cons]
      exact congrArg (· ++ _) (List.append_nil _)

/-- A `return` with a value is one line. -/
theorem text_result (value : String) : (result (some value)).text = s!"return {value};" :=
  String.intercalate_singleton

end Exit

/-- The keyword of the line that introduces what has this form, if there is such a line. -/
def SlotForm.keyword? : SlotForm → Option String
  | .declared true | .hoisted | .counter | .formal true => some "var"
  | .declared false => some "const"
  | .formal false | .payload | .field _ | .receiver | .container => none

/-- The piece of text that a note stands for; an operand that was dropped has none. -/
def Note.text? : Note → Option String
  | .exit e => some e.text
  | .handled target payload => some s!"if ({target.slot}) |{payload}| \x7b"
  | .introduced slot rest => slot.form.keyword?.map fun keyword => s!"{keyword} {slot.ident}{rest}"
  | .stored line => some (line.ident ++ line.rest)
  | .queued text => some text
  | .dropped _ => none

namespace Note

def queued? : Note → Option String
  | .queued text => some text
  | _ => none

/-- The note is of a piece of an expression. Any other is of lines. -/
def isInline : Note → Bool
  | .exit (.failing _ _) => true
  | _ => false

/-- A variable or a constant that is declared with a value. -/
theorem text?_declared (ident rest : String) (isMutable : Bool) :
    (introduced ⟨ident, .declared isMutable⟩ rest).text? =
      some s!"{Code.keyword isMutable} {ident}{rest}" := by
  cases isMutable <;> rfl

/-- A variable whose form says that it may be stored to. -/
theorem text?_var {form : SlotForm} (hform : form.keyword? = some "var") (ident rest : String) :
    (introduced ⟨ident, form⟩ rest).text? = some ("var " ++ ident ++ rest) := by
  rw [text?, hform]
  rfl

end Note

namespace Context

/-- The context after something was noted. -/
def noted (c : Context) (n : Note) : Context :=
  { c with current := { c.current with notes := n :: c.current.notes } }

/-- An operation is written as failing. -/
def faulted (op : Operation) (exit : Fault → Exit) (c : Context) : Context :=
  { c with current := { c.current with
      notes := .exit (exit ⟨op, c.current.catches⟩) :: c.current.notes
      failed := c.current.failed || c.current.catches.isEmpty } }

end Context

namespace Emit

/-- **What is noted of a failing expression is what is written for it.** -/
theorem fallible_eq (op : Operation) (text : String) (w : Settings) (c : Context) :
    fallible op text w c =
      (.ok (Exit.text (.failing ⟨op, c.current.catches⟩ text)), c.faulted op (.failing · text)) := by
  unfold fallible Context.faulted
  rw [bind_apply, show leaveByError op (.failing · text) w c = (.ok c.current.catches, _) from rfl]
  cases hcatches : c.current.catches with
  | nil =>
    dsimp only [markFailed, modifyCurrent, modify, bind_apply]
    rw [List.isEmpty_nil, Bool.or_true]
    rfl
  | cons target rest =>
    rw [List.isEmpty_cons, Bool.or_false]
    rfl

/-- **What is noted of an error that is raised is what is written for it.** -/
theorem errorExit_eq (op : Operation) (error : String) (out : Buffer) (w : Settings)
    (c : Context) :
    errorExit op error out w c =
      (.ok (out.lines (Exit.lines (.raising ⟨op, c.current.catches⟩ error))),
        c.faulted op (.raising · error)) := by
  unfold errorExit Context.faulted
  rw [bind_apply, show leaveByError op (.raising · error) w c = (.ok c.current.catches, _) from rfl]
  cases hcatches : c.current.catches with
  | nil =>
    dsimp only [markFailed, modifyCurrent, modify, bind_apply]
    rw [List.isEmpty_nil, Bool.or_true]
    rfl
  | cons target rest =>
    rw [List.isEmpty_cons, Bool.or_false]
    rfl

/-- What is noted of a `return` is its line. -/
theorem returning_eq (value : Option String) (out : Buffer) (w : Settings) (c : Context) :
    returning value out w c =
      (.ok (out.lines (Exit.lines (.result value))), c.noted (.exit (.result value))) := by
  cases value <;> rfl

/-- What is noted of a jump is its line, with the loops around. -/
theorem jump_eq (keyword : String) (out : Buffer) (w : Settings) (c : Context) :
    jump keyword out w c = (.ok (out.lines (Exit.lines (.jump c.current.loops keyword))),
      c.noted (.exit (.jump c.current.loops keyword))) := rfl

end Emit

end ClosureConversion
