import ClosureConversion.Text.Lines

/-! # Code buffers -/

set_option autoImplicit false

namespace ClosureConversion

structure Buffer where
  text : String := ""
  level : Nat := 0
  deriving Repr, DecidableEq, Inhabited

namespace Buffer

/-- Four blanks for each level. -/
def indentation (level : Nat) : String := String.join (List.replicate level "    ")

def isEmpty (b : Buffer) : Bool := b.text.isEmpty

/-- Append text as it is. -/
def raw (b : Buffer) (text : String) : Buffer := { b with text := b.text ++ text }

/-- Append one line; an empty line is not indented. -/
def line (b : Buffer) (text : String) : Buffer :=
  b.raw ((if text.isEmpty then "" else indentation b.level) ++ text ++ "\n")

def lines (b : Buffer) (texts : List String) : Buffer := texts.foldl line b

def indent (b : Buffer) : Buffer := { b with level := b.level + 1 }

/-- Level 0 stays. -/
def dedent (b : Buffer) : Buffer := { b with level := b.level - 1 }

/-- Append a text line by line; blank lines become empty. -/
def block (b : Buffer) (text : String) : Buffer :=
  (Text.lines text.toList).foldl
    (fun b l => if Text.isBlank l then b.raw "\n" else b.line (String.ofList l)) b

/-- A header, a body one level deeper, a footer. -/
def nested (b : Buffer) (header footer : String) (body : Buffer → Buffer) : Buffer :=
  (body (b.line header).indent).dedent.line footer

@[simp] theorem level_raw (b : Buffer) (text : String) : (b.raw text).level = b.level := rfl

@[simp] theorem level_line (b : Buffer) (text : String) : (b.line text).level = b.level := rfl

@[simp] theorem level_indent (b : Buffer) : b.indent.level = b.level + 1 := rfl

@[simp] theorem level_dedent (b : Buffer) : b.dedent.level = b.level - 1 := rfl

@[simp] theorem level_lines (b : Buffer) (texts : List String) :
    (b.lines texts).level = b.level := by
  unfold lines
  induction texts generalizing b with
  | nil => rfl
  | cons t rest ih => exact ih (b.line t)

@[simp] theorem level_block (b : Buffer) (text : String) : (b.block text).level = b.level := by
  unfold block
  induction Text.lines text.toList generalizing b with
  | nil => rfl
  | cons l rest ih =>
    rw [List.foldl_cons, ih]
    split <;> rfl

end Buffer

end ClosureConversion
