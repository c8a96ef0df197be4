import ClosureConversion.Code.Buffer

/-! # Moving code to another level -/

set_option autoImplicit false

namespace ClosureConversion

/-! ## Operations -/

/-- One operation of those that write code. -/
inductive Writing where
  | line (text : String)
  | indent
  | dedent
  | nested (header footer : String) (body : List Writing)

namespace Writing

mutual

def run : Writing → Buffer → Buffer
  | .line text, b => b.line text
  | .indent, b => b.indent
  | .dedent, b => b.dedent
  | .nested header footer body, b => b.nested header footer (runAll body)

def runAll : List Writing → Buffer → Buffer
  | [], b => b
  | o :: os, b => runAll os (run o b)

end

/-- One level up, where there is one. -/
def up? : Nat → Option Nat
  | 0 => none
  | d + 1 => some d

mutual

/-- The depth after an operation; there is none if the operation goes up from depth 0. -/
def depth? : Writing → Nat → Option Nat
  | .line _, d => some d
  | .indent, d => some (d + 1)
  | .dedent, d => up? d
  | .nested _ _ body, d => (depthAll? body (d + 1)).bind up?

def depthAll? : List Writing → Nat → Option Nat
  | [], d => some d
  | o :: os, d => (depth? o d).bind (depthAll? os)

end

mutual

/-- The lines that are written. -/
def texts : Writing → List String
  | .line text => [text]
  | .indent => []
  | .dedent => []
  | .nested header footer body => header :: textsAll body ++ [footer]

def textsAll : List Writing → List String
  | [] => []
  | o :: os => texts o ++ textsAll os

end

end Writing

/-! ## Lines and rows -/

/-- A text that stands on one line and is the same line when it is read again. -/
structure IsLine (text : String) : Prop where
  newline : '\n' ∉ text.toList
  ending : text.toList.getLast? ≠ some '\r'
  /-- Something can be seen on it, unless it is empty. -/
  visible : text = "" ∨ Text.isBlank text.toList = false

instance (text : String) : Decidable (IsLine text) :=
  decidable_of_iff ('\n' ∉ text.toList ∧ text.toList.getLast? ≠ some '\r' ∧
      (text = "" ∨ Text.isBlank text.toList = false))
    ⟨fun h => ⟨h.1, h.2.1, h.2.2⟩, fun h => ⟨h.newline, h.ending, h.visible⟩⟩

namespace Buffer

/-- A line at a level, with its end. -/
def lineText (level : Nat) (text : String) : String :=
  (if text.isEmpty then "" else indentation level) ++ text ++ "\n"

/-- Lines with their depths, written from a level on. -/
def rowsText (level : Nat) (rows : List (Nat × String)) : String :=
  String.join (rows.map fun r => lineText (level + r.1) r.2)

theorem line_eq_raw (b : Buffer) (text : String) : b.line text = b.raw (lineText b.level text) :=
  rfl

theorem lineText_empty (level : Nat) : lineText level "" = "\n" := by
  simp [lineText]

theorem indentation_add (j k : Nat) : indentation (j + k) = indentation j ++ indentation k := by
  rw [indentation, ← List.replicate_append_replicate, String.join_append]
  rfl

theorem rowsText_append (level : Nat) (rows rows' : List (Nat × String)) :
    rowsText level (rows ++ rows') = rowsText level rows ++ rowsText level rows' := by
  rw [rowsText, List.map_append, String.join_append]
  rfl

theorem rowsText_cons (level : Nat) (row : Nat × String) (rows : List (Nat × String)) :
    rowsText level (row :: rows) = lineText (level + row.1) row.2 ++ rowsText level rows := by
  rw [rowsText, List.map_cons, String.join_cons]
  rfl

end Buffer

/-! ## What operations write -/

namespace Writing

open Buffer (lineText rowsText)

/-- What is written by operations that lead from one depth to another, whatever the level is from
which the depths are counted. -/
def Writes (f : Buffer → Buffer) (d e : Nat) (rows : List (Nat × String)) : Prop :=
  ∀ level text, f ⟨text, level + d⟩ = ⟨text ++ rowsText level rows, level + e⟩

theorem up?_eq_some {d e : Nat} : up? d = some e ↔ d = e + 1 := by
  cases d <;> simp [up?, eq_comm]

theorem Writes.comp {f g : Buffer → Buffer} {d e k : Nat} {rows rows' : List (Nat × String)}
    (hf : Writes f d e rows) (hg : Writes g e k rows') :
    Writes (fun b => g (f b)) d k (rows ++ rows') := by
  intro level text
  dsimp only
  rw [hf, hg, Buffer.rowsText_append, String.append_assoc]

theorem writes_line (text : String) (d : Nat) : Writes (·.line text) d d [(d, text)] := by
  intro level front
  dsimp only
  rw [Buffer.line_eq_raw, Buffer.rowsText_cons]
  simp [Buffer.raw, rowsText]

theorem writes_indent (d : Nat) : Writes Buffer.indent d (d + 1) [] := by
  intro level front
  simp [Buffer.indent, rowsText, Nat.add_assoc]

theorem writes_dedent (d : Nat) : Writes Buffer.dedent (d + 1) d [] := by
  intro level front
  simp [Buffer.dedent, rowsText, ← Nat.add_assoc]

mutual

theorem run_rows {d e : Nat} : ∀ o : Writing, depth? o d = some e →
    ∃ rows, (∀ r ∈ rows, r.2 ∈ texts o) ∧ Writes (run o) d e rows
  | .line text, h => by
    cases h
    exact ⟨[(d, text)], by simp [texts], writes_line text d⟩
  | .indent, h => by
    cases h
    exact ⟨[], by simp, writes_indent d⟩
  | .dedent, h => by
    obtain rfl := up?_eq_some.mp h
    exact ⟨[], by simp, writes_dedent e⟩
  | .nested header footer body, h => by
    obtain ⟨d', hbody, hup⟩ := Option.bind_eq_some_iff.mp h
    obtain rfl := up?_eq_some.mp hup
    obtain ⟨rows, hrows, hwrites⟩ := runAll_rows body hbody
    have hopen := (writes_line header d).comp (writes_indent d)
    have hclose := (writes_dedent e).comp (writes_line footer e)
    refine ⟨_, ?_, (hopen.comp hwrites).comp hclose⟩
    intro r hr
    simp only [List.append_nil, List.nil_append, List.mem_append, List.mem_singleton] at hr
    rcases hr with (rfl | hr) | rfl
    · simp [texts]
    · simp [texts, hrows r hr]
    · simp [texts]

theorem runAll_rows {d e : Nat} : ∀ os : List Writing, depthAll? os d = some e →
    ∃ rows, (∀ r ∈ rows, r.2 ∈ textsAll os) ∧ Writes (runAll os) d e rows
  | [], h => by
    cases h
    exact ⟨[], by simp, fun level text => by simp [runAll, rowsText]⟩
  | o :: os, h => by
    obtain ⟨d', ho, hos⟩ := Option.bind_eq_some_iff.mp h
    obtain ⟨first, hfirst, hwrites⟩ := run_rows o ho
    obtain ⟨rest, hrest, hwrites'⟩ := runAll_rows os hos
    refine ⟨first ++ rest, ?_, hwrites.comp hwrites'⟩
    intro r hr
    rw [textsAll, List.mem_append]
    exact (List.mem_append.mp hr).imp (hfirst r) (hrest r)

end

end Writing

/-! ## Moving rows -/

namespace Text

theorem linesFrom_append_newline {l : List Char} (h : '\n' ∉ l) (start rest : List Char) :
    linesFrom start (l ++ '\n' :: rest) = endOfLine (l.reverse ++ start) :: lines rest := by
  induction l generalizing start with
  | nil => rfl
  | cons c l ih =>
    simp only [List.mem_cons, not_or] at h
    rw [List.cons_append, linesFrom, if_neg (Ne.symm h.1), ih h.2]
    simp

theorem endOfLine_reverse {l : List Char} (h : l.getLast? ≠ some '\r') :
    endOfLine l.reverse = l := by
  rw [List.getLast?_eq_head?_reverse] at h
  unfold endOfLine
  split
  · rename_i rest heq
    exact absurd (by rw [heq]; rfl) h
  · exact l.reverse_reverse

/-- The first line of a text. -/
theorem lines_append_newline {l : List Char} (hnewline : '\n' ∉ l)
    (hending : l.getLast? ≠ some '\r') (rest : List Char) :
    lines (l ++ '\n' :: rest) = l :: lines rest := by
  rw [lines, linesFrom_append_newline hnewline, List.append_nil, endOfLine_reverse hending]

end Text

namespace Buffer

theorem eq_blank_of_mem_indentation {level : Nat} {c : Char}
    (h : c ∈ (indentation level).toList) : c = ' ' := by
  induction level with
  | zero => cases h
  | succ n ih =>
    rw [indentation_add, String.toList_append, List.mem_append] at h
    rcases h with h | h
    · exact ih h
    · simpa [indentation] using h

/-- A line with its indentation is one line, and it is not blank. -/
theorem lines_indented {text : String} (h : IsLine text) (hne : text ≠ "") (level : Nat)
    (rest : List Char) :
    Text.lines ((indentation level ++ text).toList ++ '\n' :: rest) =
        (indentation level ++ text).toList :: Text.lines rest ∧
      Text.isBlank (indentation level ++ text).toList = false := by
  have hchars : text.toList ≠ [] := by simpa using hne
  rw [String.toList_append]
  refine ⟨Text.lines_append_newline ?_ ?_ rest, ?_⟩
  · rw [List.mem_append, not_or]
    exact ⟨fun hmem => absurd (eq_blank_of_mem_indentation hmem) (by decide), h.newline⟩
  · obtain ⟨last, hlast⟩ : ∃ last, text.toList.getLast? = some last :=
      ⟨_, List.getLast?_eq_some_getLast hchars⟩
    rw [List.getLast?_append, hlast, Option.some_or, ← hlast]
    exact h.ending
  · have hvisible : text.toList.all Text.isBlankChar = false := h.visible.resolve_left hne
    rw [Text.isBlank, List.all_append, hvisible, Bool.and_false]

/-- Moving a text takes its lines one by one. -/
theorem block_lineText_append {text : String} (h : IsLine text) (b : Buffer) (level : Nat)
    (rest : String) : b.block (lineText level text ++ rest) =
      (b.raw (lineText (b.level + level) text)).block rest := by
  by_cases hne : text = ""
  · have hlines : Text.lines (lineText level "" ++ rest).toList = [] :: Text.lines rest.toList := by
      rw [lineText_empty, String.toList_append]
      exact Text.lines_append_newline (l := []) (by simp) (by simp) rest.toList
    rw [hne, block, hlines, List.foldl_cons, lineText_empty]
    rfl
  have hempty : text.isEmpty = false := by simpa using hne
  have hmoved : lineText b.level (indentation level ++ text) = lineText (b.level + level) text := by
    have hlong : (indentation level ++ text).isEmpty = false := by simp [hne]
    rw [lineText, lineText, hempty, hlong, indentation_add]
    simp [String.append_assoc]
  have hlines : Text.lines (lineText level text ++ rest).toList =
      (indentation level ++ text).toList :: Text.lines rest.toList := by
    rw [← (lines_indented h hne level rest.toList).1, lineText, hempty]
    simp
  rw [block, hlines, List.foldl_cons, (lines_indented h hne level rest.toList).2,
    String.ofList_toList, if_neg Bool.false_ne_true, line_eq_raw, hmoved]
  rfl

/-- Rows move as a whole. -/
theorem block_rowsText {rows : List (Nat × String)} (h : ∀ r ∈ rows, IsLine r.2) (b : Buffer)
    (level : Nat) :
    b.block (rowsText level rows) = b.raw (rowsText (b.level + level) rows) := by
  induction rows generalizing b with
  | nil => simp [rowsText, block, raw]
  | cons r rows ih =>
    rw [rowsText_cons, block_lineText_append (h r List.mem_cons_self),
      ih fun r' hr' => h r' (List.mem_cons_of_mem _ hr'), rowsText_cons]
    simp [raw, String.append_assoc, Nat.add_assoc]

end Buffer

/-- **Writing elsewhere and moving is writing in place.** Operations that never go up from where
they started, and write nothing but proper lines, are run on an empty buffer. Moving the text into
a buffer at any level appends what the operations would have written there. Hence moving the text
to one level and the outcome to another is moving it to the sum of both. -/
theorem block_composes {os : List Writing} (hdepth : (Writing.depthAll? os 0).isSome)
    (hlines : ∀ t ∈ Writing.textsAll os, IsLine t) :
    let text := (Writing.runAll os {}).text
    (∀ b : Buffer, (b.block text).text = (Writing.runAll os b).text) ∧
    ∀ (b : Buffer) (j : Nat), (b.block (({ level := j } : Buffer).block text).text).text =
      (({ b with level := j + b.level } : Buffer).block text).text := by
  intro text
  obtain ⟨d, hd⟩ := Option.isSome_iff_exists.mp hdepth
  obtain ⟨rows, hrows, hwrites⟩ := Writing.runAll_rows os hd
  have hproper : ∀ r ∈ rows, IsLine r.2 := fun r hr => hlines r.2 (hrows r hr)
  have htext : text = Buffer.rowsText 0 rows := by
    have hrun := congrArg Buffer.text (hwrites 0 "")
    rwa [String.empty_append] at hrun
  have hmove : ∀ b : Buffer, (b.block text).text = b.text ++ Buffer.rowsText b.level rows := by
    intro b
    rw [htext, Buffer.block_rowsText hproper]
    rfl
  refine ⟨fun b => ?_, fun b j => ?_⟩
  · rw [hmove]
    exact (congrArg Buffer.text (hwrites b.level b.text)).symm
  · rw [hmove, hmove, String.empty_append, Buffer.block_rowsText hproper, Nat.add_comm j]
    rfl

/-- A body that leaves the level at which it was opened, below a line that stays empty. -/
theorem block_composes_stepping :
    let os : List Writing :=
      [.line "", .indent, .nested "if (a) \x7b" "\x7d" [.dedent, .line "b();"]]
    let text := (Writing.runAll os {}).text
    let b : Buffer := ⟨"c();\n", 2⟩
    text = "\n    if (a) \x7b\n    b();\n\x7d\n" ∧
      (b.block text).text = (Writing.runAll os b).text ∧
      (b.block ((⟨"", 1⟩ : Buffer).block text).text).text =
        ((⟨"c();\n", 3⟩ : Buffer).block text).text := by
  intro os text b
  have hdepth : (Writing.depthAll? os 0).isSome := by decide
  have hlines : ∀ t ∈ Writing.textsAll os, IsLine t := by
    intro t ht
    have ht : t ∈ ["", "if (a) \x7b", "b();", "\x7d"] := ht
    simp only [List.mem_cons, List.not_mem_nil, or_false] at ht
    rcases ht with rfl | rfl | rfl | rfl <;> decide
  obtain ⟨hplace, htwice⟩ := block_composes hdepth hlines
  exact ⟨by decide, hplace b, htwice b 1⟩

end ClosureConversion
