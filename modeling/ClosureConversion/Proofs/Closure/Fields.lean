import Mathlib.Data.List.Nodup
import ClosureConversion.Closure.Layout

/-! # Fields of environments -/

set_option autoImplicit false

namespace ClosureConversion

/-! ## Field names -/

namespace Capture

theorem fieldName_of_mem {name : String} (h : name ∈ reservedFields) :
    fieldName name = name ++ "_" := by
  have hc : reservedFields.contains name = true := List.contains_iff_mem.mpr h
  unfold fieldName
  rw [if_pos hc]
  rfl

theorem fieldName_of_notMem {name : String} (h : name ∉ reservedFields) :
    fieldName name = name := by
  have hc : ¬ reservedFields.contains name = true := fun c => h (List.contains_iff_mem.mp c)
  unfold fieldName
  rw [if_neg hc]

/-- An underscore behind a reserved name makes a name that is free. -/
theorem suffixed_notMem_reservedFields {name : String} (h : name ∈ reservedFields) :
    name ++ "_" ∉ reservedFields := by
  revert name
  decide

theorem fieldName_notMem_reservedFields (name : String) : fieldName name ∉ reservedFields := by
  by_cases h : name ∈ reservedFields
  · rw [fieldName_of_mem h]
    exact suffixed_notMem_reservedFields h
  · rwa [fieldName_of_notMem h]

/-- Two names share a field name only if one of them is reserved and the other one is spelled
like the field that stands for it. -/
theorem fieldName_eq_iff {a b : String} : fieldName a = fieldName b ↔
    a = b ∨ (a ∈ reservedFields ∧ b = a ++ "_") ∨ (b ∈ reservedFields ∧ a = b ++ "_") := by
  constructor
  · intro h
    by_cases ha : a ∈ reservedFields <;> by_cases hb : b ∈ reservedFields
    · rw [fieldName_of_mem ha, fieldName_of_mem hb, String.append_left_inj] at h
      exact .inl h
    · rw [fieldName_of_mem ha, fieldName_of_notMem hb] at h
      exact .inr (.inl ⟨ha, h.symm⟩)
    · rw [fieldName_of_notMem ha, fieldName_of_mem hb] at h
      exact .inr (.inr ⟨hb, h⟩)
    · rw [fieldName_of_notMem ha, fieldName_of_notMem hb] at h
      exact .inl h
  · rintro (rfl | ⟨ha, rfl⟩ | ⟨hb, rfl⟩)
    · rfl
    · rw [fieldName_of_mem ha, fieldName_of_notMem (suffixed_notMem_reservedFields ha)]
    · rw [fieldName_of_mem hb, fieldName_of_notMem (suffixed_notMem_reservedFields hb)]

theorem fieldLine_ne_empty (c : Capture) : c.fieldLine ≠ "" := by
  intro h
  have hcomma : toString "," = "" := (String.append_eq_empty_iff.mp h).2
  exact absurd hcomma (by decide)

end Capture

namespace CaptureSet

/-- The names of the fields that hold the captured variables, in order. -/
def fieldNames (s : CaptureSet) : List String := s.toList.map fun c => Capture.fieldName c.name

/-- The fields as they are written in a struct at container level. -/
def fieldsText (s : CaptureSet) : String :=
  String.join (s.toList.map fun c => s!"    {Capture.fieldName c.name}: {c.fieldType}," ++ "\n")

theorem fieldNames_eq (s : CaptureSet) : s.fieldNames = s.names.map Capture.fieldName := by
  simp [fieldNames, names]

theorem nodup_fieldNames_iff (s : CaptureSet) : s.fieldNames.Nodup ↔
    ∀ r ∈ Capture.reservedFields, r ∈ s.names → r ++ "_" ∉ s.names := by
  have hnames : s.names.Nodup := s.nodup
  rw [fieldNames_eq, List.nodup_map_iff_inj_on hnames]
  constructor
  · intro hinj r hr hmem hsuffixed
    have heq : r = r ++ "_" :=
      hinj r hmem _ hsuffixed (Capture.fieldName_eq_iff.mpr (.inr (.inl ⟨hr, rfl⟩)))
    exact Capture.suffixed_notMem_reservedFields hr (heq ▸ hr)
  · intro hapart a ha b hb heq
    rcases Capture.fieldName_eq_iff.mp heq with h | ⟨hr, rfl⟩ | ⟨hr, rfl⟩
    · exact h
    · exact absurd hb (hapart a hr ha)
    · exact absurd ha (hapart b hr hb)

theorem notMem_reservedFields_of_mem_fieldNames {s : CaptureSet} {name : String}
    (h : name ∈ s.fieldNames) : name ∉ Capture.reservedFields := by
  obtain ⟨c, -, rfl⟩ := List.mem_map.mp h
  exact Capture.fieldName_notMem_reservedFields c.name

end CaptureSet

/-! ## Written text -/

namespace Buffer

/-- The buffer with a text in front of what it holds. -/
def after (front : String) (b : Buffer) : Buffer := { b with text := front ++ b.text }

@[simp] theorem text_after (front : String) (b : Buffer) : (b.after front).text = front ++ b.text :=
  rfl

theorem eq_after (b : Buffer) : b = after b.text ⟨"", b.level⟩ := by
  simp [after]

theorem line_after (front text : String) (b : Buffer) :
    (b.after front).line text = (b.line text).after front := by
  simp [line, raw, after, String.append_assoc]

theorem block_after (front text : String) (b : Buffer) :
    (b.after front).block text = (b.block text).after front := by
  unfold block
  induction Text.lines text.toList generalizing b with
  | nil => rfl
  | cons l rest ih =>
    rw [List.foldl_cons, List.foldl_cons, ← ih]
    congr 1
    split
    · simp [raw, after, String.append_assoc]
    · exact line_after front _ b

/-- What stands before a nested text has no part in it, if it has none in its body. -/
theorem nested_after {body : Buffer → Buffer}
    (hbody : ∀ front b, body (after front b) = after front (body b))
    (front header footer : String) (b : Buffer) :
    (b.after front).nested header footer body = (b.nested header footer body).after front := by
  unfold nested
  rw [line_after, show ((b.line header).after front).indent = (b.line header).indent.after front
    from rfl, hbody]
  exact line_after front footer (body (b.line header).indent).dedent

theorem text_lines (b : Buffer) {texts : List String} (h : ∀ t ∈ texts, t ≠ "") :
    (b.lines texts).text =
      b.text ++ String.join (texts.map fun t => indentation b.level ++ t ++ "\n") := by
  unfold lines
  induction texts generalizing b with
  | nil => simp
  | cons t rest ih =>
    have ht : t.isEmpty = false := by simpa using h t List.mem_cons_self
    rw [List.foldl_cons, ih (b.line t) fun u hu => h u (List.mem_cons_of_mem _ hu)]
    simp [line, raw, ht, String.append_assoc]

end Buffer

namespace Closure

theorem routineText_after (keyword name : String) (params : List String) (result body front : String)
    (out : Buffer) : routineText keyword name params result body (out.after front) =
      (routineText keyword name params result body out).after front :=
  Buffer.nested_after (fun front b => Buffer.block_after front body b) ..

theorem forwarder_after (params : List String) (result target : String) (args : List String)
    (front : String) (out : Buffer) : forwarder params result target args (out.after front) =
      (forwarder params result target args out).after front :=
  Buffer.nested_after (fun front b => Buffer.line_after front _ b) ..

/-- The lines of the fields, at the level of a struct's members. -/
theorem text_fieldLines (captures : CaptureSet) (b : Buffer) (hlevel : b.level = 1) :
    (b.lines (captures.toList.map Capture.fieldLine)).text = b.text ++ captures.fieldsText := by
  have hne : ∀ t ∈ captures.toList.map Capture.fieldLine, t ≠ "" := by
    intro t ht
    obtain ⟨c, -, rfl⟩ := List.mem_map.mp ht
    exact Capture.fieldLine_ne_empty c
  have hline : ∀ c : Capture, Buffer.indentation 1 ++ c.fieldLine ++ "\n" =
      s!"    {Capture.fieldName c.name}: {c.fieldType}," ++ "\n" := by
    intro c
    simp only [Capture.fieldLine, String.append_assoc]
    rfl
  rw [Buffer.text_lines b hne, hlevel, List.map_map]
  exact congrArg (fun f => b.text ++ String.join (captures.toList.map f)) (funext hline)

theorem text_header (name : String) :
    (({} : Buffer).line s!"const {name} = struct \x7b").text =
      s!"const {name} = struct \x7b" ++ "\n" := by
  have hbrace : toString " = struct \x7b" ≠ "" := by decide
  have hne : (s!"const {name} = struct \x7b").isEmpty = false := by simp [hbrace]
  rw [Buffer.line, hne]
  simp [Buffer.raw, Buffer.indentation]

/-- A struct of fields at container level. -/
theorem text_struct (name : String) (captures : CaptureSet) :
    (Buffer.nested {} s!"const {name} = struct \x7b" "\x7d;"
      (·.lines (captures.toList.map Capture.fieldLine))).text =
      s!"const {name} = struct \x7b" ++ "\n" ++ captures.fieldsText ++ "\x7d;\n" := by
  have hfields := text_fieldLines captures
    (({} : Buffer).line s!"const {name} = struct \x7b").indent rfl
  rw [show (({} : Buffer).line s!"const {name} = struct \x7b").indent.text =
    (({} : Buffer).line s!"const {name} = struct \x7b").text from rfl, text_header] at hfields
  rw [← hfields, Buffer.nested, Buffer.line, Buffer.raw]
  simp [Buffer.dedent, Buffer.indentation, String.append_assoc]

/-- A routine among the members of a struct opens with its name. -/
theorem text_routineText (keyword name : String) (params : List String) (result body : String) :
    ∃ rest, (routineText keyword name params result body ⟨"", 1⟩).text =
      s!"    {keyword} {name}(" ++ rest := by
  have hbrace : toString " \x7b" ≠ "" := by decide
  have hne : (s!"{keyword} {name}({Code.commas params}) {result} \x7b").isEmpty = false := by
    simp [hbrace]
  have hopen : ((⟨"", 1⟩ : Buffer).line s!"{keyword} {name}({Code.commas params}) {result} \x7b") =
      (⟨"", 1⟩ : Buffer).after (s!"    {keyword} {name}(" ++
        s!"{Code.commas params}) {result} \x7b\n") := by
    rw [Buffer.line, hne]
    simp only [Buffer.raw, Buffer.after, String.append_assoc, String.empty_append]
    rfl
  unfold routineText Buffer.nested
  rw [hopen]
  show ∃ rest, (Buffer.line (Buffer.dedent (Buffer.block ((⟨"", 2⟩ : Buffer).after _) body)) _).text = _
  rw [Buffer.block_after]
  show ∃ rest, (Buffer.line ((Buffer.dedent (Buffer.block ⟨"", 2⟩ body)).after _) _).text = _
  rw [Buffer.line_after, Buffer.text_after, String.append_assoc]
  exact ⟨_, rfl⟩

variable (wrapper result : String) (p : Parts)

/-- The environment of a closure holds the fields of its captures and nothing else. -/
theorem text_environment (env implementation : String) : ∃ rest, ∀ captures : CaptureSet,
    (declarations wrapper (.environment env implementation) captures p result).text =
      s!"const {env} = struct \x7b" ++ "\n" ++ captures.fieldsText ++ "\x7d;\n" ++ rest := by
  obtain ⟨members, hafter, heq⟩ : ∃ members : Buffer → Buffer,
      (∀ front b, members (b.after front) = (members b).after front) ∧ ∀ captures : CaptureSet,
        declarations wrapper (.environment env implementation) captures p result =
          ((Buffer.nested {} s!"const {env} = struct \x7b" "\x7d;"
            (·.lines (captures.toList.map Capture.fieldLine))).line "").nested
              s!"const {wrapper} = struct \x7b" "\x7d;" members := by
    refine ⟨?members, ?after, ?eq⟩
    case eq =>
      intro captures
      unfold declarations
      rfl
    case after =>
      intro front b
      simp only [Buffer.line_after, routineText_after, forwarder_after]
  refine ⟨"\n" ++ (Buffer.nested {} s!"const {wrapper} = struct \x7b" "\x7d;" members).text, ?_⟩
  intro captures
  have hlevel : (Buffer.nested {} s!"const {env} = struct \x7b" "\x7d;"
      (·.lines (captures.toList.map Capture.fieldLine))).level = 0 := by
    simp [Buffer.nested]
  rw [heq, Buffer.eq_after (Buffer.nested {} s!"const {env} = struct \x7b" _ _), hlevel,
    Buffer.line_after, Buffer.nested_after hafter, Buffer.text_after, text_struct,
    show (⟨"", 0⟩ : Buffer).line "" = ({} : Buffer).after "\n" from rfl,
    Buffer.nested_after hafter, Buffer.text_after]

/-- The fields of a recursive wrapper, with an empty line behind them. -/
theorem members_aggregate (captures : CaptureSet) :
    (if captures.isEmpty then (({} : Buffer).line s!"const {wrapper} = struct \x7b").indent
      else (((({} : Buffer).line s!"const {wrapper} = struct \x7b").indent.lines
        (captures.toList.map Capture.fieldLine)).line "")) =
      (⟨"", 1⟩ : Buffer).after (s!"const {wrapper} = struct \x7b" ++ "\n" ++
        (if captures.isEmpty then "" else captures.fieldsText ++ "\n")) := by
  have hopen : (({} : Buffer).line s!"const {wrapper} = struct \x7b").indent =
      (⟨"", 1⟩ : Buffer).after (s!"const {wrapper} = struct \x7b" ++ "\n") := by
    rw [← text_header, Buffer.eq_after (Buffer.indent _)]
    rfl
  rw [hopen]
  split
  · simp
  · rw [Buffer.eq_after (Buffer.lines _ _), text_fieldLines captures _ rfl]
    simp [Buffer.line, Buffer.raw, Buffer.after, String.append_assoc]

/-- A recursive wrapper holds the fields of its captures and the routine `call`. -/
theorem text_aggregate : ∃ rest, ∀ captures : CaptureSet,
    (declarations wrapper .aggregate captures p result).text =
      s!"const {wrapper} = struct \x7b" ++ "\n"
        ++ (if captures.isEmpty then "" else captures.fieldsText ++ "\n")
        ++ "    pub fn call(" ++ rest := by
  obtain ⟨rest, hcall⟩ := text_routineText "pub fn" "call"
    (s!"{p.receiver p.selfParam}: *const @This()" :: p.formals.map Formal.bodyParam) result p.body
  refine ⟨rest ++ "\x7d;\n", ?_⟩
  intro captures
  unfold declarations Buffer.nested
  show (Buffer.line (Buffer.dedent (routineText _ _ _ _ _ (ite _ _ _))) _).text = _
  rw [members_aggregate, routineText_after]
  have hlevel : (routineText "pub fn" "call"
      (s!"{p.receiver p.selfParam}: *const @This()" :: p.formals.map Formal.bodyParam)
      result p.body ⟨"", 1⟩).level = 1 := by
    simp [routineText, Buffer.nested]
  rw [Buffer.line, Buffer.raw]
  simp only [Buffer.dedent, Buffer.after, hlevel, hcall, String.append_assoc]
  rfl

end Closure

/-- **Captured variables keep fields of their own, unless an underscore joins them.** No field has
the name of a member of wrappers. The fields that are written, in an environment or in a
recursive wrapper, are pairwise distinct if and only if no captured variable is named like a
member while another one is named like the field that stands for it. -/
theorem fields_distinct_iff (wrapper result : String) (p : Closure.Parts) :
    (∀ env implementation, ∃ rest, ∀ captures : CaptureSet,
      (Closure.declarations wrapper (.environment env implementation) captures p result).text =
        s!"const {env} = struct \x7b" ++ "\n" ++ captures.fieldsText ++ "\x7d;\n" ++ rest) ∧
    (∃ rest, ∀ captures : CaptureSet,
      (Closure.declarations wrapper .aggregate captures p result).text =
        s!"const {wrapper} = struct \x7b" ++ "\n"
          ++ (if captures.isEmpty then "" else captures.fieldsText ++ "\n")
          ++ "    pub fn call(" ++ rest) ∧
    ∀ captures : CaptureSet,
      (∀ name ∈ captures.fieldNames, name ∉ Capture.reservedFields) ∧
      (captures.fieldNames.Nodup ↔
        ∀ r ∈ Capture.reservedFields, r ∈ captures.names → r ++ "_" ∉ captures.names) :=
  ⟨fun env implementation => Closure.text_environment wrapper result p env implementation,
    Closure.text_aggregate wrapper result p,
    fun captures => ⟨fun _ h => CaptureSet.notMem_reservedFields_of_mem_fieldNames h,
      captures.nodup_fieldNames_iff⟩⟩

example : CaptureSet.fieldNames ⟨[⟨"env", .param, .int, .byValue, "env"⟩,
    ⟨"env_", .param, .int, .byValue, "env_"⟩], by decide⟩ = ["env_", "env_"] := by
  decide

end ClosureConversion
