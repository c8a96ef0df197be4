import ClosureConversion.Text.Words

/-! # Whole words are never missed -/

set_option autoImplicit false

namespace ClosureConversion.Text

/-- ASCII letters, digits and the underscore. -/
def IsWordChar (c : Char) : Prop :=
  ('A' ≤ c ∧ c ≤ 'Z') ∨ ('a' ≤ c ∧ c ≤ 'z') ∨ ('0' ≤ c ∧ c ≤ '9') ∨ c = '_'

theorem isWordChar_iff {c : Char} : isWordChar c = true ↔ IsWordChar c := by
  have hbetween : ∀ low high : Char,
      (decide (low ≤ c) && decide (c ≤ high)) = true ↔ low ≤ c ∧ c ≤ high := fun low high => by
    rw [Bool.and_eq_true, decide_eq_true_iff, decide_eq_true_iff]
  have hupper : c.isUpper = true ↔ 'A' ≤ c ∧ c ≤ 'Z' := decide_eq_true_iff
  have hlower : c.isLower = true ↔ 'a' ≤ c ∧ c ≤ 'z' := hbetween 'a' 'z'
  have hdigit : c.isDigit = true ↔ '0' ≤ c ∧ c ≤ '9' := hbetween '0' '9'
  have hunfold : isWordChar c = (((c.isUpper || c.isLower) || c.isDigit) || c == '_') := rfl
  rw [hunfold, Bool.or_eq_true, Bool.or_eq_true, Bool.or_eq_true, hupper, hlower, hdigit,
    beq_iff_eq, or_assoc, or_assoc, IsWordChar]

theorem bounds_iff {c? : Option Char} : bounds c? = true ↔ ∀ c, c? = some c → ¬ IsWordChar c := by
  cases c? with
  | none => exact iff_of_true rfl fun _ h => nomatch h
  | some d => simp [bounds, ← isWordChar_iff]

/-! ## Occurrences -/

variable {word text : List Char} {c : Char}

/-- The word stands in the text on its own, `skip` characters from the start or later; `before` is
the character in front of the text. -/
def Stands (word : List Char) (before : Option Char) (skip : Nat) (text : List Char) : Prop :=
  ∃ pre post, text = pre ++ (word ++ post) ∧ skip ≤ pre.length ∧
    bounds (pre.getLast?.or before) = true ∧ bounds post.head? = true

/-- What is in front of the rest of a text that begins with `c`. -/
theorem getLast?_cons_or (pre : List Char) (before : Option Char) :
    (c :: pre).getLast?.or before = pre.getLast?.or (some c) := by
  rw [List.getLast?_cons]
  cases pre.getLast? <;> rfl

theorem stands_nil {before : Option Char} :
    Stands word before 0 [] ↔ word = [] ∧ bounds before = true := by
  refine ⟨fun ⟨pre, post, htext, _, hbefore, _⟩ => ?_, fun ⟨hword, hbefore⟩ => ?_⟩
  · obtain ⟨rfl, hrest⟩ := List.append_eq_nil_iff.mp htext.symm
    exact ⟨(List.append_eq_nil_iff.mp hrest).1, hbefore⟩
  · exact ⟨[], [], by simp [hword], Nat.le_refl _, hbefore, rfl⟩

/-- One character is passed. -/
theorem stands_succ (before : Option Char) (k : Nat) :
    Stands word before (k + 1) (c :: text) ↔ Stands word (some c) k text := by
  refine ⟨fun ⟨pre, post, htext, hskip, hbefore, hafter⟩ => ?_,
    fun ⟨pre, post, htext, hskip, hbefore, hafter⟩ => ?_⟩
  · cases pre with
    | nil => cases hskip
    | cons d pre =>
      obtain ⟨rfl, htail⟩ := List.cons.inj htext
      rw [getLast?_cons_or] at hbefore
      exact ⟨pre, post, htail, Nat.le_of_succ_le_succ hskip, hbefore, hafter⟩
  · refine ⟨c :: pre, post, congrArg (c :: ·) htext, Nat.succ_le_succ hskip, ?_, hafter⟩
    rwa [getLast?_cons_or]

/-- A word stands right here or further on. -/
theorem stands_zero (before : Option Char) :
    Stands word before 0 (c :: text) ↔
      (word <+: c :: text ∧ bounds before = true ∧
        bounds ((c :: text).drop word.length).head? = true) ∨
      Stands word (some c) 0 text := by
  rw [← stands_succ before]
  refine ⟨fun ⟨pre, post, htext, _, hbefore, hafter⟩ => ?_, fun h => ?_⟩
  · cases pre with
    | nil =>
      rw [List.nil_append] at htext
      rw [htext, List.drop_left]
      exact .inl ⟨List.prefix_append word post, hbefore, hafter⟩
    | cons d pre => exact .inr ⟨d :: pre, post, htext, Nat.succ_pos _, hbefore, hafter⟩
  · rcases h with ⟨⟨post, hpost⟩, hbefore, hafter⟩ | ⟨pre, post, htext, _, hends⟩
    · rw [← hpost, List.drop_left] at hafter
      exact ⟨[], post, hpost.symm, Nat.le_refl _, hbefore, hafter⟩
    · exact ⟨pre, post, htext, Nat.zero_le _, hends⟩

/-- **Passing over an occurrence passes over no whole word.** -/
theorem stands_skip (hword : ∀ d ∈ word, IsWordChar d) (hhere : word <+: c :: text) :
    Stands word (some c) 0 text ↔ Stands word (some c) (word.length - 1) text := by
  refine ⟨fun ⟨pre, post, htext, _, hbefore, hafter⟩ => ⟨pre, post, htext, ?_, hbefore, hafter⟩,
    fun ⟨pre, post, htext, _, hends⟩ => ⟨pre, post, htext, Nat.zero_le _, hends⟩⟩
  refine Nat.le_of_not_lt fun hinside => ?_
  have hpre : c :: pre <+: word := by
    refine List.prefix_of_prefix_length_le ⟨word ++ post, ?_⟩ hhere ?_
    · rw [htext, List.cons_append]
    · rw [List.length_cons]
      omega
  obtain ⟨d, hd⟩ : ∃ d, (c :: pre).getLast? = some d := ⟨_, List.getLast?_cons⟩
  have hfront : pre.getLast?.or (some c) = some d := by
    rw [← getLast?_cons_or pre none, hd]
    rfl
  exact bounds_iff.mp hbefore d hfront (hword d (hpre.subset (List.mem_of_getLast? hd)))

/-! ## The scan -/

/-- **What the scan finds.** Only a word that is not empty leaves characters to pass. -/
theorem scanWord_iff (hword : ∀ d ∈ word, IsWordChar d) (text : List Char) (before : Option Char)
    (skip : Nat) (hskip : word = [] → skip = 0) :
    scanWord word before skip text = true ↔ Stands word before skip text := by
  induction text generalizing before skip with
  | nil =>
    cases skip with
    | zero => simp [scanWord, stands_nil]
    | succ k =>
      have hempty : word ≠ [] := fun h => nomatch hskip h
      refine iff_of_false (by simp [scanWord, hempty]) fun ⟨pre, post, htext, hlong, _⟩ => ?_
      obtain ⟨rfl, -⟩ := List.append_eq_nil_iff.mp htext.symm
      cases hlong
  | cons c text ih =>
    cases skip with
    | succ k =>
      rw [scanWord, stands_succ]
      exact ih (some c) k fun h => nomatch hskip h
    | zero =>
      rw [scanWord, stands_zero]
      by_cases hhere : word <+: c :: text
      · have hrest := ih (some c) (word.length - 1) fun h => by rw [h]; rfl
        rw [stands_skip hword hhere, ← hrest]
        simp [hhere]
      · rw [← ih (some c) 0 fun _ => rfl]
        simp [hhere]

/-- **A text mentions a word exactly if the word stands in it on its own**, for every text and
every word of letters, digits and underscores: somewhere the word occurs with no such character
right in front of it and none right behind it. It does not matter whether that occurrence overlaps
others. -/
theorem mentions_iff_wholeWord (text word : String) (hword : ∀ c ∈ word.toList, IsWordChar c) :
    mentions text word = true ↔
      ∃ pre post : String, text = pre ++ word ++ post ∧
        (∀ c, pre.toList.getLast? = some c → ¬ IsWordChar c) ∧
        ∀ c, post.toList.head? = some c → ¬ IsWordChar c := by
  rw [mentions, scanWord_iff hword text.toList none 0 fun _ => rfl]
  refine ⟨fun ⟨pre, post, htext, _, hbefore, hafter⟩ => ?_,
    fun ⟨pre, post, htext, hbefore, hafter⟩ => ?_⟩
  · refine ⟨.ofList pre, .ofList post, ?_, ?_, ?_⟩
    · rw [← String.toList_inj]
      simpa using htext
    · rw [Option.or_none] at hbefore
      simpa using bounds_iff.mp hbefore
    · simpa using bounds_iff.mp hafter
  · refine ⟨pre.toList, post.toList, ?_, Nat.zero_le _, ?_, bounds_iff.mpr hafter⟩
    · simp [htext]
    · rw [Option.or_none]
      exact bounds_iff.mpr hbefore

/-- The word `a_a` overlaps itself. In `a_a_a` it occurs twice, each time next to an underscore; the
letter `é` next to it is no word character. -/
theorem mentions_iff_wholeWord_overlapping :
    (∀ c ∈ "a_a".toList, IsWordChar c) ∧
    (∃ pre post : String, "a_a_a éa_aé" = pre ++ "a_a" ++ post ∧
      (∀ c, pre.toList.getLast? = some c → ¬ IsWordChar c) ∧
      ∀ c, post.toList.head? = some c → ¬ IsWordChar c) ∧
    ¬ ∃ pre post : String, "a_a_a" = pre ++ "a_a" ++ post ∧
      (∀ c, pre.toList.getLast? = some c → ¬ IsWordChar c) ∧
      ∀ c, post.toList.head? = some c → ¬ IsWordChar c := by
  have hword : ∀ c ∈ "a_a".toList, IsWordChar c := by
    intro c hc
    have hall : "a_a".toList.all isWordChar = true := by decide
    exact isWordChar_iff.mp (List.all_eq_true.mp hall c hc)
  have hfound : mentions "a_a_a éa_aé" "a_a" = true := by decide
  have hmissing : mentions "a_a_a" "a_a" = false := by decide
  refine ⟨hword, (mentions_iff_wholeWord _ _ hword).mp hfound, fun hstands => ?_⟩
  exact Bool.false_ne_true (hmissing.symm.trans ((mentions_iff_wholeWord _ _ hword).mpr hstands))

end ClosureConversion.Text
