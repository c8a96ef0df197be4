import Mathlib.Tactic.SplitIfs
import ClosureConversion.Text.Literal

/-! # Literals and format texts read back -/

set_option autoImplicit false

namespace ClosureConversion.Text

/-! ## Readers -/

/-- The character that a backslash and this character stand for. -/
def shortEscape? : Char → Option Char
  | '\\' => some '\\'
  | '"' => some '"'
  | 'n' => some '\n'
  | 'r' => some '\r'
  | 't' => some '\t'
  | _ => none

/-- Undo the escapes of what stands between double quotes. -/
def unescape : List Char → Option (List Char)
  | [] => some []
  | '\\' :: 'x' :: high :: low :: rest => do
    let h ← hexValue? high
    let l ← hexValue? low
    return Char.ofNat (16 * h + l) :: (← unescape rest)
  | '\\' :: c :: rest => do return (← shortEscape? c) :: (← unescape rest)
  | c :: rest => if c = '\\' ∨ c = '"' then none else (unescape rest).map (c :: ·)

/-- Whether a text ends in a backslash that escapes what follows. A backslash does so unless it is
escaped itself. -/
def endsEscaping (text : List Char) : Bool :=
  text.foldl (fun escaping c => c == '\\' && !escaping) false

/-- What a format text consists of. -/
inductive Piece where
  | char (c : Char)
  | placeholder (spec : List Char)
  deriving DecidableEq

/-- The pieces of a format text; `spec` is what was read of a placeholder that is still open, in
reverse. -/
def piecesFrom? : Option (List Char) → List Char → Option (List Piece)
  | none, [] => some []
  | some _, [] => none
  | some spec, c :: rest =>
    if c = '\x7d' then (piecesFrom? none rest).map (.placeholder spec.reverse :: ·)
    else if c = '\x7b' then none
    else piecesFrom? (some (c :: spec)) rest
  | none, '\x7b' :: '\x7b' :: rest => (piecesFrom? none rest).map (.char '\x7b' :: ·)
  | none, '\x7d' :: '\x7d' :: rest => (piecesFrom? none rest).map (.char '\x7d' :: ·)
  | none, c :: rest =>
    if c = '\x7b' then piecesFrom? (some []) rest
    else if c = '\x7d' then none
    else (piecesFrom? none rest).map (.char c :: ·)

/-- The pieces of a format text, from left to right. -/
def pieces? (format : List Char) : Option (List Piece) := piecesFrom? none format

/-! ## Escapes -/

theorem hexValue?_hexDigit {n : Nat} (h : n < 16) : hexValue? (hexDigit n) = some n := by
  revert n
  decide

/-- Characters without an escape. -/
def Plain (c : Char) : Prop :=
  c ≠ '\\' ∧ c ≠ '"' ∧ 0x20 ≤ c.toNat ∧ c.toNat ≠ 0x7F

/-- How a character is written in a literal. -/
theorem escapeChar_cases (c : Char) :
    (∃ e, escapeChar c = ['\\', e] ∧ shortEscape? e = some c ∧ e ≠ 'x') ∨
    (∃ h l, escapeChar c = ['\\', 'x', hexDigit h, hexDigit l] ∧ h < 16 ∧ l < 16 ∧
      Char.ofNat (16 * h + l) = c) ∨
    (escapeChar c = [c] ∧ Plain c) := by
  unfold escapeChar
  split_ifs with h₁ h₂ h₃ h₄ h₅ h₆
  · exact .inl ⟨'\\', rfl, by rw [h₁]; rfl, by decide⟩
  · exact .inl ⟨'"', rfl, by rw [h₂]; rfl, by decide⟩
  · exact .inl ⟨'n', rfl, by rw [h₃]; rfl, by decide⟩
  · exact .inl ⟨'r', rfl, by rw [h₄]; rfl, by decide⟩
  · exact .inl ⟨'t', rfl, by rw [h₅]; rfl, by decide⟩
  · have hcode : c.toNat < 0x20 ∨ c.toNat = 0x7F := by simpa using h₆
    refine .inr (.inl ⟨c.toNat / 16, c.toNat % 16, rfl, by omega, by omega, ?_⟩)
    rw [Nat.div_add_mod, Char.ofNat_toNat]
  · have hcode : 0x20 ≤ c.toNat ∧ c.toNat ≠ 0x7F := by simpa using h₆
    exact .inr (.inr ⟨rfl, h₁, h₂, hcode⟩)

theorem escape_cons (c : Char) (s : List Char) : escape (c :: s) = escapeChar c ++ escape s := rfl

theorem escape_append (s t : List Char) : escape (s ++ t) = escape s ++ escape t :=
  List.flatMap_append

theorem unescape_escapeChar_append (c : Char) (rest : List Char) :
    unescape (escapeChar c ++ rest) = (unescape rest).map (c :: ·) := by
  rcases escapeChar_cases c with ⟨e, heq, he, hx⟩ | ⟨h, l, heq, hh, hl, hc⟩ | ⟨heq, hplain⟩
  · rw [heq, List.cons_append, List.cons_append, List.nil_append, unescape, he]
    · cases unescape rest <;> rfl
    · rintro high low rest' rfl -
      exact hx rfl
  · rw [heq, List.cons_append, List.cons_append, List.cons_append, List.cons_append,
      List.nil_append, unescape, hexValue?_hexDigit hh, hexValue?_hexDigit hl]
    simp only [Option.bind_eq_bind, Option.bind_some, hc]
    cases unescape rest <;> rfl
  · rw [heq, List.singleton_append, unescape, if_neg (by simp [hplain.1, hplain.2.1])]
    · intro high low rest' hslash
      exact absurd hslash hplain.1
    · intro c' rest' hslash
      exact absurd hslash hplain.1

/-- Undoing the escapes of a text, whatever stands behind it. -/
theorem unescape_escape_append (s rest : List Char) :
    unescape (escape s ++ rest) = (unescape rest).map (s ++ ·) := by
  induction s with
  | nil => simp [escape]
  | cons c s ih =>
    rw [escape_cons, List.append_assoc, unescape_escapeChar_append, ih, Option.map_map]
    rfl

theorem unescape_escape (s : List Char) : unescape (escape s) = some s := by
  simpa [unescape] using unescape_escape_append s []

theorem printable_of_shortEscape? {e c : Char} (h : shortEscape? e = some c) :
    0x20 ≤ e.toNat ∧ e.toNat ≠ 0x7F := by
  unfold shortEscape? at h
  split at h
  case h_6 => cases h
  all_goals decide

theorem hexDigit_plain {n : Nat} (h : n < 16) : Plain (hexDigit n) := by
  unfold Plain
  revert n
  decide

/-- A literal holds no control characters. -/
theorem printable_of_mem_escape {s : List Char} {d : Char} (h : d ∈ escape s) :
    0x20 ≤ d.toNat ∧ d.toNat ≠ 0x7F := by
  obtain ⟨c, -, hd⟩ := List.mem_flatMap.mp h
  rcases escapeChar_cases c with ⟨e, heq, he, -⟩ | ⟨h, l, heq, hh, hl, -⟩ | ⟨heq, hplain⟩ <;>
    rw [heq] at hd
  · obtain rfl | rfl : d = '\\' ∨ d = e := by simpa using hd
    · decide
    · exact printable_of_shortEscape? he
  · obtain rfl | rfl | rfl | rfl : d = '\\' ∨ d = 'x' ∨ d = hexDigit h ∨ d = hexDigit l := by
      simpa using hd
    · decide
    · decide
    · exact (hexDigit_plain hh).2.2
    · exact (hexDigit_plain hl).2.2
  · obtain rfl := List.mem_singleton.mp hd
    exact hplain.2.2

/-- The escape of a character is complete: what follows it is not escaped. -/
theorem foldl_escaping_escapeChar (c : Char) :
    (escapeChar c).foldl (fun escaping d => d == '\\' && !escaping) false = false := by
  rcases escapeChar_cases c with ⟨e, heq, -, -⟩ | ⟨h, l, heq, hh, hl, -⟩ | ⟨heq, hplain⟩ <;>
    rw [heq]
  · simp
  · simp [(hexDigit_plain hl).1]
  · simp [hplain.1]

theorem endsEscaping_escapeChar_append (c : Char) (text : List Char) :
    endsEscaping (escapeChar c ++ text) = endsEscaping text := by
  rw [endsEscaping, List.foldl_append, foldl_escaping_escapeChar]
  rfl

/-- A double quote in what is written for a character stands right behind a backslash. -/
theorem front_of_escapeChar {c : Char} {front back : List Char}
    (h : escapeChar c = front ++ '"' :: back) : front = ['\\'] := by
  have hquote : '"' ∈ escapeChar c := by simp [h]
  rcases escapeChar_cases c with ⟨e, heq, -, -⟩ | ⟨x, l, heq, hx, hl, -⟩ | ⟨heq, hplain⟩ <;>
    rw [heq] at h hquote
  · -- the quote is the second of two characters
    obtain ⟨-, hslash⟩ | ⟨front', rfl, hrest⟩ := List.append_eq_cons_iff.mp h.symm
    · cases hslash
    · obtain ⟨rfl, -⟩ | ⟨_, -, hnil⟩ := List.append_eq_cons_iff.mp hrest.symm
      · rfl
      · simp at hnil
  · simp [(hexDigit_plain hx).2.1.symm, (hexDigit_plain hl).2.1.symm] at hquote
  · exact absurd (List.mem_singleton.mp hquote).symm hplain.2.1

/-- A double quote in a literal is escaped. -/
theorem endsEscaping_of_escape {s front back : List Char} (h : escape s = front ++ '"' :: back) :
    endsEscaping front = true := by
  induction s generalizing front with
  | nil => simp [escape] at h
  | cons c s ih =>
    rw [escape_cons] at h
    rcases List.append_eq_append_iff.mp h with ⟨front', rfl, hrest⟩ | ⟨inside, hchar, hrest⟩
    · rw [endsEscaping_escapeChar_append]
      exact ih hrest
    · cases inside with
      | nil =>
        have hstart : endsEscaping [] = true := ih hrest.symm
        cases hstart
      | cons d inside =>
        obtain ⟨rfl, -⟩ := List.cons.inj hrest
        rw [front_of_escapeChar hchar]
        rfl

/-! ## Braces -/

theorem doubleBraces_cons (c : Char) (s : List Char) :
    doubleBraces (c :: s) = (if c = '\x7b' || c = '\x7d' then [c, c] else [c]) ++ doubleBraces s :=
  rfl

theorem doubleBraces_append (s t : List Char) :
    doubleBraces (s ++ t) = doubleBraces s ++ doubleBraces t :=
  List.flatMap_append

theorem doubleBraces_of_notMem {s : List Char} (hopen : '\x7b' ∉ s) (hclose : '\x7d' ∉ s) :
    doubleBraces s = s := by
  induction s with
  | nil => rfl
  | cons c s ih =>
    simp only [List.mem_cons, not_or] at hopen hclose
    rw [doubleBraces_cons, if_neg (by simp [Ne.symm hopen.1, Ne.symm hclose.1]),
      ih hopen.2 hclose.2]
    rfl

/-- Only a brace is written with braces. -/
theorem brace_notMem_escapeChar {c b : Char} (hb : b = '\x7b' ∨ b = '\x7d') (hne : c ≠ b) :
    b ∉ escapeChar c := by
  have hdigit : ∀ n < 16, hexDigit n ≠ '\x7b' ∧ hexDigit n ≠ '\x7d' := by decide
  intro hmem
  rcases escapeChar_cases c with ⟨e, heq, he, -⟩ | ⟨h, l, heq, hh, hl, -⟩ | ⟨heq, -⟩ <;>
    rw [heq] at hmem
  · obtain rfl | rfl : b = '\\' ∨ b = e := by simpa using hmem
    · simp at hb
    · rcases hb with rfl | rfl <;> cases he
  · have hh := hdigit h hh
    have hl := hdigit l hl
    rcases hb with rfl | rfl <;> simp [hh.1.symm, hh.2.symm, hl.1.symm, hl.2.symm] at hmem
  · exact hne (List.mem_singleton.mp hmem).symm

/-- Escapes and doubled braces do not get into each other's way. -/
theorem escape_doubleBraces (s : List Char) :
    escape (doubleBraces s) = doubleBraces (escape s) := by
  induction s with
  | nil => rfl
  | cons c s ih =>
    rw [doubleBraces_cons, escape_append, ih, escape_cons, doubleBraces_append]
    congr 1
    by_cases hopen : c = '\x7b'
    · rw [hopen]
      decide
    by_cases hclose : c = '\x7d'
    · rw [hclose]
      decide
    rw [doubleBraces_of_notMem (brace_notMem_escapeChar (.inl rfl) hopen)
      (brace_notMem_escapeChar (.inr rfl) hclose)]
    simp [hopen, hclose, escape]

/-! ## Pieces -/

theorem pieces?_cons {c : Char} (hopen : c ≠ '\x7b') (hclose : c ≠ '\x7d') (rest : List Char) :
    pieces? (c :: rest) = (pieces? rest).map (.char c :: ·) := by
  rw [pieces?, piecesFrom?, if_neg hopen, if_neg hclose]
  · rfl
  · intro rest' h
    exact absurd h hopen
  · intro rest' h
    exact absurd h hclose

/-- Literal text is read as its characters. -/
theorem pieces?_doubleBraces_append (s rest : List Char) :
    pieces? (doubleBraces s ++ rest) = (pieces? rest).map (s.map .char ++ ·) := by
  induction s with
  | nil => simp [doubleBraces]
  | cons c s ih =>
    have hchar : pieces? ((if c = '\x7b' || c = '\x7d' then [c, c] else [c]) ++
        (doubleBraces s ++ rest)) = (pieces? (doubleBraces s ++ rest)).map (.char c :: ·) := by
      by_cases hopen : c = '\x7b'
      · rw [hopen]
        rfl
      by_cases hclose : c = '\x7d'
      · rw [hclose]
        rfl
      rw [if_neg (by simp [hopen, hclose])]
      exact pieces?_cons hopen hclose _
    rw [doubleBraces_cons, List.append_assoc, hchar, ih, Option.map_map]
    rfl

theorem piecesFrom?_spec {spec : List Char} (hopen : '\x7b' ∉ spec) (hclose : '\x7d' ∉ spec)
    (start rest : List Char) : piecesFrom? (some start) (spec ++ '\x7d' :: rest) =
      (pieces? rest).map (.placeholder (start.reverse ++ spec) :: ·) := by
  induction spec generalizing start with
  | nil => simp [piecesFrom?, pieces?]
  | cons c spec ih =>
    simp only [List.mem_cons, not_or] at hopen hclose
    rw [List.cons_append, piecesFrom?, if_neg (Ne.symm hclose.1), if_neg (Ne.symm hopen.1),
      ih hopen.2 hclose.2]
    simp

/-- A placeholder is read as one, whatever stands behind it. -/
theorem pieces?_placeholder_append {spec : List Char} (hopen : '\x7b' ∉ spec)
    (hclose : '\x7d' ∉ spec) (rest : List Char) :
    pieces? ('\x7b' :: (spec ++ '\x7d' :: rest)) = (pieces? rest).map (.placeholder spec :: ·) := by
  rw [pieces?, piecesFrom?, if_pos rfl, piecesFrom?_spec hopen hclose]
  · rfl
  · -- the opening brace is not doubled
    intro rest' _ h
    cases spec with
    | nil => simp at h
    | cons c spec => exact hopen ((List.cons.inj h).1 ▸ List.mem_cons_self)
  · intro rest' h
    simp at h

end ClosureConversion.Text
