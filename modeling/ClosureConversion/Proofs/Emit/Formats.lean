import Mathlib.Data.List.Forall2
import ClosureConversion.Proofs.Emit.Calls
import ClosureConversion.Proofs.Text.Literals

/-! # Format strings read back -/

set_option autoImplicit false

namespace ClosureConversion

namespace FormatPart

/-- What a reader has to find for a part: its characters, or a place for its value. -/
def places : FormatPart → List (Option Char)
  | .literal s => s.toList.map some
  | .interpolation _ => [none]

def value? : FormatPart → Option Expr
  | .literal _ => none
  | .interpolation e => some e

end FormatPart

namespace Text.Piece

def char? : Piece → Option Char
  | .char c => some c
  | .placeholder _ => none

def spec? : Piece → Option (List Char)
  | .char _ => none
  | .placeholder spec => some spec

end Text.Piece

open Text (escape unescape doubleBraces pieces? Piece)

namespace Emit

variable {w : Settings} {c c' : Context}

/-! ## Parts and pieces -/

/-- A specifier and an argument that belong to a value: where the value is rendered, its type asks
for this specifier and its text is the argument. -/
def Suits (w : Settings) (e : Expr) (spec : List Char) (arg : String) : Prop :=
  ∃ c c', (Code.placeholder (w.oracle.exprType e c.scope)).toList = '\x7b' :: (spec ++ ['\x7d']) ∧
    render e none w c = (.ok arg, c')

/-- The pieces of a format text and the arguments behind it agree with the parts of an interpolated
string. -/
structure Agrees (w : Settings) (ps : List FormatPart) (pieces : List Piece) (args : List String) :
    Prop where
  /-- The characters of the literal parts, and one placeholder for each value, in order. -/
  places : pieces.map Piece.char? = ps.flatMap FormatPart.places
  /-- There are as many placeholders as arguments. -/
  count : (pieces.filterMap Piece.spec?).length = args.length
  suits : List.Forall₂ (fun e x => Suits w e x.1 x.2) (ps.filterMap FormatPart.value?)
    ((pieces.filterMap Piece.spec?).zip args)

section Agrees

variable {ps : List FormatPart} {pieces : List Piece} {args : List String}

theorem Agrees.nil : Agrees w [] [] [] := ⟨rfl, rfl, .nil⟩

theorem Agrees.literal (h : Agrees w ps pieces args) (s : String) :
    Agrees w (.literal s :: ps) (s.toList.map .char ++ pieces) args := by
  have hspecs : (s.toList.map Piece.char ++ pieces).filterMap Piece.spec? =
      pieces.filterMap Piece.spec? := by
    have hnone : (s.toList.map Piece.char).filterMap Piece.spec? = [] := by
      simp [List.filterMap_map, Piece.spec?]
    rw [List.filterMap_append, hnone, List.nil_append]
  refine ⟨?_, ?_, ?_⟩
  · rw [List.map_append, List.flatMap_cons, h.places, List.map_map]
    rfl
  · rw [hspecs]
    exact h.count
  · rw [hspecs]
    exact h.suits

theorem Agrees.value {e : Expr} {spec : List Char} {arg : String} (h : Agrees w ps pieces args)
    (hsuits : Suits w e spec arg) :
    Agrees w (.interpolation e :: ps) (.placeholder spec :: pieces) (arg :: args) :=
  ⟨congrArg (none :: ·) h.places, congrArg (· + 1) h.count, .cons hsuits h.suits⟩

end Agrees

/-! ## The text that is written -/

theorem toList_placeholder (ty : Ty) : ∃ spec, '\x7b' ∉ spec ∧ '\x7d' ∉ spec ∧
    (Code.placeholder ty).toList = '\x7b' :: (spec ++ ['\x7d']) ∧
    escape (Code.placeholder ty).toList = (Code.placeholder ty).toList := by
  unfold Code.placeholder
  split
  · exact ⟨['s'], by decide, by decide, by decide, by decide⟩
  · exact ⟨['d'], by decide, by decide, by decide, by decide⟩
  · exact ⟨['d'], by decide, by decide, by decide, by decide⟩
  · exact ⟨['d'], by decide, by decide, by decide, by decide⟩
  · exact ⟨['a', 'n', 'y'], by decide, by decide, by decide, by decide⟩

/-- The format text of an interpolated string escapes a text whose pieces agree with the parts. -/
theorem formatParts_read {ps : List FormatPart} {format : String} {args : List String}
    (h : formatParts (ps.zip (partTexts ps)) w c = (.ok (format, args), c')) :
    ∃ text pieces, format.toList = escape text ∧ pieces? text = some pieces ∧
      Agrees w ps pieces args := by
  induction ps generalizing c format args with
  | nil =>
    cases h
    exact ⟨[], [], rfl, rfl, .nil⟩
  | cons p ps ih =>
    cases p with
    | literal s =>
      rw [partTexts, List.zip_cons_cons, formatParts] at h
      obtain ⟨⟨rest, values⟩, c₁, hrest, h⟩ := bind_eq_ok h
      cases h
      obtain ⟨text, pieces, hescape, hread, hagrees⟩ := ih hrest
      refine ⟨doubleBraces s.toList ++ text, s.toList.map .char ++ pieces, ?_, ?_,
        hagrees.literal s⟩
      · rw [Text.escape_append, Text.escape_doubleBraces, ← hescape, String.toList_append,
          Text.formatLiteral, String.toList_ofList]
      · rw [Text.pieces?_doubleBraces_append, hread]
        rfl
    | interpolation e =>
      rw [partTexts, List.zip_cons_cons, formatParts] at h
      obtain ⟨ty, c₁, hty, h⟩ := bind_eq_ok h
      obtain ⟨arg, c₂, harg, h⟩ := bind_eq_ok h
      obtain ⟨⟨rest, values⟩, c₃, hrest, h⟩ := bind_eq_ok h
      cases h
      cases hty
      obtain ⟨text, pieces, hescape, hread, hagrees⟩ := ih hrest
      obtain ⟨spec, hopen, hclose, hspec, hplain⟩ :=
        toList_placeholder (w.oracle.exprType e c.scope)
      refine ⟨(Code.placeholder (w.oracle.exprType e c.scope)).toList ++ text,
        .placeholder spec :: pieces, ?_, ?_, hagrees.value ⟨c, c₂, hspec, harg⟩⟩
      · rw [Text.escape_append, hplain, String.toList_append, hescape]
      · rw [hspec, List.cons_append, List.append_assoc, List.singleton_append,
          Text.pieces?_placeholder_append hopen hclose, hread]
        rfl

/-- The call of the formatter. -/
def formatCall (w : Settings) (f : FunctionState) (format : String) (args : List String) : String :=
  let call := s!"runtime.format({w.options.allocator}, \"{format}\", {Code.tuple args})"
  if w.options.allocationFails then f.guarded call else call

theorem format_text {ps : List FormatPart} {expected : Option Ty} {text : String}
    (h : (render (.format ps) expected w c).1 = .ok text) : ∃ format args c₁,
      formatParts (ps.zip (partTexts ps)) w c = (.ok (format, args), c₁) ∧
      text = formatCall w c₁.current format args := by
  replace h : render (.format ps) expected w c = (.ok text, (render (.format ps) expected w c).2) :=
    Prod.ext h rfl
  rw [render, Emit.format] at h
  obtain ⟨o, c₀, ho, h⟩ := bind_eq_ok h
  cases ho
  obtain ⟨⟨format, args⟩, c₁, hparts, hcall⟩ := bind_eq_ok h
  have htext := congrArg Prod.fst hcall
  rw [fallibleIf_text] at htext
  exact ⟨format, args, c₁, hparts, (Except.ok.inj htext).symm⟩

end Emit

/-- **Literals and format texts are read back as they were meant.** In the literal of a text every
double quote is escaped, there are no control characters, and undoing the escapes gives the text.
An interpolated string is written with a format text that stands for its literal parts and holds
one placeholder for each of its values, in order, and with as many arguments. -/
theorem literals_read_back :
    (∀ s : String,
      (∀ front back, (Text.escapeString s).toList = front ++ '"' :: back →
        Text.endsEscaping front = true) ∧
      (∀ d ∈ (Text.escapeString s).toList, 0x20 ≤ d.toNat ∧ d.toNat ≠ 0x7F) ∧
      unescape (Text.escapeString s).toList = some s.toList) ∧
    ∀ (ps : List FormatPart) (expected : Option Ty) (w : Settings) (c : Context) (text : String),
      (Emit.render (.format ps) expected w c).1 = .ok text →
      ∃ format args c₁ pieces,
        Emit.formatParts (ps.zip (Emit.partTexts ps)) w c = (.ok (format, args), c₁) ∧
        text = Emit.formatCall w c₁.current format args ∧
        (unescape format.toList).bind pieces? = some pieces ∧
        Emit.Agrees w ps pieces args := by
  refine ⟨fun s => ?_, fun ps expected w c text h => ?_⟩
  · rw [Text.escapeString, String.toList_ofList]
    exact ⟨fun _ _ => Text.endsEscaping_of_escape, fun _ => Text.printable_of_mem_escape,
      Text.unescape_escape s.toList⟩
  · obtain ⟨format, args, c₁, hparts, htext⟩ := Emit.format_text h
    obtain ⟨raw, pieces, hescape, hread, hagrees⟩ := Emit.formatParts_read hparts
    refine ⟨format, args, c₁, pieces, hparts, htext, ?_, hagrees⟩
    rw [hescape, Text.unescape_escape, Option.bind_some, hread]

/-- A brace and a backslash right before two placeholders, and a brace and a quote right behind
them. -/
theorem literals_read_back_adjacent :
    let ps : List FormatPart := [.literal "\x7b\\", .interpolation (.constant (.int 7)),
      .interpolation (.constant (.str "\x7b")), .literal "\x7d\""]
    let w : Settings := ⟨({} : Table).oracle, {}⟩
    let format := "\x7b\x7b\\\\\x7bd\x7d\x7bs\x7d\x7d\x7d\\\""
    (Emit.render (.format ps) none w { scope := {} }).1 =
        .ok ("try runtime.format(allocator, \"" ++ format ++ "\", .\x7b 7, \"\x7b\" \x7d)") ∧
      (unescape format.toList).bind pieces? = some
        [.char '\x7b', .char '\\', .placeholder ['d'], .placeholder ['s'], .char '\x7d',
          .char '"'] ∧
      Emit.Agrees w ps
        [.char '\x7b', .char '\\', .placeholder ['d'], .placeholder ['s'], .char '\x7d', .char '"']
        ["7", "\"\x7b\""] := by
  intro ps w format
  have htext : (Emit.render (.format ps) none w { scope := {} }).1 =
      .ok ("try runtime.format(allocator, \"" ++ format ++ "\", .\x7b 7, \"\x7b\" \x7d)") := by
    decide +kernel
  have hread : (unescape format.toList).bind pieces? = some
      [.char '\x7b', .char '\\', .placeholder ['d'], .placeholder ['s'], .char '\x7d',
        .char '"'] := by
    decide +kernel
  have hwritten : (Emit.formatParts (ps.zip (Emit.partTexts ps)) w { scope := {} }).1 =
      .ok (format, ["7", "\"\x7b\""]) := by
    decide +kernel
  obtain ⟨written, args, c₁, pieces, hparts, -, hpieces, hagrees⟩ :=
    literals_read_back.2 ps none w _ _ htext
  rw [hparts] at hwritten
  obtain ⟨rfl, rfl⟩ := Prod.mk.inj (Except.ok.inj hwritten)
  rw [hread] at hpieces
  cases hpieces
  exact ⟨htext, hread, hagrees⟩

end ClosureConversion
