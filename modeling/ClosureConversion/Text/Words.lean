/-! # Whole words -/

set_option autoImplicit false

namespace ClosureConversion.Text

def isWordChar (c : Char) : Bool := c.isAlphanum || c == '_'

/-- A place next to this character, or to an end of the text, bounds a word. -/
def bounds : Option Char → Bool
  | some c => !isWordChar c
  | none => true

/-- Scan `text` from the left, `before` being the character in front of it. After an
occurrence the scan goes on behind it; `skip` counts the characters left to pass. The empty word
occurs at the end too. -/
def scanWord (word : List Char) (before : Option Char) (skip : Nat) :
    List Char → Bool
  | [] => word.isEmpty && bounds before
  | c :: text =>
    match skip with
    | k + 1 => scanWord word (some c) k text
    | 0 =>
      if word.isPrefixOf (c :: text) then
        (bounds before && bounds ((c :: text).drop word.length).head?)
          || scanWord word (some c) (word.length - 1) text
      else scanWord word (some c) 0 text

def mentions (text word : String) : Bool := scanWord word.toList none 0 text.toList

example : mentions "if (__exc1 == error.X)" "__exc1" = true := by decide
example : mentions "if (__exc10 == error.X)" "__exc1" = false := by decide

end ClosureConversion.Text
