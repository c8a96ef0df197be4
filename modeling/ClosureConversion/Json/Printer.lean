import ClosureConversion.Json.Basic
import ClosureConversion.Decimal.Notation
import ClosureConversion.Text.Literal

/-! # Writing JSON -/

set_option autoImplicit false

namespace ClosureConversion

/-- Floats in JSON: positional from `1e-5` up to below `1e16`. -/
def Decimal.json : Decimal.Layout := ⟨-5, 15⟩

def Number.text : Number → String
  | .int i => toString i
  | .float x => Decimal.json.writeFloat x

namespace Json

def escapeChar (c : Char) : List Char :=
  if c = '"' then ['\\', '"']
  else if c = '\\' then ['\\', '\\']
  else if c = '\n' then ['\\', 'n']
  else if c = '\r' then ['\\', 'r']
  else if c = '\t' then ['\\', 't']
  else if c.toNat = 8 then ['\\', 'b']
  else if c.toNat = 12 then ['\\', 'f']
  else if c.toNat < 0x20 then
    ['\\', 'u', '0', '0', Text.hexDigit (c.toNat / 16), Text.hexDigit (c.toNat % 16)]
  else [c]

def quoted (s : String) : String :=
  "\"" ++ String.ofList (s.toList.flatMap escapeChar) ++ "\""

/-- Written fields in the order of their names. -/
def inOrder (fields : List (String × String)) : List (String × String) :=
  fields.mergeSort fun a b => a.1 ≤ b.1

mutual

def compact : Json → String
  | .null | .unreadable => "null"
  | .bool true => "true"
  | .bool false => "false"
  | .num n => n.text
  | .str s => quoted s
  | .arr items => "[" ++ ",".intercalate (compactAll items) ++ "]"
  | .obj fields =>
    "\x7b" ++ ",".intercalate ((inOrder (compactFields fields)).map fun f =>
      quoted f.1 ++ ":" ++ f.2) ++ "\x7d"

def compactAll : List Json → List String
  | [] => []
  | j :: js => j.compact :: compactAll js

def compactFields : List (String × Json) → List (String × String)
  | [] => []
  | (k, j) :: rest => (k, j.compact) :: compactFields rest

end

def indentation (level : Nat) : String := String.ofList (List.replicate (2 * level) ' ')

/-- Items between brackets, one a line. -/
def block (opening closing : String) (level : Nat) (items : List String) : String :=
  if items.isEmpty then opening ++ closing
  else
    opening ++ "\n"
      ++ ",\n".intercalate (items.map fun i => indentation (level + 1) ++ i)
      ++ "\n" ++ indentation level ++ closing

mutual

/-- A value that starts `level` levels deep. -/
def prettyAt (level : Nat) : Json → String
  | .arr items => block "[" "]" level (prettyAll (level + 1) items)
  | .obj fields =>
    block "\x7b" "\x7d" level ((inOrder (prettyFields (level + 1) fields)).map fun f =>
      quoted f.1 ++ ": " ++ f.2)
  | j => j.compact

def prettyAll (level : Nat) : List Json → List String
  | [] => []
  | j :: js => j.prettyAt level :: prettyAll level js

def prettyFields (level : Nat) : List (String × Json) → List (String × String)
  | [] => []
  | (k, j) :: rest => (k, j.prettyAt level) :: prettyFields level rest

end

def pretty (j : Json) : String := j.prettyAt 0

end Json

end ClosureConversion
