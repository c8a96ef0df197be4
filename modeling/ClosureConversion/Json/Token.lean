import ClosureConversion.Json.Basic
import ClosureConversion.Text.Literal

/-! # JSON tokens -/

set_option autoImplicit false

namespace ClosureConversion.Json

open Text (hexValue?)

inductive Token where
  | openBrace
  | closeBrace
  | openBracket
  | closeBracket
  | colon
  | comma
  | string (value : Option String)
  | atom (value : Json)

/-! ## Strings -/

def hex4? (a b c d : Char) : Option Nat := do
  return (← hexValue? a) * 4096 + (← hexValue? b) * 256 + (← hexValue? c) * 16 + (← hexValue? d)

def simpleEscape? (c : Char) : Option Char :=
  if c = '"' then some '"'
  else if c = '\\' then some '\\'
  else if c = '/' then some '/'
  else if c = 'b' then some (Char.ofNat 8)
  else if c = 'f' then some (Char.ofNat 12)
  else if c = 'n' then some '\n'
  else if c = 'r' then some '\r'
  else if c = 't' then some '\t'
  else none

/-- The second half of a surrogate pair, if an escape for one comes next. -/
def lowSurrogate? : List Char → Option Nat
  | '\\' :: 'u' :: a :: b :: c :: d :: _ =>
    (hex4? a b c d).filter fun m => 0xDC00 ≤ m && m ≤ 0xDFFF
  | _ => none

/-- The rest of a string after its opening quote, with the text behind the closing one.
Surrogates come in pairs; half a pair leaves the string without a value. -/
def stringRest? (acc : Option (List Char)) : List Char → Option (Option String × List Char)
  | [] => none
  | c :: text =>
    if c = '"' then some (acc.map fun cs => String.ofList cs.reverse, text)
    else if c = '\\' then
      match text with
      | [] => none
      | e :: text =>
        if e = 'u' then
          match text with
          | a :: b :: c :: d :: text =>
            match hex4? a b c d with
            | none => none
            | some n =>
              if 0xD800 ≤ n ∧ n ≤ 0xDBFF then
                match lowSurrogate? text with
                | some m =>
                  let c := Char.ofNat (0x10000 + (n - 0xD800) * 1024 + (m - 0xDC00))
                  stringRest? (acc.map (c :: ·)) (text.drop 6)
                | none => stringRest? none text
              else if 0xDC00 ≤ n ∧ n ≤ 0xDFFF then stringRest? none text
              else stringRest? (acc.map (Char.ofNat n :: ·)) text
          | _ => none
        else
          match simpleEscape? e with
          | some s => stringRest? (acc.map (s :: ·)) text
          | none => none
    else if c.toNat < 0x20 then none
    else stringRest? (acc.map (c :: ·)) text
termination_by text => text.length

theorem length_of_stringRest? {acc : Option (List Char)} {text rest : List Char}
    {s : Option String} (h : stringRest? acc text = some (s, rest)) : rest.length < text.length := by
  fun_induction stringRest? acc text <;> simp_all <;> omega

/-! ## Numbers -/

def maxUInt64 : Nat := UInt64.size - 1

def digitValue (c : Char) : Nat := c.toNat - 48

/-- Digits read so far: the number they form, the power of ten it is to be scaled by, and
whether further digits no longer fit. -/
structure Significand where
  value : Nat := 0
  exp : Int := 0
  full : Bool := false

def Significand.wholeDigit (s : Significand) (c : Char) : Significand :=
  let value := s.value * 10 + digitValue c
  if s.full || maxUInt64 < value then { s with exp := s.exp + 1, full := true }
  else { s with value }

def Significand.fractionDigit (s : Significand) (c : Char) : Significand :=
  let value := s.value * 10 + digitValue c
  if s.full || maxUInt64 < value then { s with full := true }
  else { s with value, exp := s.exp - 1 }

/-- `x · 10^exp`; a number too large for a float is none. -/
def scale? (x : Float) (exp : Int) : (steps : Nat) → Option Float
  | 0 => none
  | steps + 1 =>
    if 0 ≤ exp then
      if exp ≤ 308 then
        let y := x * Float.ofScientific 1 false exp.toNat
        if y.isInf then none else some y
      else if x == 0.0 then some x else none
    else if -308 ≤ exp then some (x / Float.ofScientific 1 false (-exp).toNat)
    else if x == 0.0 then some x
    else scale? (x / 1e308) (exp + 308) steps

def signed (negative : Bool) (x : Float) : Float := if negative then -x else x

/-- The value of a decimal with a power of ten; powers beyond 32 bits give zero or none. -/
def Significand.float? (s : Significand) (negative : Bool) (power : Int) : Option Float :=
  if 2147483647 < power.natAbs then
    if s.value ≠ 0 ∧ 0 < power then none else some (signed negative 0.0)
  else (scale? s.value.toUInt64.toFloat (s.exp + power) 12).map (signed negative)

def Significand.toJson (s : Significand) (negative : Bool) (power : Int) : Json :=
  match s.float? negative power with
  | some x => .num (.float x)
  | none => .unreadable

def wholeNumber (negative : Bool) (s : Significand) : Json :=
  if s.full then s.toJson negative 0
  else if negative then
    -- minus zero, and what 64 bits with a sign cannot hold, is a float
    if s.value = 0 ∨ Int64.maxValue.toInt + 1 < s.value then
      .num (.float (signed true s.value.toUInt64.toFloat))
    else .num (.int (-(s.value : Int)))
  else .num (.int s.value)

/-- Digits with an optional sign. -/
def power? (text : List Char) : Option Int :=
  let (negative, digits) :=
    match text with
    | '+' :: rest => (false, rest)
    | '-' :: rest => (true, rest)
    | rest => (false, rest)
  if digits.isEmpty || !digits.all Char.isDigit then none
  else
    let n := digits.foldl (fun n c => n * 10 + digitValue c) 0
    some (if negative then -(n : Int) else n)

/-- A number from what follows its whole digits. -/
def fromTail? (negative : Bool) (s : Significand) (tail : List Char) : Option Json :=
  match tail with
  | [] => some (wholeNumber negative s)
  | c :: rest =>
    if c = '.' then
      let digits := rest.takeWhile Char.isDigit
      -- after the point the digits are tried again one by one
      let s := digits.foldl Significand.fractionDigit { s with full := false }
      if digits.isEmpty then none
      else
        match rest.dropWhile Char.isDigit with
        | [] => some (s.toJson negative 0)
        | e :: rest =>
          if e = 'e' || e = 'E' then (power? rest).map (s.toJson negative) else none
    else if c = 'e' || c = 'E' then (power? rest).map (s.toJson negative)
    else none

def unsigned? (negative : Bool) (text : List Char) : Option Json :=
  let digits := text.takeWhile Char.isDigit
  -- a leading zero stands alone
  if digits.isEmpty || (digits.head? == some '0' && digits.length != 1) then none
  else fromTail? negative (digits.foldl Significand.wholeDigit {}) (text.dropWhile Char.isDigit)

/-- The number that a whole text spells. -/
def number? : List Char → Option Json
  | '-' :: text => unsigned? true text
  | text => unsigned? false text

def isNumberChar (c : Char) : Bool :=
  c.isDigit || c == '-' || c == '+' || c == '.' || c == 'e' || c == 'E'

theorem length_dropWhile_le (p : Char → Bool) (text : List Char) :
    (text.dropWhile p).length ≤ text.length :=
  (List.dropWhile_suffix p).length_le

/-! ## Tokens -/

def isSpace (c : Char) : Bool := c == ' ' || c == '\n' || c == '\t' || c == '\r'

def punctuation? (c : Char) : Option Token :=
  if c = '\x7b' then some .openBrace
  else if c = '\x7d' then some .closeBrace
  else if c = '[' then some .openBracket
  else if c = ']' then some .closeBracket
  else if c = ':' then some .colon
  else if c = ',' then some .comma
  else none

/-- The value that a word of letters names. -/
def word? (letters : List Char) : Option Json :=
  if letters = ['n', 'u', 'l', 'l'] then some .null
  else if letters = ['t', 'r', 'u', 'e'] then some (.bool true)
  else if letters = ['f', 'a', 'l', 's', 'e'] then some (.bool false)
  else none

/-- The tokens of `text` behind those already read, which are collected in reverse. -/
def tokensFrom? (acc : List Token) (text : List Char) : Option (List Token) :=
  match text with
  | [] => some acc.reverse
  | c :: rest =>
    if isSpace c then tokensFrom? acc rest
    else if c = '"' then
      match h : stringRest? (some []) rest with
      | some (s, rest') =>
        have := length_of_stringRest? h
        tokensFrom? (.string s :: acc) rest'
      | none => none
    else match punctuation? c with
      | some t => tokensFrom? (t :: acc) rest
      | none =>
        if c.isAlpha then
          have := length_dropWhile_le Char.isAlpha rest
          match word? (c :: rest.takeWhile Char.isAlpha) with
          | some j => tokensFrom? (.atom j :: acc) (rest.dropWhile Char.isAlpha)
          | none => none
        else
          have := length_dropWhile_le isNumberChar rest
          match number? (c :: rest.takeWhile isNumberChar) with
          | some j => tokensFrom? (.atom j :: acc) (rest.dropWhile isNumberChar)
          | none => none
termination_by text.length

def tokens? (text : String) : Option (List Token) := tokensFrom? [] text.toList

end ClosureConversion.Json
