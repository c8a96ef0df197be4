import ClosureConversion.Decimal.Range
import ClosureConversion.Text.Literal
import ClosureConversion.Toml.Basic

/-! # Reading configuration documents -/

set_option autoImplicit false

namespace ClosureConversion.Toml

abbrev Reader := StateT (List Char) Option

namespace Reader

variable {α : Type}

def satisfying (p : Char → Bool) : Reader Char := fun
  | c :: cs => if p c then some (c, cs) else none
  | [] => none

def char (c : Char) : Reader Unit := do
  let _ ← satisfying (· == c)

def word (s : String) : Reader Unit := s.toList.forM char

def oneOf (s : String) : Reader Char := satisfying s.toList.contains

def takeWhile (p : Char → Bool) : Reader (List Char) := fun cs =>
  some (cs.takeWhile p, cs.dropWhile p)

def optional (p : Reader α) : Reader (Option α) := fun cs =>
  match p.run cs with
  | some (a, rest) => some (some a, rest)
  | none => some (none, cs)

def manyFrom (p : Reader α) (cs : List Char) : List α × List Char :=
  match p.run cs with
  | some (a, rest) =>
    if _ : rest.length < cs.length then
      let r := manyFrom p rest
      (a :: r.1, r.2)
    else ([], cs)
  | none => ([], cs)
termination_by cs.length

/-- As many as there are. One that takes no characters ends the sequence. -/
def many (p : Reader α) : Reader (List α) := fun cs => some (manyFrom p cs)

/-- One or more with `separator` between them. -/
def separated (separator : Reader Unit) (p : Reader α) : Reader (List α) := do
  let first ← p
  let rest ← many (do separator; p)
  return first :: rest

def atEnd : Reader Unit := fun
  | [] => some ((), [])
  | _ => none

/-! ## Blanks -/

def isPlain (c : Char) : Bool := c == '\t' || (0x20 ≤ c.toNat && c.toNat != 0x7f)

def isBlank (c : Char) : Bool := c == ' ' || c == '\t'

def blanks : Reader Unit := do
  let _ ← takeWhile isBlank

def newline : Reader Unit := char '\n' <|> word "\r\n"

def comment : Reader Unit := do
  char '#'
  let _ ← takeWhile isPlain

/-- Blanks, line ends and comments. -/
def gap : Reader Unit := do
  let _ ← many ((do let _ ← satisfying isBlank) <|> newline <|> comment)

/-! ## Strings -/

def hexCode (digits : Nat) : Reader Char := do
  let ds ← (List.replicate digits ()).mapM fun _ => satisfying (Text.hexValue? · |>.isSome)
  let code := ds.foldl (fun n d => 16 * n + (Text.hexValue? d).getD 0) 0
  if code.isValidChar then return Char.ofNat code else failure

def escape : Reader Char := do
  char '\\'
  match ← satisfying fun _ => true with
  | 'b' => return '\x08'
  | 't' => return '\t'
  | 'n' => return '\n'
  | 'f' => return '\x0c'
  | 'r' => return '\r'
  | '"' => return '"'
  | '\\' => return '\\'
  | 'u' => hexCode 4
  | 'U' => hexCode 8
  | _ => failure

def basicChar : Reader Char := satisfying (fun c => isPlain c && c != '"' && c != '\\') <|> escape

def basicString : Reader String := do
  char '"'
  let cs ← many basicChar
  char '"'
  return String.ofList cs

def apostrophe : Char := '\x27'

def literalString : Reader String := do
  char apostrophe
  let cs ← takeWhile fun c => isPlain c && c != apostrophe
  char apostrophe
  return String.ofList cs

/-- Fewer than three quotes, which do not end a string of several lines. -/
def innerQuotes (quote : Char) : Reader (List Char) := do
  let qs ← takeWhile (· == quote)
  if qs.isEmpty || 3 ≤ qs.length then failure else return qs

/-- Three quotes end the string; up to two more right before them belong to it. -/
def closingQuotes (quote : Char) : Reader (List Char) := do
  let qs ← takeWhile (· == quote)
  if 3 ≤ qs.length && qs.length ≤ 5 then return qs.drop 3 else failure

/-- A backslash at the end of a line takes all blanks and line ends after it away. -/
def lineContinuation : Reader (List Char) := do
  char '\\'
  blanks
  newline
  let _ ← many ((do let _ ← satisfying isBlank) <|> newline)
  return []

def lineBreak : Reader (List Char) := do
  newline
  return ['\n']

def longString (quote : Char) (piece : Reader (List Char)) : Reader String := do
  word (String.ofList [quote, quote, quote])
  let _ ← optional newline
  let pieces ← many (innerQuotes quote <|> lineBreak <|> piece)
  let last ← closingQuotes quote
  return String.ofList (pieces.flatten ++ last)

def longBasicPiece : Reader (List Char) :=
  lineContinuation <|> do return [← basicChar]

def longLiteralPiece : Reader (List Char) := do
  return [← satisfying fun c => isPlain c && c != apostrophe]

def string : Reader String :=
  longString '"' longBasicPiece <|> longString apostrophe longLiteralPiece <|> basicString
    <|> literalString

/-! ## Numbers and dates -/

/-- Digits, single underscores between them left out. -/
def digits (p : Char → Bool) : Reader (List Char) := do
  let first ← satisfying p
  let rest ← many (do let _ ← optional (char '_'); satisfying p)
  return first :: rest

/-- No zeros in front. -/
def decimal : Reader (List Char) := do
  let ds ← digits Char.isDigit
  if ds.head? = some '0' && 1 < ds.length then failure else return ds

def sign : Reader Int := do
  match ← optional (oneOf "+-") with
  | some '-' => return -1
  | _ => return 1

def valueIn (base : Nat) (ds : List Char) : Nat :=
  ds.foldl (fun n d => base * n + (Text.hexValue? d).getD 0) 0

def radixNumber (mark : String) (base : Nat) : Reader Int := do
  word mark
  let ds ← digits fun c => (Text.hexValue? c).any (· < base)
  return valueIn base ds

def wholeNumber : Reader Int := do
  let s ← sign
  return s * valueIn 10 (← decimal)

/-- Whole numbers have 64 bits. -/
def integer : Reader Int := do
  let n ← radixNumber "0x" 16 <|> radixNumber "0o" 8 <|> radixNumber "0b" 2 <|> wholeNumber
  if Int64.minValue.toInt ≤ n && n ≤ Int64.maxValue.toInt then return n else failure

def fraction : Reader (List Char) := do
  char '.'
  digits Char.isDigit

def exponent : Reader Int := do
  let _ ← oneOf "eE"
  let s ← sign
  return s * valueIn 10 (← digits Char.isDigit)

/-- The digits behind the point and the power of ten of a float that has one of the two. -/
def scaling : Reader (List Char × Int) :=
  (do return ([], ← exponent)) <|> do
    let ds ← fraction
    return (ds, (← optional exponent).getD 0)

/-- A positive float is not too large. -/
def float : Reader Unit := do
  let s ← sign
  word "inf" <|> word "nan" <|> do
    let whole ← decimal
    let (part, power) ← scaling
    if 0 < s && Decimal.exceedsFloats (valueIn 10 (whole ++ part)) (power - part.length) then
      failure

/-- A number of exactly so many digits, between two bounds. -/
def field (width low high : Nat) : Reader Nat := do
  let ds ← (List.replicate width ()).mapM fun _ => satisfying Char.isDigit
  let n := valueIn 10 ds
  if low ≤ n && n ≤ high then return n else failure

def isLeapYear (y : Nat) : Bool := y % 4 == 0 && (y % 100 != 0 || y % 400 == 0)

def daysIn (year month : Nat) : Nat :=
  if month = 2 then (if isLeapYear year then 29 else 28)
  else if [4, 6, 9, 11].contains month then 30
  else 31

def date : Reader Unit := do
  let year ← field 4 0 9999
  char '-'
  let month ← field 2 1 12
  char '-'
  let _ ← field 2 1 (daysIn year month)

def time : Reader Unit := do
  let _ ← field 2 0 23
  char ':'
  let _ ← field 2 0 59
  char ':'
  let _ ← field 2 0 60
  let _ ← optional (do char '.'; satisfying Char.isDigit *> takeWhile Char.isDigit)

def zone : Reader Unit := (do let _ ← oneOf "Zz") <|> do
  let _ ← oneOf "+-"
  let _ ← field 2 0 23
  char ':'
  let _ ← field 2 0 59

def moment : Reader Unit := time <|> do
  date
  let _ ← optional do
    let _ ← oneOf "Tt "
    time
    let _ ← optional zone

/-! ## Keys, values and statements -/

def bareKey : Reader String := do
  let cs ← takeWhile fun c => c.isAlphanum || c == '_' || c == '-'
  if cs.isEmpty then failure else return String.ofList cs

/-- Keys have fewer parts, and containers are fewer levels deep. -/
def maxNesting : Nat := 80

/-- A dotted key. -/
def key : Reader (List String) := do
  blanks
  let names ← separated (do blanks; char '.'; blanks) (bareKey <|> basicString <|> literalString)
  blanks
  if names.length < maxNesting then return names else failure

/-- The keys on the way and the last one. -/
def splitLast : List String → Option (List String × String)
  | [] => none
  | [name] => some ([], name)
  | k :: ks => (splitLast ks).map fun r => (k :: r.1, r.2)

def pair (value : Reader Toml) : Reader (List String × String × Toml) := do
  let names ← key
  char '='
  blanks
  let v ← value
  match splitLast names with
  | some (path, name) => return (path, name, v)
  | none => failure

def array (value : Reader Toml) : Reader Toml := do
  char '['
  gap
  let items ← optional do
    let items ← separated (do gap; char ','; gap) value
    let _ ← optional (do gap; char ',')
    return items
  gap
  char ']'
  return .array (items.getD [])

def braces (value : Reader Toml) : Reader Toml := do
  char '\x7b'
  blanks
  let pairs ← optional (separated (do blanks; char ','; blanks) (pair value))
  blanks
  char '\x7d'
  let es ← (pairs.getD []).foldlM (fun es p => assign p.2.1 p.2.2 p.1 es) ([] : Entries)
  return .table .braces es

/-- A value without parts. -/
def plainValue : Reader Toml :=
  (return .string (← string))
    <|> (do word "true"; return .boolean true)
    <|> (do word "false"; return .boolean false)
    <|> (do moment; return .moment)
    <|> (do float; return .float)
    <|> (return .integer (← integer))

/-- A value with fewer than `depth` brackets and braces around each other. -/
def value : Nat → Reader Toml
  | 0 => failure
  | 1 => plainValue
  | depth + 1 => plainValue <|> array (value depth) <|> braces (value depth)

def statement : Reader Statement :=
  (do
    word "[["
    let path ← key
    word "]]"
    return .item path)
  <|> (do
    char '['
    let path ← key
    char ']'
    return .table path)
  <|> (do
    let (path, name, v) ← pair (value maxNesting)
    return .pair path name v)

def line : Reader (Option Statement) := do
  blanks
  let s ← optional statement
  blanks
  let _ ← optional comment
  newline <|> atEnd
  return s

def statements : Reader (List Statement) := do
  let _ ← optional (char '\ufeff')
  let ss ← many line
  atEnd
  return ss.filterMap id

end Reader

/-- The entries of the document that `text` spells, if it is one. -/
def parse? (text : String) : Option Entries := do
  let (ss, _) ← Reader.statements.run text.toList
  let d ← ss.foldlM Document.extend? {}
  return d.entries

end ClosureConversion.Toml
