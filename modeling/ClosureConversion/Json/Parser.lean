import ClosureConversion.Json.Token

/-! # Reading JSON -/

set_option autoImplicit false

namespace ClosureConversion.Json

/-- An open container with what it holds so far, in reverse. An object also knows the name
whose value is awaited. -/
inductive Container where
  | array (items : List Json)
  | object (fields : List (Option String × Json)) (name : Option String)

/-- What may come next. -/
inductive Expected where
  | value
  | valueOrEnd
  | nameOrEnd
  | name
  | colon
  | commaOrEnd
  | done (value : Json)

structure ParserState where
  containers : List Container := []
  expected : Expected := .value

def maxDepth : Nat := 127

/-- The value of a container whose parts are all there, `depth` deep in the text. -/
def Container.close (depth : Nat) (c : Container) : Json :=
  if maxDepth < depth then .unreadable
  else
    match c with
    | .array items => .arr items.reverse
    | .object fields _ =>
      match fields.reverse.mapM fun f => f.1.map (·, f.2) with
      | some fields => .obj fields
      | none => .unreadable

namespace ParserState

/-- Put a finished value where it was awaited. -/
def finish (containers : List Container) (j : Json) : ParserState :=
  match containers with
  | [] => ⟨[], .done j⟩
  | .array items :: rest => ⟨.array (j :: items) :: rest, .commaOrEnd⟩
  | .object fields name :: rest => ⟨.object ((name, j) :: fields) none :: rest, .commaOrEnd⟩

/-- Start a value with the token `t`. -/
def start? (s : ParserState) (t : Token) : Option ParserState :=
  match t with
  | .atom j => some (finish s.containers j)
  | .string (some text) => some (finish s.containers (.str text))
  | .string none => some (finish s.containers .unreadable)
  | .openBracket => some ⟨.array [] :: s.containers, .valueOrEnd⟩
  | .openBrace => some ⟨.object [] none :: s.containers, .nameOrEnd⟩
  | _ => none

/-- End the innermost container with the token `t`. -/
def close? (s : ParserState) (t : Token) : Option ParserState :=
  match s.containers, t with
  | .array items :: rest, .closeBracket =>
    some (finish rest (Container.close s.containers.length (.array items)))
  | .object fields name :: rest, .closeBrace =>
    some (finish rest (Container.close s.containers.length (.object fields name)))
  | _, _ => none

def named? (s : ParserState) (t : Token) : Option ParserState :=
  match s.containers, t with
  | .object fields _ :: rest, .string name => some ⟨.object fields name :: rest, .colon⟩
  | _, _ => none

def step? (s : ParserState) (t : Token) : Option ParserState :=
  match s.expected with
  | .value => s.start? t
  | .valueOrEnd => (s.close? t).or (s.start? t)
  | .nameOrEnd => (s.close? t).or (s.named? t)
  | .name => s.named? t
  | .colon =>
    match t with
    | .colon => some { s with expected := .value }
    | _ => none
  | .commaOrEnd =>
    match t, s.containers with
    | .comma, .array _ :: _ => some { s with expected := .value }
    | .comma, .object _ _ :: _ => some { s with expected := .name }
    | t, _ => s.close? t
  | .done _ => none

end ParserState

/-- The value that `text` spells, if it follows the grammar; parts of it may be unreadable. -/
def read? (text : String) : Option Json := do
  let s ← (← tokens? text).foldlM ParserState.step? {}
  match s.expected with
  | .done j => some j
  | _ => none

/-- The value that `text` spells, if it is readable as a whole. -/
def parse? (text : String) : Option Json := (read? text).filter isReadable

end ClosureConversion.Json
