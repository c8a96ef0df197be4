import ClosureConversion.NameMap

/-! # Rename tables -/

set_option autoImplicit false

namespace ClosureConversion

structure RenameTable where
  frames : List (NameMap String)
  deriving Repr, DecidableEq

namespace RenameTable

/-- A table with one frame. -/
def base : RenameTable := ⟨[.empty]⟩

/-- A table without frames; the first insertion makes one. -/
def noFrames : RenameTable := ⟨[]⟩

def depth (t : RenameTable) : Nat := t.frames.length

def push (t : RenameTable) : RenameTable := ⟨.empty :: t.frames⟩

/-- The innermost frame and the table without it; the outermost frame is never popped. -/
def pop? (t : RenameTable) : Option (NameMap String × RenameTable) :=
  match t.frames with
  | f :: g :: rest => some (f, ⟨g :: rest⟩)
  | _ => none

def pop (t : RenameTable) : RenameTable :=
  match t.pop? with
  | some (_, rest) => rest
  | none => t

/-- Write into the innermost frame. -/
def insert (t : RenameTable) (name ident : String) : RenameTable :=
  match t.frames with
  | [] => ⟨[NameMap.empty.insert name ident]⟩
  | f :: rest => ⟨f.insert name ident :: rest⟩

/-- Write into the frame at `index`, or into the innermost one if there is no such frame. -/
def insertAt (t : RenameTable) (index : Nat) (name ident : String) : RenameTable :=
  if index < t.depth then
    ⟨t.frames.modify (t.depth - 1 - index) (·.insert name ident)⟩
  else
    t.insert name ident

def resolve? (t : RenameTable) (name : String) : Option String :=
  t.frames.findSome? (·.get? name)

/-- Identifiers that some name is mapped to in the frames from `start` on. -/
def targetsSince (t : RenameTable) (start : Nat) : List String :=
  (t.frames.take (t.depth - start)).flatMap NameMap.values

/-- Identifiers that some name is mapped to in the frame at `index`. -/
def targetsAt (t : RenameTable) (index : Nat) : List String :=
  if index < t.depth then
    match t.frames[t.depth - 1 - index]? with
    | some f => f.values
    | none => []
  else
    []

def targets (t : RenameTable) : List String := t.targetsSince 0

end RenameTable

/-- Renames that one step adds to the innermost frame, in the order in which it adds them. -/
abbrev RenameDelta := List (String × String)

namespace RenameDelta

/-- Of several entries for one name the last counts. -/
def find? (d : RenameDelta) (name : String) : Option String :=
  (d.reverse.find? (·.1 == name)).map Prod.snd

def apply (d : RenameDelta) (t : RenameTable) : RenameTable :=
  d.foldl (fun t e => t.insert e.1 e.2) t

end RenameDelta

end ClosureConversion
