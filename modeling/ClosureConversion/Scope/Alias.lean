import ClosureConversion.Scope.Basic

/-! # Aliases -/

set_option autoImplicit false

namespace ClosureConversion

namespace Scope

def aliasOf (s : Scope) (name : String) : Option String := (s.lookup name).bind Binding.aliasOf

/-- All bound names, outermost frames first. -/
def boundNames (s : Scope) : List String :=
  (s.allFrames.reverse.flatMap fun f => f.bindings.keys).foldl pushNew []

/-- Follow the links from `name` as long as they lead from names in `unseen`. -/
def aliasEnd (s : Scope) (unseen : List String) (name : String) : String :=
  match s.aliasOf name with
  | none => name
  | some next =>
    if name ∈ unseen then s.aliasEnd (without unseen name) next else name
termination_by unseen.length
decreasing_by
  rename_i h
  exact length_without_lt h

/-- The name that owns the storage of `name`. -/
def aliasRoot (s : Scope) (name : String) : String := s.aliasEnd s.boundNames name

/-- The other visible names that share storage with `name`, sorted. -/
def aliasesOf (s : Scope) (name : String) : List String :=
  (s.boundNames.filter fun n => n ≠ name && s.aliasRoot n == s.aliasRoot name).mergeSort (· ≤ ·)

def clearAlias (s : Scope) (name : String) : Scope :=
  s.modifyBinding name ({ · with aliasOf := none })

/-- `name` shares storage with `target`; a link back to itself is no alias. -/
def recordAlias (s : Scope) (name target : String) : Scope :=
  let root := s.aliasRoot target
  if root = name then s.clearAlias name
  else s.modifyBinding name ({ · with aliasOf := some root })

/-- Whatever is recorded, only the link of the name changes. -/
theorem recordAlias_eq (s : Scope) (name target : String) :
    ∃ link, s.recordAlias name target = s.modifyBinding name ({ · with aliasOf := link }) := by
  unfold recordAlias
  dsimp only
  split
  · exact ⟨none, rfl⟩
  · exact ⟨_, rfl⟩

end Scope

end ClosureConversion
