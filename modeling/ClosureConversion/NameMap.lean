/-! # Maps from names -/

set_option autoImplicit false

namespace ClosureConversion

/-- Append `name` unless it is already there. -/
def pushNew (names : List String) (name : String) : List String :=
  if name ∈ names then names else names ++ [name]

@[simp] theorem mem_pushNew {names : List String} {name n : String} :
    n ∈ pushNew names name ↔ n ∈ names ∨ n = name := by
  unfold pushNew
  split
  · rename_i h
    exact ⟨Or.inl, fun hn => hn.elim id fun e => e ▸ h⟩
  · simp

theorem nodup_pushNew {names : List String} {name : String} (h : names.Nodup) :
    (pushNew names name).Nodup := by
  unfold pushNew
  split
  · exact h
  · rename_i hfresh
    exact List.nodup_append.mpr ⟨h, by simp, fun a ha b hb => by
      rw [List.mem_singleton.mp hb]
      exact fun e => hfresh (e ▸ ha)⟩

/-- The other names. -/
def without (names : List String) (name : String) : List String := names.filter (· ≠ name)

/-- Leaving out a name that occurs makes a list shorter; searches that never try a name twice
end by this. -/
theorem length_without_lt {names : List String} {name : String} (h : name ∈ names) :
    (without names name).length < names.length := by
  rw [without, List.length_filter_lt_length_iff_exists]
  exact ⟨name, h, by simp⟩

structure NameMap (α : Type) where
  entries : List (String × α) := []
  deriving Repr, DecidableEq

namespace NameMap

variable {α : Type}

def empty : NameMap α := ⟨[]⟩

def find : List (String × α) → String → Option α
  | [], _ => none
  | (k, v) :: rest, n => if k = n then some v else find rest n

def put (n : String) (a : α) : List (String × α) → List (String × α)
  | [] => [(n, a)]
  | (k, v) :: rest => if k = n then (k, a) :: rest else (k, v) :: put n a rest

def get? (m : NameMap α) (n : String) : Option α := find m.entries n

def contains (m : NameMap α) (n : String) : Bool := (m.get? n).isSome

def insert (m : NameMap α) (n : String) (a : α) : NameMap α := ⟨put n a m.entries⟩

/-- Apply `f` to the value at `n`, if there is one. -/
def modify (m : NameMap α) (n : String) (f : α → α) : NameMap α :=
  match m.get? n with
  | some a => m.insert n (f a)
  | none => m

def keys (m : NameMap α) : List String := m.entries.map Prod.fst

def values (m : NameMap α) : List α := m.entries.map Prod.snd

def isEmpty (m : NameMap α) : Bool := m.entries.isEmpty

/-- The map of a list of entries; of several entries for one name the last counts. -/
def ofList (entries : List (String × α)) : NameMap α :=
  entries.foldl (fun m e => m.insert e.1 e.2) empty

/-- Entries of `m`, and those of `n` for names that `m` lacks. -/
def orElse (m n : NameMap α) : NameMap α :=
  n.entries.foldl (fun m e => if m.contains e.1 then m else m.insert e.1 e.2) m

/-- Entries in the order of their names. -/
def sorted (m : NameMap α) : List (String × α) :=
  m.entries.mergeSort fun a b => a.1 ≤ b.1

/-! ## The view `get?` -/

@[simp] theorem get?_empty (n : String) : (empty : NameMap α).get? n = none := rfl

theorem find_put (entries : List (String × α)) (n k : String) (a : α) :
    find (put n a entries) k = if n = k then some a else find entries k := by
  induction entries with
  | nil => simp [put, find]
  | cons e rest ih =>
    obtain ⟨m, v⟩ := e
    by_cases h : m = n
    · subst h
      by_cases hk : m = k <;> simp [put, find, hk]
    · by_cases hk : m = k
      · subst hk
        simp [put, find, h, Ne.symm h]
      · simp [put, find, h, hk, ih]

@[simp] theorem get?_insert (m : NameMap α) (n k : String) (a : α) :
    (m.insert n a).get? k = if n = k then some a else m.get? k :=
  find_put m.entries n k a

theorem get?_insert_self (m : NameMap α) (n : String) (a : α) :
    (m.insert n a).get? n = some a := by simp

theorem get?_modify (m : NameMap α) (n k : String) (f : α → α) :
    (m.modify n f).get? k = if n = k then (m.get? k).map f else m.get? k := by
  unfold modify
  cases h : m.get? n with
  | none =>
    by_cases hk : n = k
    · subst hk; simp [h]
    · simp [hk]
  | some a =>
    by_cases hk : n = k
    · subst hk; simp [h]
    · simp [hk]

theorem mem_of_get? {m : NameMap α} {n : String} {a : α} (h : m.get? n = some a) :
    (n, a) ∈ m.entries := by
  obtain ⟨entries⟩ := m
  induction entries with
  | nil => cases h
  | cons e rest ih =>
    rw [get?, find] at h
    split at h
    · rename_i hkey
      obtain rfl := Option.some.inj h
      exact hkey ▸ List.mem_cons_self
    · exact List.mem_cons_of_mem e (ih h)

theorem get?_orElse (m n : NameMap α) (k : String) :
    (m.orElse n).get? k = (m.get? k).or (n.get? k) := by
  obtain ⟨entries⟩ := n
  unfold orElse
  induction entries generalizing m with
  | nil => simp [get?, find]
  | cons e rest ih =>
    have hstep : (if m.contains e.1 then m else m.insert e.1 e.2).get? k =
        (m.get? k).or (if e.1 = k then some e.2 else none) := by
      by_cases hkey : e.1 = k
      · subst hkey
        cases h : m.get? e.1 <;> simp [contains, h]
      · split <;> simp [hkey]
    rw [List.foldl_cons, ih, hstep, Option.or_assoc]
    congr 1
    by_cases hkey : e.1 = k <;> simp [get?, find, hkey]

/-- What a list of entries, written one after the other, adds to a map. -/
theorem mem_or_get?_of_foldl_insert {entries : List (String × α)} {m : NameMap α} {n : String}
    {a : α} (h : (entries.foldl (fun m e => m.insert e.1 e.2) m).get? n = some a) :
    (n, a) ∈ entries ∨ m.get? n = some a := by
  induction entries generalizing m with
  | nil => exact .inr h
  | cons e rest ih =>
    rcases ih h with hrest | hinsert
    · exact .inl (List.mem_cons_of_mem _ hrest)
    · rw [get?_insert] at hinsert
      split at hinsert
      · rename_i hkey
        obtain rfl : e.2 = a := Option.some.inj hinsert
        exact .inl (hkey ▸ List.mem_cons_self)
      · exact .inr hinsert

theorem mem_of_get?_ofList {entries : List (String × α)} {n : String} {a : α}
    (h : (ofList entries).get? n = some a) : (n, a) ∈ entries :=
  (mem_or_get?_of_foldl_insert h).resolve_right (by simp)

/-! ## Keys -/

theorem mem_keys_iff {m : NameMap α} {n : String} : n ∈ m.keys ↔ (m.get? n).isSome := by
  obtain ⟨entries⟩ := m
  induction entries with
  | nil => simp [keys, get?, find]
  | cons e rest ih =>
    by_cases h : e.1 = n
    · simp [keys, get?, find, h]
    · simpa [keys, get?, find, h, Ne.symm h] using ih

theorem map_fst_put (entries : List (String × α)) (n : String) (a : α) :
    (put n a entries).map Prod.fst = pushNew (entries.map Prod.fst) n := by
  induction entries with
  | nil => simp [put, pushNew]
  | cons e rest ih =>
    by_cases h : e.1 = n
    · simp [put, pushNew, h]
    · by_cases hm : n ∈ rest.map Prod.fst
      · simp_all [put, pushNew, Ne.symm h]
      · simp_all [put, pushNew, Ne.symm h]

@[simp] theorem keys_insert (m : NameMap α) (n : String) (a : α) :
    (m.insert n a).keys = pushNew m.keys n :=
  map_fst_put m.entries n a

@[simp] theorem keys_modify (m : NameMap α) (n : String) (f : α → α) :
    (m.modify n f).keys = m.keys := by
  unfold modify
  split
  · rename_i a h
    rw [keys_insert, pushNew, if_pos (mem_keys_iff.mpr (by simp [h]))]
  · rfl

theorem mem_keys_foldl_insert {entries : List (String × α)} {m : NameMap α} {n : String} :
    n ∈ (entries.foldl (fun m e => m.insert e.1 e.2) m).keys ↔
      n ∈ m.keys ∨ ∃ e ∈ entries, n = e.1 := by
  induction entries generalizing m with
  | nil => simp
  | cons e rest ih => simp [ih, or_assoc]

theorem nodup_keys_foldl_insert {entries : List (String × α)} {m : NameMap α}
    (h : m.keys.Nodup) : (entries.foldl (fun m e => m.insert e.1 e.2) m).keys.Nodup := by
  induction entries generalizing m with
  | nil => exact h
  | cons e rest ih => exact ih (by rw [keys_insert]; exact nodup_pushNew h)

theorem nodup_keys_ofList (entries : List (String × α)) : (ofList entries).keys.Nodup :=
  nodup_keys_foldl_insert List.nodup_nil

/-- Writing the values of a map that holds no name twice on top of another. -/
theorem get?_foldl_insert_entries {β : Type} (f : String → α → β) {m : NameMap α} (h : m.keys.Nodup)
    (base : NameMap β) (n : String) :
    (m.entries.foldl (fun b e => b.insert e.1 (f e.1 e.2)) base).get? n =
      ((m.get? n).map (f n)).or (base.get? n) := by
  obtain ⟨entries⟩ := m
  induction entries generalizing base with
  | nil => rfl
  | cons e rest ih =>
    obtain ⟨hfresh, hrest⟩ := List.nodup_cons.mp h
    rw [List.foldl_cons, ih _ hrest, get?_insert]
    by_cases hkey : e.1 = n
    · have hnone : (⟨rest⟩ : NameMap α).get? n = none := by
        rw [← Option.not_isSome_iff_eq_none, ← mem_keys_iff, ← hkey]
        exact hfresh
      rw [hnone, if_pos hkey]
      simp [get?, find, hkey]
    · rw [if_neg hkey]
      simp [get?, find, hkey]

end NameMap

end ClosureConversion
