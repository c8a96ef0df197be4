import ClosureConversion.Json.Record

/-! # Values up to the order of fields -/

set_option autoImplicit false

namespace ClosureConversion.Json

/-! ## Reordered values -/

mutual

/-- The same value but for the order of fields in its objects. -/
inductive Reordered : Json → Json → Prop
  | null : Reordered .null .null
  | bool (b : Bool) : Reordered (.bool b) (.bool b)
  | num (n : Number) : Reordered (.num n) (.num n)
  | str (s : String) : Reordered (.str s) (.str s)
  | unreadable : Reordered .unreadable .unreadable
  | arr {items items' : List Json} (h : ItemsReordered items items') :
      Reordered (.arr items) (.arr items')
  | obj {fields fields' shuffled : List (String × Json)} (h : FieldsReordered fields fields')
      (hperm : fields'.Perm shuffled) : Reordered (.obj fields) (.obj shuffled)

/-- Item by item. -/
inductive ItemsReordered : List Json → List Json → Prop
  | nil : ItemsReordered [] []
  | cons {j j' : Json} {items items' : List Json} (h : Reordered j j')
      (hrest : ItemsReordered items items') : ItemsReordered (j :: items) (j' :: items')

/-- Field by field, under the same names. -/
inductive FieldsReordered : List (String × Json) → List (String × Json) → Prop
  | nil : FieldsReordered [] []
  | cons {name : String} {j j' : Json} {fields fields' : List (String × Json)}
      (h : Reordered j j') (hrest : FieldsReordered fields fields') :
      FieldsReordered ((name, j) :: fields) ((name, j') :: fields')

end

mutual

theorem Reordered.refl : ∀ j : Json, j.Reordered j
  | .null => .null
  | .bool b => .bool b
  | .num n => .num n
  | .str s => .str s
  | .unreadable => .unreadable
  | .arr items => .arr (ItemsReordered.refl items)
  | .obj fields => .obj (FieldsReordered.refl fields) (.refl fields)

theorem ItemsReordered.refl : ∀ items : List Json, ItemsReordered items items
  | [] => .nil
  | j :: items => .cons (Reordered.refl j) (ItemsReordered.refl items)

theorem FieldsReordered.refl : ∀ fields : List (String × Json), FieldsReordered fields fields
  | [] => .nil
  | (_, j) :: fields => .cons (Reordered.refl j) (FieldsReordered.refl fields)

end

variable {j j' : Json} {α : Type}

theorem Reordered.isNull (h : j.Reordered j') : j'.isNull = j.isNull := by
  cases h <;> rfl

theorem Reordered.of_arr {items : List Json} (h : (Json.arr items).Reordered j) :
    ∃ items', j = .arr items' ∧ ItemsReordered items items' := by
  cases h with
  | arr h => exact ⟨_, rfl, h⟩

theorem Reordered.of_obj {fields : List (String × Json)} (h : (Json.obj fields).Reordered j) :
    ∃ fields' shuffled, j = .obj shuffled ∧ FieldsReordered fields fields' ∧
      fields'.Perm shuffled := by
  cases h with
  | obj h hperm => exact ⟨_, _, rfl, h, hperm⟩

theorem FieldsReordered.names {fields fields' : List (String × Json)}
    (h : FieldsReordered fields fields') : fields'.map Prod.fst = fields.map Prod.fst := by
  induction fields generalizing fields' with
  | nil =>
    cases h
    rfl
  | cons f fields ih =>
    cases h with
    | cons _ hrest => rw [List.map_cons, List.map_cons, ih hrest]

theorem FieldsReordered.exists_mem {fields fields' : List (String × Json)}
    (h : FieldsReordered fields fields') {name : String} {x : Json} (hmem : (name, x) ∈ fields) :
    ∃ x', (name, x') ∈ fields' ∧ x.Reordered x' := by
  induction fields generalizing fields' with
  | nil => cases hmem
  | cons f fields ih =>
    cases h with
    | cons hfirst hrest =>
      rcases List.mem_cons.mp hmem with heq | hmem
      · cases heq
        exact ⟨_, List.mem_cons_self, hfirst⟩
      · obtain ⟨x', hx', hreordered⟩ := ih hrest hmem
        exact ⟨x', List.mem_cons_of_mem _ hx', hreordered⟩

/-! ## Variants and records -/

/-- The content of a variant is found under its name. -/
theorem Reordered.variant {name : String} {x : Json} (h : (Json.obj [(name, x)]).Reordered j) :
    ∃ y : Within j, j.variant? = some (name, some y) ∧ x.Reordered y.val := by
  obtain ⟨fields, shuffled, rfl, hfields, hperm⟩ := h.of_obj
  cases hfields with
  | cons hx hnil =>
    cases hnil
    obtain rfl := List.singleton_perm.mp hperm
    exact ⟨_, rfl, hx⟩

/-- The record has these fields, up to reordering in their values. -/
structure Record.Carries {j : Json} (r : Record j) (fields : List (String × Json)) : Prop where
  isArray : r.isArray = false
  find? : ∀ name x, (name, x) ∈ fields → ∃ y, r.find? name = some y ∧ x.Reordered y.val

theorem find?_of_mem {β : Type} {fields : List (String × β)} (hnodup : (fields.map Prod.fst).Nodup)
    {name : String} {b : β} (hmem : (name, b) ∈ fields) :
    (fields.find? (·.1 == name)).map Prod.snd = some b := by
  induction fields with
  | nil => cases hmem
  | cons f fields ih =>
    obtain ⟨hfirst, hrest⟩ := List.nodup_cons.mp hnodup
    rcases List.mem_cons.mp hmem with rfl | hmem
    · simp
    · have hne : f.1 ≠ name := fun heq =>
        hfirst (heq ▸ List.mem_map.mpr ⟨(name, b), hmem, rfl⟩)
      rw [List.find?_cons_of_neg (by simpa using hne)]
      exact ih hrest hmem

/-- A record that was written with distinct fields is read, whatever the order. -/
theorem Reordered.record {fields : List (String × Json)} (h : (Json.obj fields).Reordered j)
    (hnodup : (fields.map Prod.fst).Nodup) (names : List String) :
    ∃ r, j.record? names = some r ∧ r.Carries fields := by
  obtain ⟨fields', shuffled, rfl, hfields, hperm⟩ := h.of_obj
  let within : List (String × Within (.obj shuffled)) := shuffled.attach.map fun x =>
    (x.val.1, ⟨x.val.2, sizeOf_snd_lt x.property⟩)
  have hnames : within.map Prod.fst = shuffled.map Prod.fst := by
    have hattach := congrArg (List.map Prod.fst) (List.attach_map_subtype_val shuffled)
    rw [List.map_map] at hattach ⊢
    exact hattach
  have hdistinct : (within.map Prod.fst).Nodup := by
    rw [hnames, ← (hperm.map Prod.fst).nodup_iff, hfields.names]
    exact hnodup
  have hread : (Json.obj shuffled).record? names = some ⟨within, false⟩ := by
    have hcount : ∀ n ∈ names, (within.filter (·.1 == n)).length ≤ 1 := fun n _ => by
      have := List.nodup_iff_count.mp hdistinct n
      rwa [List.count, List.countP_map, List.countP_eq_length_filter] at this
    exact if_pos (List.all_eq_true.mpr fun n hn => decide_eq_true (hcount n hn))
  refine ⟨_, hread, rfl, fun name x hx => ?_⟩
  obtain ⟨x', hx', hreordered⟩ := hfields.exists_mem hx
  have hmem : (name, x') ∈ shuffled := hperm.mem_iff.mp hx'
  refine ⟨⟨x', sizeOf_snd_lt hmem⟩, find?_of_mem hdistinct ?_, hreordered⟩
  exact List.mem_map.mpr ⟨⟨(name, x'), hmem⟩, List.mem_attach _ _, rfl⟩

namespace Within

variable {x : Within j}

theorem fields_lift (r : Record x.val) :
    (r.lift : Record j).fields = r.fields.map fun f => (f.1, x.trans f.2) := rfl

theorem find?_lift (r : Record x.val) (name : String) :
    (r.lift : Record j).find? name = (r.find? name).map x.trans := by
  simp only [Record.find?, fields_lift, List.find?_map, Option.map_map]
  rfl

/-- The same for a record inside a value. -/
theorem record_of_reordered {fields : List (String × Json)} (h : (Json.obj fields).Reordered x.val)
    (hnodup : (fields.map Prod.fst).Nodup) (names : List String) :
    ∃ r, x.record? names = some r ∧ r.Carries fields := by
  obtain ⟨r, hr, hcarries⟩ := h.record hnodup names
  refine ⟨r.lift, by rw [Within.record?, hr, Option.map_some], hcarries.isArray, ?_⟩
  intro name y hy
  obtain ⟨z, hz, hreordered⟩ := hcarries.find? name y hy
  exact ⟨x.trans z, by rw [find?_lift, hz, Option.map_some], hreordered⟩

theorem struct_of_reordered {fields : List (String × Json)} (h : (Json.obj fields).Reordered x.val)
    (hnodup : (fields.map Prod.fst).Nodup) (s : Strictness) (names : List String) :
    ∃ r, x.struct? s names = some r ∧ r.Carries fields := by
  obtain ⟨r, hr, hcarries⟩ := record_of_reordered h hnodup names
  obtain ⟨_, shuffled, hval, _, _⟩ := h.of_obj
  refine ⟨r, ?_, hcarries⟩
  rw [← hr, struct?]
  intro items _ harr
  simp [hval] at harr

end Within

/-! ## Readers -/

/-- The reader finds `a` in `x`, however the fields are ordered. -/
def Reads (f : Json → Option α) (x : Json) (a : α) : Prop := ∀ y, x.Reordered y → f y = some a

variable {f : Json → Option α} {g : α → Json} {x : Json} {a : α}

/-- What a reader that refuses `null` finds something in is not `null`. -/
theorem Reads.isNull_eq_false (h : Reads f x a) (hnull : f .null = none) : x.isNull = false := by
  cases x with
  | null => exact absurd ((h _ .null).symm.trans hnull) (by simp)
  | _ => rfl

theorem reads_string (t : String) : Reads string? (.str t) t := by
  rintro _ ⟨⟩
  rfl

theorem reads_bool (b : Bool) : Reads bool? (.bool b) b := by
  rintro _ ⟨⟩
  rfl

theorem reads_int64 (i : Int64) : Reads int64? (.int i.toInt) i := by
  rintro _ ⟨⟩
  have hle : Int64.minValue.toInt ≤ i.toInt ∧ i.toInt ≤ Int64.maxValue.toInt :=
    ⟨i.minValue_le_toInt, i.toInt_le⟩
  exact (if_pos hle).trans (congrArg some i.ofInt_toInt)

theorem reads_uint32 (n : UInt32) : Reads uint32? (.nat n.toNat) n := by
  rintro _ ⟨⟩
  have hlt : (0 : Int) ≤ n.toNat ∧ (n.toNat : Int) < 4294967296 := by
    have := n.toNat_lt
    omega
  rw [uint32?, integer?, Option.bind_some, Int.ofNat_eq_natCast, if_pos hlt, Int.toNat_natCast,
    UInt32.ofNat_toNat]

theorem reads_float {t : Float} (h : t.isFinite = true) : Reads float? (.ofFloat t) t := by
  rw [ofFloat, if_pos h]
  rintro _ ⟨⟩
  rfl

theorem reads_nil : Reads (listOf? f) (.arr []) [] := by
  intro y h
  obtain ⟨_, rfl, hitems⟩ := h.of_arr
  cases hitems
  rfl

theorem Reads.cons {xs : List Json} {as : List α} (h : Reads f x a)
    (hrest : Reads (listOf? f) (.arr xs) as) : Reads (listOf? f) (.arr (x :: xs)) (a :: as) := by
  intro y hy
  obtain ⟨_, rfl, hitems⟩ := hy.of_arr
  cases hitems with
  | @cons _ x' _ xs' hx hxs =>
    have has : xs'.mapM f = some as := hrest _ (.arr hxs)
    rw [listOf?, List.mapM_cons, h _ hx, has]
    rfl

theorem reads_map {as : List α} (h : ∀ a ∈ as, Reads f (g a) a) :
    Reads (listOf? f) (.arr (as.map g)) as := by
  induction as with
  | nil => exact reads_nil
  | cons a as ih =>
    obtain ⟨hfirst, hrest⟩ := List.forall_mem_cons.mp h
    exact hfirst.cons (ih hrest)

theorem reads_strings (ts : List String) : Reads strings? (.strings ts) ts :=
  reads_map fun t _ => reads_string t

namespace Within

/-- Reading a list item by item. -/
theorem list?_val (f : Json → Option α) : ∀ x : Within j,
    (x.list? fun y => f y.val) = listOf? f x.val := by
  rintro ⟨y, hy⟩
  cases y with
  | arr items =>
    have hattach := List.mapM_map (f := Subtype.val) (g := f) (l := items.attach)
    rw [List.attach_map_subtype_val] at hattach
    simp only [list?, items?, Json.items?, Option.map_some, Option.bind_some, List.mapM_map]
    exact hattach.symm
  | _ => rfl

/-- The two items of a pair. -/
theorem items_of_pair {a b : Json} {x : Within j} (h : (Json.arr [a, b]).Reordered x.val) :
    ∃ y z : Within j, x.items? = some [y, z] ∧ a.Reordered y.val ∧ b.Reordered z.val := by
  obtain ⟨x, hx⟩ := x
  obtain ⟨_, rfl, hitems⟩ := h.of_arr
  cases hitems with
  | cons ha hrest =>
    cases hrest with
    | cons hb hnil =>
      cases hnil
      exact ⟨_, _, rfl, ha, hb⟩

/-- A part that may be missing, read where `null` is no value of its own. -/
theorem option?_of_reordered {o : Option α} {x : Within j} (h : (Json.option g o).Reordered x.val)
    (hnull : f .null = none) (hf : ∀ a, o = some a → Reads f (g a) a) :
    (x.option? fun y => f y.val) = some o := by
  cases o with
  | none =>
    have hmissing : x.val.isNull = true := h.isNull
    rw [option?, if_pos hmissing]
  | some a =>
    have hreads := hf a rfl
    have hpresent : x.val.isNull = false := h.isNull.trans (hreads.isNull_eq_false hnull)
    have hread : f x.val = some a := hreads _ h
    simp only [option?, hpresent, hread, Bool.false_eq_true, if_false, Option.map_some]

end Within

namespace Record.Carries

variable {r : Record j} {fields : List (String × Json)}

theorem required (h : r.Carries fields) (name : String) (hmem : (name, x) ∈ fields)
    (hreads : Reads f x a) : (r.required name fun y => f y.val) = some a := by
  obtain ⟨y, hy, hreordered⟩ := h.find? name x hmem
  rw [Record.required, hy, Option.bind_some, hreads _ hreordered]

theorem orDefault (h : r.Carries fields) (name : String) (hmem : (name, x) ∈ fields)
    (hreads : Reads f x a) (d : α) : (r.orDefault name d fun y => f y.val) = some a := by
  obtain ⟨y, hy, hreordered⟩ := h.find? name x hmem
  simp only [Record.orDefault, hy, hreads _ hreordered]

theorem optional (h : r.Carries fields) (name : String) (o : Option α)
    (hmem : (name, Json.option g o) ∈ fields) (hnull : f .null = none)
    (hf : ∀ a, o = some a → Reads f (g a) a) : (r.optional name fun y => f y.val) = some o := by
  obtain ⟨y, hy, hreordered⟩ := h.find? name _ hmem
  rw [Record.optional, hy]
  exact Within.option?_of_reordered hreordered hnull hf

theorem nullable (h : r.Carries fields) (name : String) (o : Option α)
    (hmem : (name, Json.option g o) ∈ fields) (hnull : f .null = none)
    (hf : ∀ a, o = some a → Reads f (g a) a) : (r.nullable name fun y => f y.val) = some o := by
  rw [Record.nullable, h.isArray, Bool.false_and, if_neg Bool.false_ne_true]
  exact h.optional name o hmem hnull hf

end Record.Carries

theorem Reads.of_variant {name : String}
    (h : ∀ j (y : Within j), j.variant? = some (name, some y) → x.Reordered y.val → f j = some a) :
    Reads f (.obj [(name, x)]) a := by
  intro j hj
  obtain ⟨y, hvariant, hy⟩ := hj.variant
  exact h j y hvariant hy

theorem Reads.of_record {fields : List (String × Json)} (names : List String)
    (hnodup : (fields.map Prod.fst).Nodup)
    (h : ∀ j (r : Record j), j.record? names = some r → r.Carries fields → f j = some a) :
    Reads f (.obj fields) a := by
  intro j hj
  obtain ⟨r, hrecord, hcarries⟩ := hj.record hnodup names
  exact h j r hrecord hcarries

theorem Reads.of_struct {name : String} {fields : List (String × Json)} (s : Strictness)
    (names : List String) (hnodup : (fields.map Prod.fst).Nodup)
    (h : ∀ j (y : Within j) (r : Record j), j.variant? = some (name, some y) →
      y.struct? s names = some r → r.Carries fields → f j = some a) :
    Reads f (.obj [(name, .obj fields)]) a := by
  refine Reads.of_variant fun j y hvariant hy => ?_
  obtain ⟨r, hstruct, hcarries⟩ := Within.struct_of_reordered hy hnodup s names
  exact h j y r hvariant hstruct hcarries

/-! ## Values that nobody can mistake for each other -/

/-- No value is a reordering of both. -/
def Apart (x y : Json) : Prop := ∀ j, x.Reordered j → ¬ y.Reordered j

theorem apart_null (h : x.isNull = false) : x.Apart .null := by
  intro j hx hnull
  have : true = false := hnull.isNull.symm.trans (hx.isNull.trans h)
  contradiction

/-- Records are told apart by one field. -/
theorem apart_of_field {fields fields' : List (String × Json)} {x' : Json}
    (hnodup : (fields.map Prod.fst).Nodup) (hnodup' : (fields'.map Prod.fst).Nodup) (name : String)
    (hx : (name, x) ∈ fields) (hx' : (name, x') ∈ fields') (h : x.Apart x') :
    (Json.obj fields).Apart (.obj fields') := by
  intro j hj hj'
  obtain ⟨r, hr, hc⟩ := hj.record hnodup []
  obtain ⟨r', hr', hc'⟩ := hj'.record hnodup' []
  obtain rfl : r = r' := Option.some.inj (hr.symm.trans hr')
  obtain ⟨y, hy, hxy⟩ := hc.find? name x hx
  obtain ⟨y', hy', hxy'⟩ := hc'.find? name x' hx'
  obtain rfl : y = y' := Option.some.inj (hy.symm.trans hy')
  exact h _ hxy hxy'

/-- So are variants of one name by what they hold. -/
theorem Apart.variant {x y : Json} (h : x.Apart y) (name : String) :
    (Json.obj [(name, x)]).Apart (.obj [(name, y)]) :=
  apart_of_field (by simp) (by simp) name (by simp) (by simp) h

theorem Apart.singleton {x y : Json} (h : x.Apart y) : (Json.arr [x]).Apart (.arr [y]) := by
  intro j hx hy
  obtain ⟨_, rfl, hitems⟩ := hx.of_arr
  obtain ⟨_, heq, hitems'⟩ := hy.of_arr
  cases heq
  cases hitems with
  | cons hfirst _ =>
    cases hitems' with
    | cons hfirst' _ => exact h _ hfirst hfirst'

end ClosureConversion.Json
