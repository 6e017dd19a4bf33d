import RequestMeter.Json.Decode
import Mathlib.Data.List.Nodup

/-! # Fields of a structure

What is found under the names of a structure does not depend on the order of the fields, nor on fields
with other names.
-/
namespace RequestMeter.Json

/-! ## Fields whose names are text -/

def lookup (fields : List (String × Json)) (name : String) : Option Json :=
  (fields.find? (·.1 = name)).map (·.2)

theorem names?_record (fields : List (String × Json)) :
    names? (fields.map fun f => (some f.1, f.2)) = some (fields.map (·.1)) := by
  induction fields with
  | nil => rfl
  | cons f fs ih =>
    rw [names?] at *
    rw [List.map_cons, List.mapM_cons, ih]
    rfl

theorem find?_record (fields : List (String × Json)) (name : String) :
    ((fields.map fun f => (some f.1, f.2)).find? (·.1 = some name)).map (·.2) =
      lookup fields name := by
  rw [lookup, List.find?_map, Option.map_map]
  simp only [Function.comp_def, Option.some.injEq]

/-- A record is read by looking its fields up. -/
theorem members?_record {known : List String} {fields : List (String × Json)}
    (h : once known (fields.map (·.1)) = true) :
    (record fields).members? known = some (lookup fields) := by
  simp only [record, members?, names?_record, Option.bind_eq_bind, Option.bind_some, if_pos h,
    find?_record]
  rfl

theorem sublist_names_zip (known : List String) (items : List Json) :
    ((known.zip items).map (·.1)).Sublist known := by
  induction known generalizing items with
  | nil => exact List.Sublist.refl _
  | cons k known ih =>
    cases items with
    | nil => exact List.nil_sublist _
    | cons j items => exact (ih items).cons_cons k

theorem members?_array {known : List String} {items : List Json} (h : items.length ≤ known.length)
    (distinct : known.Nodup) :
    (array items).members? known = (record (known.zip items)).members? known := by
  have single : once known ((known.zip items).map (·.1)) = true := by
    simp only [once, List.all_eq_true, decide_eq_true_eq]
    intro k _
    exact Nat.le_trans ((sublist_names_zip known items).count_le k)
      (List.nodup_iff_count_le_one.mp distinct k)
  rw [members?_record single]
  exact if_pos h

/-! ## Fields in general -/

/-- Whether every name is text and no name of `known` occurs twice. -/
structure Readable (known : List String) (fields : List (Text × Json)) : Prop where
  named : ∀ f ∈ fields, f.1.isSome
  once : ∀ k ∈ known, fields.countP (·.1 = some k) ≤ 1

def found (fields : List (Text × Json)) (name : String) : Option Json :=
  (fields.find? (·.1 = some name)).map (·.2)

theorem names?_cons (f : Text × Json) (fs : List (Text × Json)) :
    names? (f :: fs) = f.1.bind fun name => (names? fs).map (name :: ·) := by
  rw [names?, List.mapM_cons]
  cases f.1 with
  | none => rfl
  | some name => cases hn : fs.mapM (·.1) <;> simp [names?, hn]

theorem names?_eq_some_iff {fields : List (Text × Json)} {names : List String} :
    names? fields = some names ↔ fields.map (·.1) = names.map some := by
  induction fields generalizing names with
  | nil => cases names <;> simp [names?]
  | cons f fs ih =>
    rw [names?_cons, List.map_cons]
    cases f.1 with
    | none => cases names <;> simp
    | some name => cases names <;> simp [ih, and_comm]

theorem exists_names? {fields : List (Text × Json)} (h : ∀ f ∈ fields, f.1.isSome) :
    ∃ names, names? fields = some names := by
  refine ⟨fields.filterMap (·.1), names?_eq_some_iff.mpr ?_⟩
  induction fields with
  | nil => rfl
  | cons f fs ih =>
    rw [List.forall_mem_cons] at h
    obtain ⟨name, named⟩ := Option.isSome_iff_exists.mp h.1
    rw [List.filterMap_cons, named, List.map_cons, List.map_cons, named, ih h.2]

theorem once_iff {known names : List String} {fields : List (Text × Json)}
    (h : names? fields = some names) :
    once known names = true ↔ ∀ k ∈ known, fields.countP (·.1 = some k) ≤ 1 := by
  have count (k : String) : names.count k = fields.countP (·.1 = some k) := by
    have fields_map : (fields.map (·.1)).countP (· = some k) = fields.countP (·.1 = some k) := by
      rw [List.countP_map]
      rfl
    rw [← fields_map, names?_eq_some_iff.mp h, List.countP_map, List.count]
    exact List.countP_congr fun name _ => by simp
  simp only [once, List.all_eq_true, decide_eq_true_eq, count]

theorem members?_object {known : List String} {fields : List (Text × Json)}
    (h : Readable known fields) : (object fields).members? known = some (found fields) := by
  obtain ⟨names, named⟩ := exists_names? h.named
  rw [members?, named]
  exact if_pos ((once_iff named).mpr h.once)

theorem members?_object_of_not {known : List String} {fields : List (Text × Json)}
    (h : ¬ Readable known fields) : (object fields).members? known = none := by
  rw [members?]
  cases named : names? fields with
  | none => rfl
  | some names =>
    refine if_neg fun single => h ⟨?_, (once_iff named).mp single⟩
    intro f hf
    have mem : f.1 ∈ fields.map (·.1) := List.mem_map_of_mem hf
    rw [names?_eq_some_iff.mp named] at mem
    obtain ⟨name, -, same⟩ := List.mem_map.mp mem
    rw [← same]
    rfl

/-! ## Changes of the fields -/

section
variable {known : List String} {fields : List (Text × Json)}

theorem Readable.perm {other : List (Text × Json)} (h : Readable known fields)
    (hp : fields.Perm other) : Readable known other where
  named f hf := h.named f (hp.mem_iff.mpr hf)
  once k hk := hp.countP_eq _ ▸ h.once k hk

theorem find?_perm {α : Type} {p : α → Bool} {l l' : List α} (hp : l.Perm l')
    (h : l.countP p ≤ 1) : l.find? p = l'.find? p := by
  induction hp with
  | nil => rfl
  | cons a _ ih =>
    by_cases ha : p a = true
    · rw [List.find?_cons_of_pos ha, List.find?_cons_of_pos ha]
    · rw [List.countP_cons_of_neg ha] at h
      rw [List.find?_cons_of_neg ha, List.find?_cons_of_neg ha, ih h]
  | swap a b l =>
    by_cases ha : p a = true <;> by_cases hb : p b = true
    · rw [List.countP_cons_of_pos hb, List.countP_cons_of_pos ha] at h
      omega
    all_goals simp [ha, hb]
  | trans first _ ih ih' => exact (ih h).trans (ih' (first.countP_eq p ▸ h))

/-- The order of the fields does not matter. -/
theorem found_perm {other : List (Text × Json)} (h : Readable known fields)
    (hp : fields.Perm other) {k : String} (hk : k ∈ known) : found fields k = found other k := by
  rw [found, found, find?_perm hp (h.once k hk)]

/-- A further field keeps the others readable unless its name is known and taken. -/
theorem readable_cons_iff {name : String} {j : Json}
    (h : name ∉ known ∨ fields.countP (·.1 = some name) = 0) :
    Readable known ((some name, j) :: fields) ↔ Readable known fields := by
  have count (k : String) : ((some name, j) :: fields).countP (·.1 = some k) =
      fields.countP (·.1 = some k) + if name = k then 1 else 0 := by
    rw [List.countP_cons]
    simp only [Option.some.injEq, decide_eq_true_eq]
  constructor
  · rintro ⟨named, once⟩
    refine ⟨(List.forall_mem_cons.mp named).2, fun k hk => ?_⟩
    have := once k hk
    rw [count] at this
    omega
  · rintro ⟨named, once⟩
    refine ⟨List.forall_mem_cons.mpr ⟨rfl, named⟩, fun k hk => ?_⟩
    rw [count]
    have := once k hk
    by_cases same : name = k
    · subst same
      have := h.resolve_left (fun unknown => unknown hk)
      rw [if_pos rfl]
      omega
    · rwa [if_neg same]

/-- The names alone decide whether the fields can be read. -/
theorem readable_iff_of_names {other : List (Text × Json)} (h : fields.map (·.1) = other.map (·.1)) :
    Readable known fields ↔ Readable known other := by
  have half {fs gs : List (Text × Json)} (h : fs.map (·.1) = gs.map (·.1))
      (readable : Readable known fs) : Readable known gs := by
    refine ⟨fun g hg => ?_, fun k hk => ?_⟩
    · have mem : g.1 ∈ fs.map (·.1) := h ▸ List.mem_map_of_mem hg
      obtain ⟨f, hf, same⟩ := List.mem_map.mp mem
      exact same ▸ readable.named f hf
    · have count (l : List (Text × Json)) :
          (l.map (·.1)).countP (· = some k) = l.countP (·.1 = some k) := by
        rw [List.countP_map]
        rfl
      rw [← count gs, ← h, count fs]
      exact readable.once k hk
  exact ⟨half h, half h.symm⟩

theorem found_cons_self (name : String) (j : Json) (fields : List (Text × Json)) :
    found ((some name, j) :: fields) name = some j := by
  rw [found, List.find?_cons_of_pos (by simp)]
  rfl

theorem found_cons_of_ne {name k : String} (h : name ≠ k) (j : Json) (fields : List (Text × Json)) :
    found ((some name, j) :: fields) k = found fields k := by
  rw [found, List.find?_cons_of_neg (by simpa using h), found]

/-- A change of the fields of a structure that says nothing new: another order, or one field more,
of a name that the structure does not have. -/
inductive Rearranged (known : List String) : List (Text × Json) → List (Text × Json) → Prop where
  | permute {fs gs : List (Text × Json)} (h : fs.Perm gs) : Rearranged known fs gs
  | unknown {name : String} (h : name ∉ known) (j : Json) (fs : List (Text × Json)) :
    Rearranged known fs ((some name, j) :: fs)

variable {other : List (Text × Json)}

theorem Rearranged.readable_iff (h : Rearranged known fields other) :
    Readable known fields ↔ Readable known other := by
  cases h with
  | permute hp => exact ⟨fun h => h.perm hp, fun h => h.perm hp.symm⟩
  | unknown hn j => exact (readable_cons_iff (.inl hn)).symm

theorem Rearranged.found_eq (h : Rearranged known fields other) (hr : Readable known fields)
    {k : String} (hk : k ∈ known) : found fields k = found other k := by
  cases h with
  | permute hp => exact found_perm hr hp hk
  | unknown hn j =>
    refine (found_cons_of_ne ?_ j fields).symm
    rintro rfl
    exact hn hk

/-- Two objects decode alike if both or none can be read and what is found decodes alike. -/
theorem bind_members?_congr {α : Type} {decode : (String → Option Json) → Option α}
    (hr : Readable known fields ↔ Readable known other)
    (hd : Readable known fields → decode (found fields) = decode (found other)) :
    ((object fields).members? known).bind decode = ((object other).members? known).bind decode := by
  by_cases h : Readable known fields
  · rw [members?_object h, members?_object (hr.mp h)]
    exact hd h
  · rw [members?_object_of_not h, members?_object_of_not (fun h' => h (hr.mpr h'))]

end

end RequestMeter.Json
