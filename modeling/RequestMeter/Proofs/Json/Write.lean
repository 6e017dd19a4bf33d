import RequestMeter.Proofs.Json.RoundTrip
import Mathlib.Data.List.SplitBy

/-! # Written text

The pieces of a value are its text, and the text has no control characters: line breaks and the like
occur in strings only, and are escaped there.
-/
namespace RequestMeter

/-! ## Pieces -/

theorem flatten_map_flatMap {α β : Type} (f : α → List β) (xss : List (List α)) :
    (xss.map (·.flatMap f)).flatten = xss.flatten.flatMap f := by
  rw [← List.flatMap_def, ← List.flatMap_id, List.flatMap_assoc]
  rfl

namespace Json

theorem flatten_textPieces (s : Text) : (textPieces s).flatten = writeText s := by
  cases s with
  | none => simp [textPieces]
  | some s => simp [textPieces, writeText, flatten_map_flatMap]

mutual

theorem flatten_pieces : ∀ j : Json, j.pieces.flatten = j.write
  | null | bool _ => by simp [pieces]
  | number n => by simp [pieces, write]
  | string s => by rw [pieces, write, flatten_textPieces]
  | array items => by simp [pieces, write, flatten_itemPieces items]
  | object fields => by simp [pieces, write, flatten_fieldPieces fields]

theorem flatten_itemPieces : ∀ items : List Json, (itemPieces items).flatten = writeItems items
  | [] => rfl
  | [j] => flatten_pieces j
  | j :: k :: js => by
    simp [itemPieces, writeItems, flatten_pieces j, flatten_itemPieces (k :: js)]

theorem flatten_fieldPieces : ∀ fields : List (Text × Json),
    (fieldPieces fields).flatten = writeFields fields
  | [] => rfl
  | [(k, j)] => by simp [fieldPieces, writeFields, flatten_textPieces, flatten_pieces j]
  | (k, j) :: f :: fs => by
    simp [fieldPieces, writeFields, flatten_textPieces, flatten_pieces j,
      flatten_fieldPieces (f :: fs)]

end

end Json

/-! ## Control characters -/

theorem Numeral.le_charOf {d : Nat} (h : d < 16) : 0x20 ≤ (charOf d).toNat := by
  interval_cases d <;> decide

namespace Json

def Printable (cs : List Char) : Prop := ∀ c ∈ cs, 0x20 ≤ c.toNat

theorem printable_nil : Printable [] := by simp [Printable]

@[simp] theorem printable_cons {c : Char} {cs : List Char} :
    Printable (c :: cs) ↔ 0x20 ≤ c.toNat ∧ Printable cs := by
  simp [Printable]

@[simp] theorem printable_append {cs ds : List Char} :
    Printable (cs ++ ds) ↔ Printable cs ∧ Printable ds := List.forall_mem_append

theorem printable_map_charOf {ds : List Nat} (h : ∀ d ∈ ds, d < 16) :
    Printable (ds.map Numeral.charOf) := by
  intro c hc
  obtain ⟨d, hd, rfl⟩ := List.mem_map.mp hc
  exact Numeral.le_charOf (h d hd)

theorem printable_decimal (n : Nat) : Printable (Numeral.decimal n) := by
  apply printable_map_charOf
  intro d hd
  have := Numeral.lt_of_mem_digits (by decide) hd
  omega

theorem printable_escape (c : Char) : Printable (escape c) := by
  unfold escape
  split_ifs with quote backslash h8 h9 h10 h12 h13 control
  iterate 7
    · simp [Printable]
  · have small : ∀ d ∈ Numeral.padLeft 4 (Numeral.digits 16 c.toNat), d < 16 :=
      fun _ => Numeral.lt_of_mem_padLeft (by decide)
    rw [printable_cons, printable_cons]
    exact ⟨by decide, by decide, printable_map_charOf small⟩
  · simpa [Printable] using control

theorem printable_writeText (s : Text) : Printable (writeText s) := by
  cases s with
  | none => simp [writeText, Printable]
  | some s =>
    have inner : Printable (s.toList.flatMap escape) := by
      intro c hc
      obtain ⟨d, -, hd⟩ := List.mem_flatMap.mp hc
      exact printable_escape d c hd
    simpa [writeText, printable_nil] using inner

theorem printable_writeNumber {n : Number} (h : ∀ d ∈ n.fraction, d < 10) :
    Printable (writeNumber n) := by
  have fraction : Printable (n.fraction.map Numeral.charOf) :=
    printable_map_charOf fun d hd => Nat.lt_trans (h d hd) (by decide)
  have sign : Printable (if n.negative then ['-'] else []) := by
    split <;> simp [Printable]
  have point : Printable (if n.fraction = [] then [] else '.' :: n.fraction.map Numeral.charOf) := by
    split
    · exact printable_nil
    · exact printable_cons.mpr ⟨by decide, fraction⟩
  rw [writeNumber, printable_append, printable_append, printable_append]
  refine ⟨⟨⟨sign, printable_decimal _⟩, point⟩, ?_⟩
  split
  · exact printable_nil
  · rw [printable_cons, printable_cons]
    exact ⟨by decide, by split <;> decide, printable_decimal _⟩

/-! ## Whole values -/

theorem printable_writeItems {items : List Json} (h : ∀ j ∈ items, Printable j.write) :
    Printable (writeItems items) := by
  induction items with
  | nil => exact printable_nil
  | cons j js ih =>
    rw [List.forall_mem_cons] at h
    cases js with
    | nil => exact h.1
    | cons k js =>
      rw [writeItems, printable_append, printable_cons]
      · exact ⟨h.1, by decide, ih h.2⟩
      · simp

theorem printable_writeFields {fields : List (Text × Json)} (h : ∀ f ∈ fields, Printable f.2.write) :
    Printable (writeFields fields) := by
  induction fields with
  | nil => exact printable_nil
  | cons f fs ih =>
    rw [List.forall_mem_cons] at h
    obtain ⟨k, j⟩ := f
    cases fs with
    | nil =>
      rw [writeFields, printable_append, printable_cons]
      exact ⟨printable_writeText k, by decide, h.1⟩
    | cons g fs =>
      rw [writeFields, printable_append, printable_append, printable_cons, printable_cons]
      · exact ⟨⟨printable_writeText k, by decide, h.1⟩, by decide, ih h.2⟩
      · simp

/-- The text of a value has no control characters, whatever its strings are. -/
theorem printable_write {j : Json} (h : Valid j) : Printable j.write := by
  induction h with
  | null => simp [write, Printable]
  | bool b => cases b <;> simp [write, Printable]
  | number h => exact printable_writeNumber h
  | string s => exact printable_writeText s
  | array _ ih =>
    rw [write, printable_append, printable_cons, printable_cons]
    exact ⟨⟨by decide, printable_writeItems ih⟩, by decide, printable_nil⟩
  | object _ ih =>
    rw [write, printable_append, printable_cons, printable_cons]
    exact ⟨⟨by decide, printable_writeFields ih⟩, by decide, printable_nil⟩

end Json

end RequestMeter
