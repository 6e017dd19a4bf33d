import RequestMeter.Report.Sink
import RequestMeter.Proofs.Json.Write
import RequestMeter.Proofs.Table
import Mathlib.Data.String.Basic

/-! # The line of a report

A report is written as one line: its text has no line break, whatever the keys are, and reads back as an
object with the keys of the report.  So lines that are written one after the other can be told apart.
-/
namespace RequestMeter

/-! ## Bytes of a text -/

def newline : UInt8 := 10

/-- A small byte stands for one character alone. -/
theorem toNat_of_mem_utf8EncodeChar {c : Char} {b : UInt8} (h : b ∈ String.utf8EncodeChar c)
    (hb : b.toNat < 128) : c.toNat = b.toNat := by
  have size : c.val.toNat = c.toNat := rfl
  unfold String.utf8EncodeChar at h
  simp only at h
  split_ifs at h with one two three
  all_goals
    simp only [List.mem_cons, List.not_mem_nil, or_false] at h
    rcases h with rfl | rfl | rfl | rfl
  all_goals
    simp only [UInt8.toNat_ofNat'] at hb ⊢
    omega

theorem newline_mem_utf8_iff {cs : List Char} : newline ∈ Report.utf8 cs ↔ '\n' ∈ cs := by
  rw [Report.utf8, List.mem_flatMap]
  constructor
  · rintro ⟨c, hc, hb⟩
    have same : c.toNat = '\n'.toNat := toNat_of_mem_utf8EncodeChar hb (by decide)
    rwa [Char.toNat_inj.mp same] at hc
  · exact fun h => ⟨'\n', h, by decide⟩

theorem fromUTF8?_utf8 (cs : List Char) :
    String.fromUTF8? (Report.utf8 cs).toByteArray = some (String.ofList cs) := by
  have valid : (Report.utf8 cs).toByteArray.IsValidUTF8 := (String.ofList cs).isValidUTF8
  rw [String.fromUTF8?, dif_pos valid]
  rfl

/-! ## Values of a report as JSON -/

namespace Json

def ofBytes? (bytes : List UInt8) : Option Json :=
  (String.fromUTF8? bytes.toByteArray).bind parse?

theorem ofBytes?_utf8_write {j : Json} (h : Valid j) : ofBytes? (Report.utf8 j.write) = some j := by
  rw [ofBytes?, fromUTF8?_utf8, Option.bind_some]
  exact parse?_compact h

/-- The fraction of a number is digits of its shortest decimal and zeros. -/
theorem fraction_ofDigits_lt {ds : List Nat} (h : ∀ d ∈ ds, d < 10) (e : Int) :
    ∀ d ∈ (Number.ofDigits ds e).fraction, d < 10 := by
  unfold Number.ofDigits
  split_ifs with scientific small
  · exact fun d hd => h d (List.mem_of_mem_drop hd)
  · intro d hd
    rcases List.mem_append.mp hd with hd | hd
    · rw [List.eq_of_mem_replicate hd]
      decide
    · exact h d hd
  · dsimp only
    split
    · decide
    · exact fun d hd => h d (List.mem_of_mem_drop hd)

theorem valid_real (x : Binary64) : Valid (real x) := by
  apply Valid.number
  unfold Number.ofBinary64
  dsimp only
  split
  · decide
  · exact fraction_ofDigits_lt (fun _ => Numeral.lt_of_mem_digits (by decide)) _

end Json

/-! ## Lines -/

namespace Report

theorem valid_toJson (r : Report) : r.toJson.Valid := by
  apply Json.valid_record
  intro f hf
  obtain ⟨⟨k, x⟩, -, rfl⟩ := List.mem_map.mp hf
  exact Json.valid_real x

def text (r : Report) : List UInt8 := utf8 r.toJson.write

theorem line_eq (r : Report) : r.line = r.text ++ [newline] := rfl

theorem newline_notMem_text (r : Report) : newline ∉ r.text := by
  rw [text, newline_mem_utf8_iff]
  intro h
  exact absurd (Json.printable_write r.valid_toJson _ h) (by decide)

/-- The text reads back as the report. -/
theorem ofBytes?_text (r : Report) : Json.ofBytes? r.text = some r.toJson :=
  Json.ofBytes?_utf8_write r.valid_toJson

@[simp] theorem dropLast_line (r : Report) : r.line.dropLast = r.text := by
  rw [line_eq, List.dropLast_concat]

theorem flatten_pieces (r : Report) : r.pieces.flatten = r.line := by
  have texts : (r.toJson.pieces.map utf8).flatten = utf8 r.toJson.pieces.flatten :=
    flatten_map_flatMap String.utf8EncodeChar _
  rw [pieces, List.flatten_append, texts, Json.flatten_pieces]
  rfl

/-- Lines one after the other are told apart by their line breaks. -/
theorem splitOn_flatMap_line (rs : List Report) :
    (rs.flatMap line).splitOn newline = rs.map text ++ [[]] := by
  induction rs with
  | nil => rfl
  | cons r rs ih =>
    have free : ∀ b ∈ r.text, (b == newline) = false := by
      intro b hb
      rw [beq_eq_false_iff_ne]
      rintro rfl
      exact r.newline_notMem_text hb
    rw [List.flatMap_cons, line_eq, List.append_assoc, List.singleton_append,
      List.splitOn_eq_splitOnP, List.splitOnP_append_cons_of_forall_mem free _ (by decide),
      ← List.splitOn_eq_splitOnP, ih]
    rfl

/-- A line has one line break, at its end, and before it an object with the keys of the report, each
once and in ascending order. -/
structure Framed (r : Report) (bytes : List UInt8) : Prop where
  once : bytes.count newline = 1
  last : bytes.getLast? = some newline
  object : ∃ fields, Json.ofBytes? bytes.dropLast = some (.object fields) ∧
    fields.map (·.1) = r.values.keys.map some
  ascending : r.values.keys.Pairwise (· < ·)

theorem framed_line (r : Report) : r.Framed r.line where
  once := by
    rw [line_eq, List.count_append, List.count_eq_zero.mpr r.newline_notMem_text]
    rfl
  last := by rw [line_eq, List.getLast?_concat]
  object := by
    refine ⟨_, r.dropLast_line ▸ r.ofBytes?_text, ?_⟩
    simp [Table.keys, Function.comp_def]
  ascending := by
    refine List.pairwise_map.mpr (r.values.ascending.imp fun h => ?_)
    exact compare_lt_iff_lt.mp h

end Report

end RequestMeter
