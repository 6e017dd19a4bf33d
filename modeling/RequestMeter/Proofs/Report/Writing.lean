import RequestMeter.Proofs.Report.Line
import Mathlib.Data.ENat.Basic

/-! # Writing reports

A report reaches a writer byte by byte, in the order of its line: however the writer cuts the calls, what
it has taken is a beginning of the line, all of it as long as there is room.  A failed write is always
reported.
-/
namespace RequestMeter

open ByteSink

variable {ω : Type} [ByteSink ω]

/-! ## Writers with limited room -/

/-- What is asked of a writer: with the bytes that it accepted and the room that is left, a call takes
some of the first bytes offered, at least one while there is room and no more than there is, and fails
only when there is none; flushing changes neither. -/
structure Rationed (accepted : ω → List UInt8) (room : ω → ℕ∞) : Prop where
  taken {w v : ω} {bytes : List UInt8} {n : ℕ} (hb : bytes ≠ [])
    (h : write w bytes = (v, .ok n)) :
    n ≤ bytes.length ∧ n ≤ room w ∧ (n = 0 → room w = 0) ∧
      accepted v = accepted w ++ bytes.take n ∧ room v = room w - n
  refused {w v : ω} {bytes : List UInt8} {text : String} (hb : bytes ≠ [])
    (h : write w bytes = (v, .error text)) : room w = 0 ∧ accepted v = accepted w
  flushed (w : ω) : accepted (flush w).1 = accepted w ∧ room (flush w).1 = room w

namespace Rationed

variable {accepted : ω → List UInt8} {room : ω → ℕ∞}

/-- Bytes that fit are written, in however many calls. -/
theorem writeAll_of_le (h : Rationed accepted room) {w : ω} {bytes : List UInt8}
    (fits : bytes.length ≤ room w) :
    (writeAll w bytes).2 = .ok () ∧ accepted (writeAll w bytes).1 = accepted w ++ bytes ∧
      room (writeAll w bytes).1 = room w - bytes.length := by
  fun_induction writeAll w bytes with
  | case1 w => simp
  | case2 w bytes hb v text hw =>
    have none : room w = 0 := (h.refused hb hw).1
    rw [none] at fits
    simp_all
  | case3 w bytes hb v hw =>
    have none : room w = 0 := (h.taken hb hw).2.2.1 rfl
    rw [none] at fits
    simp_all
  | case4 w bytes hb v n hw hn ih =>
    obtain ⟨some, -, -, accepts, rest⟩ := h.taken hb hw
    have more : (bytes.drop n).length ≤ room v := by
      rw [rest, List.length_drop, ENat.natCast_sub]
      exact tsub_le_tsub_right fits _
    obtain ⟨done, all, left⟩ := ih more
    refine ⟨done, ?_, ?_⟩
    · rw [all, accepts, List.append_assoc, List.take_append_drop]
    · rw [left, rest, List.length_drop, tsub_tsub, ← Nat.cast_add, Nat.add_sub_cancel' some]

/-- Of bytes that do not fit those are written for which there is room. -/
theorem writeAll_of_lt (h : Rationed accepted room) {w : ω} {bytes : List UInt8} {m : ℕ}
    (hm : room w = m) (short : m < bytes.length) :
    (∃ text, (writeAll w bytes).2 = .error text) ∧
      accepted (writeAll w bytes).1 = accepted w ++ bytes.take m := by
  fun_induction writeAll w bytes generalizing m with
  | case1 w => simp at short
  | case2 w bytes hb v text hw =>
    obtain ⟨none, same⟩ := h.refused hb hw
    obtain rfl : m = 0 := by simpa [none] using hm.symm
    exact ⟨⟨text, rfl⟩, by simpa using same⟩
  | case3 w bytes hb v hw =>
    obtain ⟨-, -, none, same, -⟩ := h.taken hb hw
    obtain rfl : m = 0 := by simpa [none rfl] using hm.symm
    exact ⟨⟨_, rfl⟩, same⟩
  | case4 w bytes hb v n hw hn ih =>
    obtain ⟨-, within, -, accepts, rest⟩ := h.taken hb hw
    rw [hm, Nat.cast_le] at within
    obtain ⟨failed, part⟩ := ih (m := m - n) (by rw [rest, hm, ENat.natCast_sub])
      (by rw [List.length_drop]; omega)
    refine ⟨failed, ?_⟩
    rw [part, accepts, List.append_assoc]
    congr 1
    rw [← List.take_add, Nat.add_sub_cancel' within]

/-! ## Pieces -/

theorem writeEach_of_le (h : Rationed accepted room) {w : ω} {pieces : List (List UInt8)}
    (fits : pieces.flatten.length ≤ room w) :
    (writeEach w pieces).2 = .ok () ∧
      accepted (writeEach w pieces).1 = accepted w ++ pieces.flatten ∧
      room (writeEach w pieces).1 = room w - pieces.flatten.length := by
  induction pieces generalizing w with
  | nil => simp [writeEach]
  | cons piece rest ih =>
    rw [List.flatten_cons, List.length_append, Nat.cast_add] at fits
    obtain ⟨done, accepts, left⟩ := h.writeAll_of_le (le_self_add.trans fits)
    have more : rest.flatten.length ≤ room (writeAll w piece).1 := by
      rw [left]
      exact ENat.le_sub_of_add_le_left (ENat.natCast_ne_top _) fits
    obtain ⟨allDone, all, allLeft⟩ := ih more
    rw [writeEach_of_ok (Prod.ext rfl done)]
    refine ⟨allDone, ?_, ?_⟩
    · rw [all, accepts, List.flatten_cons, List.append_assoc]
    · rw [allLeft, left, tsub_tsub, List.flatten_cons, List.length_append, Nat.cast_add]

theorem writeEach_of_lt (h : Rationed accepted room) {w : ω} {pieces : List (List UInt8)} {m : ℕ}
    (hm : room w = m) (short : m < pieces.flatten.length) :
    (∃ text, (writeEach w pieces).2 = .error text) ∧
      accepted (writeEach w pieces).1 = accepted w ++ pieces.flatten.take m := by
  induction pieces generalizing w m with
  | nil => simp at short
  | cons piece rest ih =>
    rw [List.flatten_cons]
    by_cases fits : piece.length ≤ m
    · have enough : piece.length ≤ room w := hm ▸ Nat.cast_le.mpr fits
      obtain ⟨done, accepts, left⟩ := h.writeAll_of_le enough
      rw [writeEach_of_ok (Prod.ext rfl done), List.take_append, List.take_of_length_le fits,
        ← List.append_assoc, ← accepts]
      apply ih
      · rw [left, hm, ENat.natCast_sub]
      · rw [List.flatten_cons, List.length_append] at short
        omega
    · obtain ⟨⟨text, failed⟩, part⟩ := h.writeAll_of_lt hm (Nat.lt_of_not_ge fits)
      rw [writeEach_of_error (Prod.ext rfl failed), List.take_append_of_le_length (by omega)]
      exact ⟨⟨text, rfl⟩, part⟩

/-! ## Lines -/

theorem writeLine_of_le (h : Rationed accepted room) {w : ω} {r : Report}
    (fits : r.line.length ≤ room w) :
    (r.writeLine w).2 = .ok () ∧ accepted (r.writeLine w).1 = accepted w ++ r.line ∧
      room (r.writeLine w).1 = room w - r.line.length := by
  rw [← r.flatten_pieces] at fits ⊢
  exact h.writeEach_of_le fits

theorem writeLine_of_lt (h : Rationed accepted room) {w : ω} {r : Report} {m : ℕ}
    (hm : room w = m) (short : m < r.line.length) :
    (∃ text, (r.writeLine w).2 = .error text) ∧
      accepted (r.writeLine w).1 = accepted w ++ r.line.take m := by
  rw [← r.flatten_pieces] at short ⊢
  exact h.writeEach_of_lt hm short

end Rationed

namespace Report

/-- A line that was written is flushed. -/
theorem writeJson_of_ok {r : Report} {w v : ω} (h : r.writeLine w = (v, .ok ())) :
    r.writeJson w = ((flush v).1, (flush v).2.mapError .sink) := by
  rw [writeJson, h]

theorem writeJson_of_error {r : Report} {w v : ω} {text : String}
    (h : r.writeLine w = (v, .error text)) : r.writeJson w = (v, .error (.sink text)) := by
  rw [writeJson, h]

def writeSeries (w : ω) (rs : List Report) : ω := rs.foldl (fun w r => (r.writeJson w).1) w

end Report

namespace Rationed

variable {accepted : ω → List UInt8} {room : ω → ℕ∞}

/-- A line that fits is accepted, whether or not it can be flushed. -/
theorem writeJson_of_le (h : Rationed accepted room) {w : ω} {r : Report}
    (fits : r.line.length ≤ room w) :
    (r.writeJson w).2 = (flush (r.writeLine w).1).2.mapError .sink ∧
      accepted (r.writeJson w).1 = accepted w ++ r.line ∧
      room (r.writeJson w).1 = room w - r.line.length := by
  obtain ⟨done, accepts, left⟩ := h.writeLine_of_le fits
  obtain ⟨same, roomSame⟩ := h.flushed (r.writeLine w).1
  rw [Report.writeJson_of_ok (Prod.ext rfl done)]
  exact ⟨rfl, same.trans accepts, roomSame.trans left⟩

theorem writeJson_of_lt (h : Rationed accepted room) {w : ω} {r : Report} {m : ℕ}
    (hm : room w = m) (short : m < r.line.length) :
    (∃ text, (r.writeJson w).2 = .error (.sink text)) ∧
      accepted (r.writeJson w).1 = accepted w ++ r.line.take m := by
  obtain ⟨⟨text, failed⟩, part⟩ := h.writeLine_of_lt hm short
  rw [Report.writeJson_of_error (Prod.ext rfl failed)]
  exact ⟨⟨text, rfl⟩, part⟩

/-- A writer with room for everything has all lines, one after the other. -/
theorem writeSeries_of_top (h : Rationed accepted room) {w : ω} (top : room w = ⊤)
    (rs : List Report) : accepted (Report.writeSeries w rs) = accepted w ++ rs.flatMap Report.line := by
  induction rs generalizing w with
  | nil => simp [Report.writeSeries]
  | cons r rs ih =>
    have enough : r.line.length ≤ room w := top ▸ le_top
    obtain ⟨-, accepts, left⟩ := h.writeJson_of_le enough
    have more : room (r.writeJson w).1 = ⊤ := by
      rw [left, top]
      exact ENat.top_sub_natCast _
    calc accepted (Report.writeSeries w (r :: rs))
        = accepted (r.writeJson w).1 ++ rs.flatMap Report.line := ih more
      _ = accepted w ++ (r :: rs).flatMap Report.line := by
          rw [accepts, List.append_assoc, List.flatMap_cons]

/-- To a writer without a limit every report goes as its line, and the line is framed whatever the
keys are; so reports written one after the other are told apart by the line breaks.  A writer that
takes `m` bytes in all, in calls of any sizes, has the first `m` bytes of the line; the write
succeeds exactly when that is the whole line and flushing succeeds, and fails as a sink otherwise.
-/
theorem writeJson_framed (h : Rationed accepted room) :
    (∀ (r : Report) (w : ω), room w = ⊤ → accepted (r.writeJson w).1 = accepted w ++ r.line) ∧
    (∀ r : Report, r.Framed r.line) ∧
    (∀ (rs : List Report) (w : ω), room w = ⊤ → accepted w = [] →
      (accepted (Report.writeSeries w rs)).splitOn newline = rs.map (·.line.dropLast) ++ [[]]) ∧
    ∀ (r : Report) (w : ω) (m : ℕ), room w = m →
      accepted (r.writeJson w).1 = accepted w ++ r.line.take m ∧
      ((r.writeJson w).2 = .ok () ↔
        r.line.length ≤ m ∧ (flush (r.writeLine w).1).2 = .ok ()) ∧
      ((r.writeJson w).2 = .ok () ∨ ∃ text, (r.writeJson w).2 = .error (.sink text)) := by
  refine ⟨?_, Report.framed_line, ?_, ?_⟩
  · intro r w top
    exact (h.writeJson_of_le (top ▸ le_top)).2.1
  · intro rs w top empty
    rw [h.writeSeries_of_top top, empty, List.nil_append, Report.splitOn_flatMap_line]
    simp
  · intro r w m hm
    by_cases fits : r.line.length ≤ m
    · have enough : r.line.length ≤ room w := hm ▸ Nat.cast_le.mpr fits
      obtain ⟨result, accepts, -⟩ := h.writeJson_of_le enough
      rw [result, accepts, List.take_of_length_le fits]
      cases flush (r.writeLine w).1 with
      | mk v flushed =>
        cases flushed with
        | ok _ => exact ⟨rfl, by simp [fits, Except.mapError], .inl rfl⟩
        | error text => exact ⟨rfl, by simp [Except.mapError], .inr ⟨text, rfl⟩⟩
    · obtain ⟨⟨text, failed⟩, part⟩ := h.writeJson_of_lt hm (Nat.lt_of_not_ge fits)
      rw [failed]
      exact ⟨part, by simp [fits], .inr ⟨text, rfl⟩⟩

end Rationed

/-! ## A writer with limits -/

namespace Writer

def space (w : Writer) : ℕ∞ := w.room.elim ⊤ fun m => m

theorem grant_le_length (w : Writer) (n : ℕ) : w.grant n ≤ n := by
  unfold grant
  dsimp only
  split <;> split <;> omega

theorem grant_le_space (w : Writer) (n : ℕ) : w.grant n ≤ w.space := by
  unfold grant space
  dsimp only
  split <;> split <;> simp_all

theorem space_eq_zero_of_grant (w : Writer) {n : ℕ} (hn : n ≠ 0) (h : w.grant n = 0) :
    w.space = 0 := by
  unfold grant at h
  unfold space
  dsimp only at h
  split at h <;> split at h <;> simp_all

theorem space_take (w : Writer) (n : ℕ) (bytes : List UInt8) :
    (w.take n bytes).space = w.space - n := by
  unfold space take
  cases w.room with
  | none => simp
  | some m => simp

theorem write_eq (w : Writer) (bytes : List UInt8) :
    write w bytes =
      if w.grant bytes.length = 0 then ({ w with calls := w.calls + 1 }, .error "sink is full")
      else (w.take (w.grant bytes.length) bytes, .ok (w.grant bytes.length)) := rfl

theorem rationed : Rationed accepted space where
  taken {w v bytes n} hb h := by
    rw [write_eq] at h
    split at h
    · cases h
    · rename_i some
      cases h
      exact ⟨w.grant_le_length _, w.grant_le_space _, fun none => absurd none some, rfl,
        w.space_take _ _⟩
  refused {w v bytes text} hb h := by
    rw [write_eq] at h
    split at h
    · rename_i none
      cases h
      exact ⟨w.space_eq_zero_of_grant (mt List.length_eq_zero_iff.mp hb) none, rfl⟩
    · cases h
  flushed w := ⟨rfl, rfl⟩

end Writer

/-- Keys with line breaks, a quote, a backslash, a control character and a letter beyond ASCII. -/
def awkward : Report where
  values :=
    ((Table.empty.insert "\n/count" (.ofNat 3)).insert "\"\\\x01/p50" .zero).insert "é\r\n/avg" .zero

/-- Its line of 55 bytes is cut within the first key, in calls of one to three bytes; or it is
accepted as a whole and stays unflushed; or it is written between two empty reports. -/
theorem writeJson_framed_awkward :
    let torn : Writer := { room := some 9, chunk := some (· % 4) }
    let stuck : Writer := { room := some 60, flushFails := true }
    Rationed Writer.accepted Writer.space ∧ awkward.Framed awkward.line ∧
      (awkward.writeJson torn).1.accepted = awkward.line.take 9 ∧
      (∃ text, (awkward.writeJson torn).2 = .error (.sink text)) ∧
      (awkward.writeJson stuck).1.accepted = awkward.line ∧
      (∃ text, (awkward.writeJson stuck).2 = .error (.sink text)) ∧
      (Report.writeSeries ({} : Writer) [{}, awkward, {}]).accepted.splitOn newline =
        [[0x7b, 0x7d], awkward.line.dropLast, [0x7b, 0x7d], []] := by
  intro torn stuck
  have length : awkward.line.length = 55 := by decide +kernel
  have unflushed : (flush (awkward.writeLine stuck).1).2 ≠ .ok () := by decide +kernel
  obtain ⟨-, framed, series, cut⟩ := Writer.rationed.writeJson_framed
  obtain ⟨tornBytes, tornOk, tornError⟩ := cut awkward torn 9 rfl
  obtain ⟨stuckBytes, stuckOk, stuckError⟩ := cut awkward stuck 60 rfl
  rw [List.take_of_length_le (by omega)] at stuckBytes
  refine ⟨Writer.rationed, framed awkward, tornBytes, ?_, stuckBytes, ?_, ?_⟩
  · exact tornError.resolve_left fun ok => by
      have := (tornOk.mp ok).1
      omega
  · exact stuckError.resolve_left fun ok => unflushed (stuckOk.mp ok).2
  · exact series [{}, awkward, {}] {} rfl rfl

end RequestMeter
