import RequestMeter.Json.Read
import RequestMeter.Proofs.Json.Token

/-! # Reading written JSON back

The text of a value is cut into the tokens of the value, and these are read as the value again.  All
that is asked of a value is that the fractions of its numbers are decimal digits.
-/
namespace RequestMeter.Json

/-- The fractions of all numbers are decimal digits. -/
inductive Valid : Json → Prop where
  | null : Valid null
  | bool (b : Bool) : Valid (bool b)
  | number {n : Number} (h : ∀ d ∈ n.fraction, d < 10) : Valid (number n)
  | string (s : Text) : Valid (string s)
  | array {items : List Json} (h : ∀ j ∈ items, Valid j) : Valid (array items)
  | object {fields : List (Text × Json)} (h : ∀ f ∈ fields, Valid f.2) : Valid (object fields)

theorem valid_nat (n : Nat) : Valid (nat n) := .number (List.forall_mem_nil _)

theorem valid_record {fields : List (String × Json)} (h : ∀ f ∈ fields, Valid f.2) :
    Valid (record fields) := by
  apply Valid.object
  intro f hf
  obtain ⟨g, hg, rfl⟩ := List.mem_map.mp hf
  exact h g hg

/-! ## The tokens of a value -/

mutual

def toTokens : Json → List Token
  | null => [.null]
  | bool b => [.bool b]
  | number n => [.number n]
  | string s => [.string s]
  | array items => .openBracket :: itemTokens items ++ [.closeBracket]
  | object fields => .openBrace :: fieldTokens fields ++ [.closeBrace]

def itemTokens : List Json → List Token
  | [] => []
  | [j] => toTokens j
  | j :: js => toTokens j ++ .comma :: itemTokens js

def fieldTokens : List (Text × Json) → List Token
  | [] => []
  | [(k, j)] => .string k :: .colon :: toTokens j
  | (k, j) :: fs => .string k :: .colon :: toTokens j ++ .comma :: fieldTokens fs

end

/-- A value does not start with the end of an array or of an object. -/
theorem exists_toTokens (j : Json) :
    ∃ t ts, j.toTokens = t :: ts ∧ t ≠ .closeBracket ∧ t ≠ .closeBrace := by
  cases j <;> (rw [toTokens]; exact ⟨_, _, rfl, by simp, by simp⟩)

theorem length_toTokens_pos (j : Json) : 0 < j.toTokens.length := by
  obtain ⟨t, ts, h, -⟩ := exists_toTokens j
  rw [h]
  exact Nat.succ_pos _

/-! ## Cutting the text of a value -/

theorem noNumber_of_mark? {c : Char} {t : Token} (h : mark? c = some t) (cs : List Char) :
    NoNumber (c :: cs) := by
  unfold mark? at h
  split at h
  case h_7 => cases h
  all_goals exact ⟨Numeral.noDigit_cons.mpr (by decide), by simp, by simp⟩

theorem noNumber_nil : NoNumber [] := ⟨Numeral.noDigit_nil, by simp, by simp⟩

/-- The text of a value is cut into the tokens of the value. -/
def Cuts (j : Json) : Prop :=
  ∀ rest, NoNumber rest → tokens (j.write ++ rest) = j.toTokens ++ tokens rest

theorem tokens_writeItems {items : List Json} (h : ∀ j ∈ items, Cuts j) {rest : List Char}
    (hr : NoNumber rest) : tokens (writeItems items ++ rest) = itemTokens items ++ tokens rest := by
  induction items with
  | nil => rfl
  | cons j js ih =>
    rw [List.forall_mem_cons] at h
    cases js with
    | nil => exact h.1 rest hr
    | cons k js =>
      calc tokens (writeItems (j :: k :: js) ++ rest)
          = tokens (j.write ++ ',' :: (writeItems (k :: js) ++ rest)) := by
            simp [writeItems]
        _ = j.toTokens ++ .comma :: (itemTokens (k :: js) ++ tokens rest) := by
            rw [h.1 _ (noNumber_of_mark? rfl _), tokens_of_mark? rfl, ih h.2]
        _ = itemTokens (j :: k :: js) ++ tokens rest := by
            simp [itemTokens]

theorem tokens_writeFields {fields : List (Text × Json)} (h : ∀ f ∈ fields, Cuts f.2)
    {rest : List Char} (hr : NoNumber rest) :
    tokens (writeFields fields ++ rest) = fieldTokens fields ++ tokens rest := by
  have cut (k : Text) (cs : List Char) :
      tokens (writeText k ++ ':' :: cs) = .string k :: .colon :: tokens cs := by
    rw [tokens_writeText, tokens_of_mark? rfl]
  induction fields with
  | nil => rfl
  | cons f fs ih =>
    rw [List.forall_mem_cons] at h
    obtain ⟨k, j⟩ := f
    cases fs with
    | nil =>
      rw [writeFields, fieldTokens, List.append_assoc, List.cons_append, cut, h.1 rest hr]
      rfl
    | cons g fs =>
      calc tokens (writeFields ((k, j) :: g :: fs) ++ rest)
          = tokens (writeText k ++ ':' :: (j.write ++ ',' :: (writeFields (g :: fs) ++ rest))) := by
            simp [writeFields]
        _ = .string k :: .colon ::
              (j.toTokens ++ .comma :: (fieldTokens (g :: fs) ++ tokens rest)) := by
            rw [cut, h.1 _ (noNumber_of_mark? rfl _), tokens_of_mark? rfl, ih h.2]
        _ = fieldTokens ((k, j) :: g :: fs) ++ tokens rest := by
            simp [fieldTokens]

theorem cuts_of_valid {j : Json} (h : Valid j) : Cuts j := by
  induction h with
  | null => exact fun rest _ => tokens_of_token? rfl
  | bool b => cases b <;> exact fun rest _ => tokens_of_token? rfl
  | number h => exact fun rest hr => tokens_writeNumber h hr
  | string s => exact fun rest _ => tokens_writeText s rest
  | @array items _ ih =>
    intro rest _
    rw [write, toTokens, List.append_assoc, List.append_assoc, List.cons_append, List.cons_append,
      tokens_of_mark? rfl, tokens_writeItems ih (noNumber_of_mark? rfl _), List.singleton_append,
      tokens_of_mark? rfl]
    rfl
  | @object fields _ ih =>
    intro rest _
    rw [write, toTokens, List.append_assoc, List.append_assoc, List.cons_append, List.cons_append,
      tokens_of_mark? rfl, tokens_writeFields ih (noNumber_of_mark? rfl _), List.singleton_append,
      tokens_of_mark? rfl]
    rfl

/-! ## Reading the tokens of a value -/

/-- The tokens of a value are read as the value; as much fuel as there are tokens is enough. -/
def Reads (j : Json) : Prop :=
  ∀ fuel ts, j.toTokens.length ≤ fuel → value? fuel (j.toTokens ++ ts) = some (j, ts)

theorem items?_itemTokens {items : List Json} (h : ∀ j ∈ items, Reads j) (hn : items ≠ [])
    (fuel : Nat) (ts : List Token) (hf : (itemTokens items).length < fuel) :
    items? fuel (itemTokens items ++ .closeBracket :: ts) = some (items, ts) := by
  induction items generalizing fuel with
  | nil => exact absurd rfl hn
  | cons j js ih =>
    rw [List.forall_mem_cons] at h
    obtain ⟨fuel, rfl⟩ := Nat.exists_eq_succ_of_ne_zero (Nat.ne_of_gt (Nat.zero_lt_of_lt hf))
    cases js with
    | nil =>
      rw [itemTokens] at hf
      have first := h.1 fuel (.closeBracket :: ts) (by omega)
      simp [items?, itemTokens, first, separator?]
    | cons k js =>
      have positive := length_toTokens_pos j
      simp only [itemTokens, List.length_append, List.length_cons] at hf
      have first := h.1 fuel (.comma :: (itemTokens (k :: js) ++ .closeBracket :: ts)) (by omega)
      have rest := ih h.2 (by simp) fuel (by omega)
      simp [items?, itemTokens, first, separator?, rest]

theorem fields?_fieldTokens {fields : List (Text × Json)} (h : ∀ f ∈ fields, Reads f.2)
    (hn : fields ≠ []) (fuel : Nat) (ts : List Token) (hf : (fieldTokens fields).length < fuel) :
    fields? fuel (fieldTokens fields ++ .closeBrace :: ts) = some (fields, ts) := by
  induction fields generalizing fuel with
  | nil => exact absurd rfl hn
  | cons f fs ih =>
    obtain ⟨k, j⟩ := f
    obtain ⟨head, tail⟩ := List.forall_mem_cons.mp h
    replace head : Reads j := head
    obtain ⟨fuel, rfl⟩ := Nat.exists_eq_succ_of_ne_zero (Nat.ne_of_gt (Nat.zero_lt_of_lt hf))
    cases fs with
    | nil =>
      simp only [fieldTokens, List.length_cons] at hf
      have first := head fuel (.closeBrace :: ts) (by omega)
      simp [fields?, fieldTokens, first, separator?]
    | cons g fs =>
      simp only [fieldTokens, List.length_append, List.length_cons] at hf
      have first := head fuel (.comma :: (fieldTokens (g :: fs) ++ .closeBrace :: ts)) (by omega)
      have rest := ih tail (by simp) fuel (by omega)
      simp [fields?, fieldTokens, first, separator?, rest]

/-- The first token tells an empty array from one with items. -/
theorem value?_openBracket {fuel : Nat} {ts : List Token} (h : ts.head? ≠ some .closeBracket) :
    value? (fuel + 1) (.openBracket :: ts) = (items? fuel ts).map fun p => (.array p.1, p.2) := by
  rw [value?]
  rintro ts' rfl
  exact h rfl

theorem value?_openBrace {fuel : Nat} {ts : List Token} (h : ts.head? ≠ some .closeBrace) :
    value? (fuel + 1) (.openBrace :: ts) = (fields? fuel ts).map fun p => (.object p.1, p.2) := by
  rw [value?]
  rintro ts' rfl
  exact h rfl

theorem head?_itemTokens {items : List Json} (h : items ≠ []) (ts : List Token) :
    (itemTokens items ++ ts).head? ≠ some .closeBracket := by
  match items with
  | [j] =>
    obtain ⟨t, us, ht, bracket, -⟩ := exists_toTokens j
    simpa [itemTokens, ht] using bracket
  | j :: k :: js =>
    obtain ⟨t, us, ht, bracket, -⟩ := exists_toTokens j
    simpa [itemTokens, ht] using bracket

theorem head?_fieldTokens {fields : List (Text × Json)} (h : fields ≠ []) (ts : List Token) :
    (fieldTokens fields ++ ts).head? ≠ some .closeBrace := by
  match fields with
  | [(k, j)] => simp [fieldTokens]
  | (k, j) :: g :: fs => simp [fieldTokens]

theorem reads_of_valid {j : Json} (h : Valid j) : Reads j := by
  induction h with
  | null | bool b | number h | string s =>
    intro fuel ts hf
    obtain ⟨fuel, rfl⟩ := Nat.exists_eq_succ_of_ne_zero (Nat.ne_of_gt hf)
    rfl
  | @array items _ ih =>
    intro fuel ts hf
    obtain ⟨fuel, rfl⟩ := Nat.exists_eq_succ_of_ne_zero (Nat.ne_of_gt (Nat.zero_lt_of_lt hf))
    simp only [toTokens, List.length_append, List.length_cons, List.length_nil] at hf
    simp only [toTokens, List.append_assoc, List.cons_append, List.nil_append]
    by_cases hn : items = []
    · subst hn
      rfl
    · rw [value?_openBracket (head?_itemTokens hn _), items?_itemTokens ih hn fuel ts (by omega)]
      rfl
  | @object fields _ ih =>
    intro fuel ts hf
    obtain ⟨fuel, rfl⟩ := Nat.exists_eq_succ_of_ne_zero (Nat.ne_of_gt (Nat.zero_lt_of_lt hf))
    simp only [toTokens, List.length_append, List.length_cons, List.length_nil] at hf
    simp only [toTokens, List.append_assoc, List.cons_append, List.nil_append]
    by_cases hn : fields = []
    · subst hn
      rfl
    · rw [value?_openBrace (head?_fieldTokens hn _), fields?_fieldTokens ih hn fuel ts (by omega)]
      rfl

/-- A written value is read back as it was. -/
theorem parse?_compact {j : Json} (h : Valid j) : parse? j.compact = some j := by
  have cut := cuts_of_valid h [] noNumber_nil
  have read := reads_of_valid h (j.toTokens.length + 1) [] (Nat.le_succ _)
  rw [List.append_nil, tokens_nil, List.append_nil] at cut
  rw [List.append_nil] at read
  rw [parse?, compact, String.toList_ofList, cut, ofTokens?, read]

end RequestMeter.Json
