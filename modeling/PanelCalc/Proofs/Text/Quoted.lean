import PanelCalc.Text.Quoted

/-! # Quoted text reads back

What stands between the marks is read back character by character, whatever the
characters are and whatever comes after the closing mark. -/
namespace PanelCalc.Text.Quoted

variable {c letter : Char} {column : Nat} {chars rest : List Char}

theorem ofEscapeLetter?_of_escapeLetter? (h : escapeLetter? c = some letter) :
    ofEscapeLetter? letter = some c := by
  unfold escapeLetter? at h
  repeat' split at h
  all_goals
    first
    | subst_vars; cases h; decide
    | cases h

/-- Four hexadecimal digits are enough for the control characters. -/
theorem ofHexDigits?_of_isControl (h : isControl c = true) : ∃ p q r s,
    fourHexDigits c.toNat = [p, q, r, s] ∧ ofHexDigits? p q r s = some c := by
  have small : ∀ n < 160, ofHexDigits? (Nat.digitChar (n / 4096 % 16))
      (Nat.digitChar (n / 256 % 16)) (Nat.digitChar (n / 16 % 16)) (Nat.digitChar (n % 16)) =
        some (Char.ofNat n) := by
    decide +kernel
  have hlt : c.toNat < 160 := by
    simp [isControl] at h
    omega
  refine ⟨_, _, _, _, rfl, ?_⟩
  rw [small c.toNat hlt, Char.ofNat_toNat]

theorem decode_mark : decode column (mark :: rest) = .ok ([], ⟨column + 1, rest⟩) := by
  rw [decode.eq_def]
  simp only [if_true]

theorem decode_cons_of_ne (hm : c ≠ mark) (hb : c ≠ '\\') :
    decode column (c :: rest) = prepend c (decode (column + 1) rest) := by
  rw [decode.eq_def]
  simp only [if_neg hm, if_neg hb]

theorem decode_escape (h : ofEscapeLetter? letter = some c) :
    decode column ('\\' :: letter :: rest) = prepend c (decode (column + 2) rest) := by
  have hm : '\\' ≠ mark := by decide
  have hu : letter ≠ 'u' := by
    rintro rfl
    cases h
  rw [decode.eq_def]
  simp only [if_neg hm, if_true]
  split
  · rename_i heq
    cases heq
  · rename_i heq
    exact absurd (List.cons.inj heq).1 hu
  · rename_i heq
    cases heq
    simp only [h]

theorem decode_hex {p q r s : Char} (h : ofHexDigits? p q r s = some c) :
    decode column ('\\' :: 'u' :: p :: q :: r :: s :: rest) =
      prepend c (decode (column + 6) rest) := by
  have hm : '\\' ≠ mark := by decide
  rw [decode.eq_def]
  simp only [if_neg hm, if_true, h]

theorem decode_illegal_hex {p q r s : Char} (h : ofHexDigits? p q r s = none) :
    decode column ('\\' :: 'u' :: p :: q :: r :: s :: rest) =
      .error (.illegalEscape column ['u', p, q, r, s]) := by
  have hm : '\\' ≠ mark := by decide
  rw [decode.eq_def]
  simp only [if_neg hm, if_true, h]

/-- A letter that stands for nothing is illegal after a backslash, a `u` with less than four
characters after it. -/
theorem decode_illegal (h : ofEscapeLetter? letter = none) (hu : letter = 'u' → rest.length < 4) :
    decode column ('\\' :: letter :: rest) =
      .error (.illegalEscape column (letter :: if letter = 'u' then rest else [])) := by
  have hm : '\\' ≠ mark := by decide
  rw [decode.eq_def]
  simp only [if_neg hm, if_true]
  split
  · rename_i heq
    cases heq
  · rename_i heq
    cases heq
    simp at hu
    omega
  · rename_i heq
    cases heq
    simp only [h]

/-- One character reads back, however it is written. -/
theorem decode_encodeChar (c : Char) (column : Nat) (rest : List Char) :
    decode column (encodeChar c ++ rest) =
      prepend c (decode (column + (encodeChar c).length) rest) := by
  unfold encodeChar
  cases he : escapeLetter? c with
  | some letter => exact decode_escape (ofEscapeLetter?_of_escapeLetter? he)
  | none =>
    by_cases hc : isControl c = true
    · obtain ⟨p, q, r, s, hd, hr⟩ := ofHexDigits?_of_isControl hc
      simp only [hc, if_true, hd]
      exact decode_hex hr
    · simp only [hc]
      refine decode_cons_of_ne ?_ ?_
      · rintro rfl
        simp [escapeLetter?] at he
      · rintro rfl
        simp [escapeLetter?, mark] at he

/-- **Quoted text reads back**, and reading stops right after the closing mark. -/
theorem decode_encode (chars : List Char) (column : Nat) (rest : List Char) :
    decode column (encode chars ++ mark :: rest) =
      .ok (chars, ⟨column + (encode chars).length + 1, rest⟩) := by
  induction chars generalizing column with
  | nil => exact decode_mark
  | cons c chars ih =>
    have happ : encode (c :: chars) = encodeChar c ++ encode chars := rfl
    rw [happ, List.append_assoc, decode_encodeChar, ih, List.length_append, Nat.add_assoc column]
    rfl

end PanelCalc.Text.Quoted
