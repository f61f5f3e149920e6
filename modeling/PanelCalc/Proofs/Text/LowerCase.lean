import PanelCalc.Vocabulary.Basic

/-! # Text in lower case

What is in lower case stays as it is. No character is mapped to one that would be
mapped further, neither to one of the two whose form depends on their neighbours
nor to one that is shifted. -/
namespace PanelCalc.Text

/-! ## Shifted code points -/

namespace CaseShift

variable {shift other : CaseShift} {point : Nat}

/-- A code point after the shift. -/
def image (shift : CaseShift) (point : Nat) : Nat := (point + shift.offset).toNat

/-- Whether the images are characters, and none of them one that the mapping has rules for. -/
def landsWell (shift : CaseShift) : Bool :=
  0 ≤ shift.first + shift.offset && 90 < shift.image shift.first &&
  (shift.image shift.last < 0xD800 ||
    0xDFFF < shift.image shift.first && shift.image shift.last < 0x110000) &&
  [0x130, 0x3A3].all fun special =>
    shift.image shift.last < special || special < shift.image shift.first

/-- Whether code points between two others, all of them or every other one, are not covered. -/
def misses (low high : Nat) (everyOther : Bool) (shift : CaseShift) : Bool :=
  Nat.blt high shift.first || Nat.blt shift.last low ||
    everyOther && Nat.beq shift.stride 2 && Nat.beq ((low + shift.first) % 2) 1

/-- Whether the images under one shift are not covered by another one. -/
def clearOf (shift other : CaseShift) : Bool :=
  other.misses (shift.image shift.first) (shift.image shift.last)
    (shift.stride == 2 || shift.first == shift.last)

theorem covers_iff : shift.covers point = true ↔ shift.first ≤ point ∧ point ≤ shift.last ∧
    (point - shift.first) % shift.stride = 0 := by
  simp [covers, and_assoc]

theorem image_between (h : shift.covers point) :
    shift.image shift.first ≤ shift.image point ∧ shift.image point ≤ shift.image shift.last := by
  obtain ⟨hfirst, hlast, -⟩ := covers_iff.mp h
  simp only [image]
  omega

theorem not_covers_image (hwell : shift.landsWell) (hclear : shift.clearOf other)
    (h : shift.covers point) : other.covers (shift.image point) = false := by
  obtain ⟨hfirst, hlast, hstep⟩ := covers_iff.mp h
  simp only [landsWell, Bool.and_eq_true, decide_eq_true_eq] at hwell
  refine Bool.eq_false_iff.mpr fun hother => ?_
  obtain ⟨hfirst', hlast', hstep'⟩ := covers_iff.mp hother
  simp only [clearOf, misses, Bool.or_eq_true, Bool.and_eq_true, Nat.blt_eq, Nat.beq_eq,
    beq_iff_eq, image] at hclear hfirst' hlast' hstep'
  obtain (hlt | hlt) | ⟨⟨hevery, hstride⟩, hodd⟩ := hclear
  · omega
  · omega
  · rw [hstride] at hstep'
    rcases hevery with heven | hone
    · rw [heven] at hstep
      omega
    · omega

end CaseShift

theorem landsWell_of_mem : ∀ shift ∈ caseShifts, shift.landsWell = true := by
  decide +kernel

theorem clearOf_of_mem : ∀ shift ∈ caseShifts, ∀ other ∈ caseShifts,
    shift.clearOf other = true := by
  have hall : caseShifts.all (fun shift => caseShifts.all shift.clearOf) = true := by
    decide +kernel
  intro shift hs other ho
  exact List.all_eq_true.mp (List.all_eq_true.mp hall shift hs) other ho

/-! ## Characters in lower case -/

/-- A character that the mapping leaves as it is, wherever it stands. -/
def IsLower (c : Char) : Prop := c ≠ 'Σ' ∧ c ≠ 'İ' ∧ lowerChar c = c

instance (c : Char) : Decidable (IsLower c) := inferInstanceAs (Decidable (_ ∧ _))

theorem isLower_image {shift : CaseShift} {point : Nat} (hs : shift ∈ caseShifts)
    (h : shift.covers point) : IsLower (Char.ofNat (shift.image point)) := by
  have hwell := landsWell_of_mem shift hs
  have hclear : ∀ other ∈ caseShifts, other.covers (shift.image point) = false := fun other ho =>
    CaseShift.not_covers_image hwell (clearOf_of_mem shift hs other ho) h
  obtain ⟨hlow, hhigh⟩ := CaseShift.image_between h
  simp only [CaseShift.landsWell, Bool.and_eq_true, Bool.or_eq_true, decide_eq_true_eq,
    List.all_cons, List.all_nil] at hwell
  obtain ⟨⟨⟨-, hcapital⟩, hplace⟩, hdot, hsigma, -⟩ := hwell
  have hvalid : (shift.image point).isValidChar := by
    rw [Nat.isValidChar]
    omega
  have hpoint : (Char.ofNat (shift.image point)).toNat = shift.image point := by
    rw [Char.ofNat, dif_pos hvalid]
    rfl
  have hne {special : Char} (hs : shift.image point ≠ special.toNat) :
      Char.ofNat (shift.image point) ≠ special := by
    intro he
    rw [he] at hpoint
    exact hs hpoint.symm
  refine ⟨hne ?_, hne ?_, ?_⟩
  · show shift.image point ≠ 0x3A3
    omega
  · show shift.image point ≠ 0x130
    omega
  · rw [lowerChar, hpoint]
    split
    · have hall : ∀ n < 0x80, 90 < n → (Char.ofNat n).toLower = Char.ofNat n := by decide
      exact hall _ ‹_› (by omega)
    · rw [List.find?_eq_none.mpr fun other ho => by simp [hclear other ho]]

theorem isLower_lowerChar {c : Char} (hsigma : c ≠ 'Σ') (hdot : c ≠ 'İ') :
    IsLower (lowerChar c) := by
  unfold lowerChar
  split
  · have hall : ∀ n < 0x80, IsLower (Char.ofNat n).toLower := by decide
    have hc := hall c.toNat ‹_›
    rwa [Char.ofNat_toNat] at hc
  · split
    · rename_i shift hfind
      have hcovers := List.find?_some hfind
      exact isLower_image (List.mem_of_find?_eq_some hfind) hcovers
    · rename_i hlarge _ hnone
      refine ⟨hsigma, hdot, ?_⟩
      rw [lowerChar, if_neg hlarge, hnone]

theorem isLower_of_mem_lowerBetween {before after : List Char} {c d : Char}
    (h : d ∈ lowerBetween before after c) : IsLower d := by
  unfold lowerBetween at h
  split at h
  · rw [List.mem_singleton] at h
    subst h
    split <;> decide
  · split at h
    · simp only [List.mem_cons, List.not_mem_nil, or_false] at h
      rcases h with rfl | rfl <;> decide
    · rw [List.mem_singleton] at h
      subst h
      exact isLower_lowerChar ‹_› ‹_›

theorem isLower_of_mem_lowerAfter {before chars : List Char} {d : Char}
    (h : d ∈ lowerAfter before chars) : IsLower d := by
  induction chars generalizing before with
  | nil => cases h
  | cons c chars ih =>
    rcases List.mem_append.mp h with h | h
    · exact isLower_of_mem_lowerBetween h
    · exact ih h

theorem lowerAfter_of_isLower {before chars : List Char} (h : ∀ c ∈ chars, IsLower c) :
    lowerAfter before chars = chars := by
  induction chars generalizing before with
  | nil => rfl
  | cons c chars ih =>
    obtain ⟨hc, hchars⟩ := List.forall_mem_cons.mp h
    obtain ⟨hsigma, hdot, hsame⟩ := hc
    rw [lowerAfter, ih hchars, lowerBetween, if_neg hsigma, if_neg hdot, hsame]
    rfl

/-- **Lower case is final**: what is in lower case is left as it is. -/
theorem lowercase_lowercase (text : String) : lowercase (lowercase text) = lowercase text := by
  have hlower : ∀ c ∈ (lowercase text).toList, IsLower c := by
    intro c hc
    rw [lowercase, String.toList_ofList] at hc
    exact isLower_of_mem_lowerAfter hc
  rw [lowercase, lowerAfter_of_isLower hlower, String.ofList_toList]

end PanelCalc.Text

namespace PanelCalc

/-- A name that is spelled as a vocabulary spells it is not changed by spelling it again. -/
theorem CaseStyle.spell_spell (style : CaseStyle) (name : String) :
    style.spell (style.spell name) = style.spell name := by
  cases style with
  | upper => rfl
  | lower =>
    unfold spell
    dsimp only
    by_cases hletter : Text.hasLetter name = true
    · rw [if_pos hletter, Text.lowercase_lowercase, ite_self]
    · rw [if_neg hletter, if_neg hletter]

end PanelCalc
