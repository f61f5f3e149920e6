import PanelCalc.Proofs.Lexeme.Lookahead

/-! # Quoted texts

Every text can be written between quotation marks and is read from there as it is,
wherever the quotation stands and whatever comes after it. -/
namespace PanelCalc.Lexeme

open Text (Cursor)
open Text.Quoted (quote mark encode decode)

variable {classify : String → Lexeme} {column : Nat} {chars tail : List Char}

/-- Written characters end with the closing mark and not before. -/
theorem exists_decode_error {meant : List Char} (h : chars ++ tail = encode meant ++ [mark])
    (ht : tail ≠ []) (column : Nat) : ∃ fault, decode column chars = .error fault := by
  cases hd : decode column chars with
  | error fault => exact ⟨fault, rfl⟩
  | ok answer =>
    obtain ⟨taken, rfl, hread⟩ := Text.Quoted.exists_decoded hd
    have hall := hread column (answer.2.rest ++ tail)
    rw [← List.append_assoc, h, Text.Quoted.decode_encode] at hall
    have hrest := congrArg (·.2.rest) (Except.ok.inj hall)
    exact absurd (List.append_eq_nil_iff.mp hrest.symm).2 ht

theorem next?_mark_error {fault : Text.Quoted.Fault}
    (h : decode (column + 1) chars = .error fault) :
    ∃ e, next? classify ⟨column, mark :: chars⟩ = .error e := by
  have hread : ∃ e, read classify column mark chars = .error e := by
    simp only [read_mark, readText, h]
    cases fault <;> exact ⟨_, rfl⟩
  obtain ⟨e, he⟩ := hread
  refine ⟨e, ?_⟩
  have hskip : skipTrivia column (mark :: chars) = .ok ⟨column, mark :: chars⟩ :=
    skipTrivia_cons (by decide) (.inl (by decide))
  simp only [next?, hskip, bind, Except.bind, he]

/-- **Quoted texts survive** being written and scanned: whatever a text consists of and whatever
comes after it, its quotation is scanned as this text, up to its end. So no two texts are quoted
alike, and no part of a quotation is a quotation of something else that ends earlier. -/
theorem next?_quote (classify : String → Lexeme) (s : String) (column : Nat) (rest : List Char) :
    next? classify ⟨column, (quote s).toList ++ rest⟩ =
        .ok (some (⟨text s, column⟩, ⟨column + (quote s).length, rest⟩)) ∧
      (∀ t, quote t = quote s → t = s) ∧
      ∀ chars, chars <+: (quote s).toList → chars ≠ [] → chars ≠ (quote s).toList →
        ∃ e, next? classify ⟨column, chars⟩ = .error e := by
  have scanned (t : String) : next? classify ⟨column, (quote t).toList ++ rest⟩ =
      .ok (some (⟨text t, column⟩, ⟨column + (quote t).length, rest⟩)) := by
    rw [← String.length_toList]
    exact next?_text t column
  refine ⟨scanned s, fun t ht => ?_, fun chars hp hne hshort => ?_⟩
  · have hsame := (scanned t).symm.trans (ht ▸ scanned s)
    simpa using hsame
  · obtain ⟨tail, ht⟩ := hp
    obtain ⟨c, others, rfl⟩ := List.exists_cons_of_ne_nil hne
    have hwritten : c = mark ∧ others ++ tail = encode s.toList ++ [mark] := by
      simpa [quote] using ht
    obtain ⟨rfl, hothers⟩ := hwritten
    have htail : tail ≠ [] := by
      rintro rfl
      exact hshort (by rw [← ht, List.append_nil])
    obtain ⟨fault, hf⟩ := exists_decode_error hothers htail (column + 1)
    exact next?_mark_error hf

end PanelCalc.Lexeme
