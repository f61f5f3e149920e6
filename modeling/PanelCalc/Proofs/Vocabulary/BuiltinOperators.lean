import PanelCalc.Vocabulary.Builtin

/-! # The built-in operators

What the entries of the built-in tables have in common: all of them work cell by
cell, except for the comma, and their symbols are those of the functions that
they are made from. -/
namespace PanelCalc.Vocabulary

variable {H : Type} {caseStyle : CaseStyle} {s : String}

theorem apply_of_mem_unary {e : UnaryEntry H} (h : e ∈ (builtin caseStyle).unary) :
    ∃ name f, e.apply = cellUnary name f := by
  rcases List.mem_cons.mp h with rfl | h
  · exact ⟨_, _, rfl⟩
  · obtain ⟨⟨name, f⟩, -, rfl⟩ := List.mem_map.mp h
    exact ⟨name, f, rfl⟩

theorem apply_of_mem_binary {e : BinaryEntry H} (h : e ∈ (builtin caseStyle).binary) :
    e = commaEntry ∨ ∃ name f, e.apply = cellBinary name f := by
  rcases List.mem_append.mp h with h | h
  · obtain ⟨⟨name, p, f⟩, -, rfl⟩ := List.mem_map.mp h
    exact .inr ⟨name, f, rfl⟩
  · exact .inl (List.mem_singleton.mp h)

theorem symbol_of_unary? {e : UnaryEntry H} (h : (builtin caseStyle).unary? s = some e) :
    s = "-" ∨ e.priority = Priority.named ∧ ∃ f ∈ namedUnaryFunctions, caseStyle.spell f.1 = s := by
  have hs : e.symbol = s := by simpa using List.find?_some h
  rcases List.mem_cons.mp (List.mem_of_find?_eq_some h) with rfl | he
  · exact .inl hs.symm
  · obtain ⟨f, hf, rfl⟩ := List.mem_map.mp he
    exact .inr ⟨rfl, f, hf, hs⟩

theorem symbol_of_binary? (h : ((builtin caseStyle : Vocabulary H).binary? s).isSome) :
    s = "," ∨ ∃ f ∈ binaryFunctions, caseStyle.spell f.1 = s := by
  obtain ⟨e, h⟩ := Option.isSome_iff_exists.mp h
  have hs : e.symbol = s := by simpa using List.find?_some h
  rcases List.mem_append.mp (List.mem_of_find?_eq_some h) with he | he
  · obtain ⟨f, hf, rfl⟩ := List.mem_map.mp he
    exact .inr ⟨f, hf, hs⟩
  · rw [List.mem_singleton.mp he] at hs
    exact .inl hs.symm

/-- The quotient, as which an infinite number is written. -/
theorem binary?_quotient (caseStyle : CaseStyle) :
    (builtin caseStyle : Vocabulary H).binary? "/" =
      some ⟨"/", 4, cellBinary "/" (· / ·)⟩ := by
  cases caseStyle <;> rfl

theorem binary?_comma (caseStyle : CaseStyle) :
    (builtin caseStyle : Vocabulary H).binary? "," = some commaEntry := by
  cases caseStyle <;> rfl

end PanelCalc.Vocabulary
