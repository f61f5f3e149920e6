import PanelCalc.Proofs.Vocabulary.Reachable

/-! # One entry for each name

The names in a table of a vocabulary are all different, so that every entry is
found under its own name. The built-in tables are of this kind, and registering
keeps them so. -/
namespace PanelCalc.Vocabulary

variable {H : Type} {v v' : Vocabulary H} {r : Registration H} {caseStyle : CaseStyle}

section Tables

variable {α : Type} {entries : List α} {nameOf : α → String} {e : α}

/-- Where names are different, an entry is found under its own. -/
theorem find?_of_nodup (hn : (entries.map nameOf).Nodup) (he : e ∈ entries) :
    entries.find? (nameOf · == nameOf e) = some e := by
  induction entries with
  | nil => cases he
  | cons first entries ih =>
    obtain ⟨hfirst, hn⟩ := List.nodup_cons.mp hn
    rcases List.mem_cons.mp he with rfl | he
    · exact List.find?_cons_of_pos (by simp)
    · have hne : nameOf first ≠ nameOf e := fun h => hfirst (h ▸ List.mem_map_of_mem he)
      rw [List.find?_cons_of_neg (by simpa using hne)]
      exact ih hn he

theorem nodup_concat (hn : (entries.map nameOf).Nodup)
    (hfree : entries.find? (nameOf · == nameOf e) = none) :
    ((entries ++ [e]).map nameOf).Nodup := by
  rw [List.map_append, List.map_cons, List.map_nil, List.nodup_append]
  refine ⟨hn, List.nodup_cons.mpr ⟨List.not_mem_nil, .nil⟩, fun name hname other hother => ?_⟩
  obtain ⟨first, hfirst, rfl⟩ := List.mem_map.mp hname
  rw [List.mem_singleton.mp hother]
  simpa using List.find?_eq_none.mp hfree first hfirst

end Tables

/-- The names in each table are different. -/
structure Keyed (v : Vocabulary H) : Prop where
  unary : (v.unary.map (·.symbol)).Nodup
  binary : (v.binary.map (·.symbol)).Nodup
  functions : (v.functions.map (·.name)).Nodup

theorem Keyed.register (hv : v.Keyed) (h : v.register r = .ok v') : v'.Keyed := by
  cases r with
  | unary name priority apply =>
    obtain ⟨-, hfree, rfl⟩ := registerUnary_ok h
    exact ⟨nodup_concat hv.unary hfree, hv.binary, hv.functions⟩
  | binary name priority apply =>
    obtain ⟨-, hfree, rfl⟩ := registerBinary_ok h
    exact ⟨hv.unary, nodup_concat hv.binary hfree, hv.functions⟩
  | function name arity body =>
    obtain ⟨-, hfree, rfl⟩ := registerFunction_ok h
    exact ⟨hv.unary, hv.binary, nodup_concat hv.functions hfree⟩

theorem keyed_empty (caseStyle : CaseStyle) : (empty caseStyle : Vocabulary H).Keyed :=
  ⟨.nil, .nil, .nil⟩

theorem keyed_builtin (caseStyle : CaseStyle) : (builtin caseStyle : Vocabulary H).Keyed := by
  have hu : ("-" :: namedUnaryFunctions.map fun f => caseStyle.spell f.1).Nodup := by
    cases caseStyle <;> decide +kernel
  have hb : ((binaryFunctions.map fun f => caseStyle.spell f.1) ++ [","]).Nodup := by
    cases caseStyle <;> decide +kernel
  have hf : (Builtin.all.map fun f => caseStyle.spell f.name).Nodup := by
    cases caseStyle <;> decide +kernel
  exact ⟨by simpa [builtin, Function.comp_def] using hu,
    by simpa [builtin, Function.comp_def, commaEntry] using hb,
    by simpa [builtin, Function.comp_def] using hf⟩

/-- The entry of a built-in function. -/
def builtinEntry (caseStyle : CaseStyle) (f : Builtin) : FunctionEntry H where
  name := caseStyle.spell f.name
  arity := .exact f.argumentCount
  body := .builtin f

theorem function?_builtin (caseStyle : CaseStyle) (f : Builtin) :
    (builtin caseStyle).function? (caseStyle.spell f.name) =
      some (builtinEntry caseStyle f : FunctionEntry H) :=
  find?_of_nodup (e := builtinEntry caseStyle f) (keyed_builtin caseStyle).functions
    (List.mem_map_of_mem (Builtin.mem_all f))

end PanelCalc.Vocabulary
