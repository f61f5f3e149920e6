import PanelCalc.Proofs.Batch.Compiling
import PanelCalc.Proofs.Formula.Trimming

/-! # Batches and their formulas one by one

A batch is compiled if each of its formulas is one on its own, and then to these
very formulas, however often a text is repeated. Otherwise the first text that is
no formula is what the failure names. The error is that of the text without the
blanks around it, and so the one of the text as it is written only if this does
not begin with blanks and the error does not show in those that it ends with. -/
namespace PanelCalc

variable {H : Type} {v : Vocabulary H}

namespace BatchRequest

variable {request : BatchRequest}

/-- There are formulas, and names for all of them or for none, each of them once. -/
structure Valid (request : BatchRequest) : Prop where
  formulas : request.formulas ≠ []
  outputs : request.outputs = [] ∨ request.outputs.length = request.formulas.length
  nodup : request.outputs.Nodup

theorem map_fst_entries :
    request.entries.map (·.1) = (List.range request.formulas.length).map request.outputName := by
  rw [entries, List.map_map, List.range_eq_range', ← List.zipIdx_map_snd, List.map_map]
  rfl

/-- The names of the outputs are different, also where they are made up. -/
theorem Valid.nodup_names (h : request.Valid) : (request.entries.map (·.1)).Nodup := by
  rw [map_fst_entries]
  refine List.Nodup.map_on ?_ List.nodup_range
  intro i hi j hj heq
  rw [List.mem_range] at hi hj
  rcases h.outputs with hnone | hall
  · simp only [outputName, hnone, List.getElem?_nil, Option.getD_none] at heq
    have hdigits := congrArg String.toList heq
    simp only [String.toList_append, List.append_cancel_left_eq] at hdigits
    have hnumber := congrArg (Nat.ofDigitChars 10 · 0) hdigits
    simpa [Nat.toString_eq_ofList_toDigits, Nat.ofDigitChars_toDigits] using hnumber
  · rw [← hall] at hi hj
    simp only [outputName, List.getElem?_eq_getElem hi, List.getElem?_eq_getElem hj,
      Option.getD_some] at heq
    exact (h.nodup.getElem_inj_iff).mp heq

end BatchRequest

namespace Batch

variable {batch : Batch H} {entries : List (String × String)} {entry : String × String}
  {f : Formula H} {request : BatchRequest}

theorem Compiled.outputNames (h : Compiled v entries batch) :
    batch.outputNames = entries.map (·.1) :=
  h.stages.names

/-- A formula under a new name is added. -/
theorem Compiled.exists_add (h : Compiled v entries batch) (hn : entry.1 ∉ entries.map (·.1))
    (hp : Formula.parse v (Text.trim entry.2) = .ok f) : ∃ next, batch.add v entry = .ok next := by
  have hnew : batch.outputNames.contains entry.1 = false := by
    rw [h.outputNames]
    simpa using hn
  simp only [Batch.add, hnew, hp]
  cases batch.texts.lookup (Text.trim entry.2) with
  | none => exact ⟨_, rfl⟩
  | some g => exact ⟨_, rfl⟩

/-- A text that is no formula is blamed under its name. -/
theorem Compiled.add_error (h : Compiled v entries batch) (hn : entry.1 ∉ entries.map (·.1))
    {e : CompileError} (hp : Formula.parse v (Text.trim entry.2) = .error e) :
    batch.add v entry = .error (.compile entry.1 e) := by
  have hnew : batch.outputNames.contains entry.1 = false := by
    rw [h.outputNames]
    simpa using hn
  have hunread : batch.texts.lookup (Text.trim entry.2) = none := by
    rw [Option.eq_none_iff_forall_ne_some]
    intro g hg
    rw [h.texts _ _ hg] at hp
    cases hp
  simp only [Batch.add, hnew, hunread, hp]
  rfl

/-- Of different names none comes before itself. -/
theorem not_mem_of_nodup {more : List (String × String)}
    (hn : ((entries ++ entry :: more).map (·.1)).Nodup) : entry.1 ∉ entries.map (·.1) := by
  rw [List.map_append, List.map_cons, List.nodup_middle, List.nodup_cons, List.mem_append] at hn
  exact fun hm => hn.1 (.inl hm)

theorem Compiled.exists_addAll {more : List (String × String)} (h : Compiled v entries batch)
    (hn : ((entries ++ more).map (·.1)).Nodup)
    (hp : ∀ entry ∈ more, ∃ f, Formula.parse v (Text.trim entry.2) = .ok f) :
    ∃ next, more.foldlM (Batch.add v) batch = .ok next := by
  induction more generalizing entries batch with
  | nil => exact ⟨batch, rfl⟩
  | cons entry more ih =>
    obtain ⟨⟨f, hf⟩, hp⟩ := List.forall_mem_cons.mp hp
    obtain ⟨next, hnext⟩ := h.exists_add (not_mem_of_nodup hn) hf
    rw [List.append_cons] at hn
    obtain ⟨last, hlast⟩ := ih (h.add hnext) hn hp
    refine ⟨last, ?_⟩
    rw [List.foldlM_cons, hnext]
    exact hlast

theorem compile_of_valid (hr : request.Valid) :
    compile v request = request.entries.foldlM (Batch.add v) empty := by
  have hsome : request.formulas.isEmpty = false := by simpa using hr.formulas
  have hcount : (!request.outputs.isEmpty &&
      request.outputs.length != request.formulas.length) = false := by
    rcases hr.outputs with h | h <;> simp [h]
  simp only [compile, hsome, hcount]
  rfl

/-- **A batch is parsed formula by formula.** If every text as it is written is a
formula, the outputs are these formulas. Otherwise the first text that is none is
blamed, for the same fault in what is left of it without the blanks around it. -/
theorem compile_parses (v : Vocabulary H) (hr : request.Valid) :
    ((∀ entry ∈ request.entries, ∃ f, Formula.parse v entry.2 = .ok f) →
      ∃ batch, compile v request = .ok batch ∧
        List.Forall₂ (fun entry output => output.1 = entry.1 ∧
          Formula.parse v entry.2 = .ok output.2) request.entries batch.outputs) ∧
      ∀ earlier name text later e, request.entries = earlier ++ (name, text) :: later →
        (∀ entry ∈ earlier, ∃ f, Formula.parse v entry.2 = .ok f) →
        Formula.parse v text = .error e → ∃ e', compile v request = .error (.compile name e') ∧
          CompileError.Trims (Text.indent text) (Text.visibleEnd text) e e' ∧
          (e' = e ↔ Text.indent text = 0 ∧ e.reach ≤ Text.visibleEnd text) := by
  have trimmed {entries : List (String × String)}
      (hp : ∀ entry ∈ entries, ∃ f, Formula.parse v entry.2 = .ok f) :
      ∀ entry ∈ entries, ∃ f, Formula.parse v (Text.trim entry.2) = .ok f :=
    fun entry hm => (hp entry hm).imp fun f => ((Formula.parse_trim v entry.2).1 f).mp
  have hn := hr.nodup_names
  rw [compile_of_valid hr]
  refine ⟨fun hp => ?_, fun earlier name text later e hentries hp he => ?_⟩
  · obtain ⟨batch, hb⟩ := compiled_empty.exists_addAll (by simpa using hn) (trimmed hp)
    refine ⟨batch, hb, (compiled_empty.addAll hb).stages.reads.imp fun entry output h => ?_⟩
    exact ⟨h.1, ((Formula.parse_trim v entry.2).1 _).mpr h.2⟩
  · rw [hentries] at hn ⊢
    obtain ⟨e', he', herror⟩ := (Formula.parse_trim v text).2 e he
    have hearlier : (earlier.map (·.1)).Nodup := by
      rw [List.map_append] at hn
      exact hn.of_append_left
    obtain ⟨batch, hb⟩ := compiled_empty.exists_addAll (by simpa using hearlier) (trimmed hp)
    refine ⟨e', ?_, herror⟩
    rw [List.foldlM_append, hb]
    show List.foldlM (Batch.add v) batch ((name, text) :: later) = _
    rw [List.foldlM_cons, (compiled_empty.addAll hb).add_error (not_mem_of_nodup hn) he']
    rfl

end Batch

namespace Indented

/-- A formula, and one that breaks off and stands behind two blanks. -/
def request : BatchRequest := .plain ["x + 1", "  a +"]

theorem valid : request.Valid := ⟨by decide, .inl rfl, by decide⟩

theorem parse_first : Formula.parse (H := Empty) (.builtin .upper) "x + 1" =
    .ok ⟨[.var "x", .literal (.number 1), .binary "+"], .builtin .upper⟩ :=
  Formula.parse_of_read (by decide +kernel)

theorem parse_second : Formula.parse (H := Empty) (.builtin .upper) "  a +" =
    .error ⟨5, .structural .missingOperand⟩ := by
  have hread : (Vocabulary.builtin .upper : Vocabulary Empty).grammar.read "  a +" =
      .error ⟨5, .structural .missingOperand⟩ := by decide +kernel
  rw [Formula.parse, hread]
  rfl

end Indented

open Indented in
/-- The fault shows at column 5 of the formula as it is written, and is reported at column 3. -/
theorem Batch.compile_parses_indented : Formula.parse (H := Empty) (.builtin .upper) "  a +" =
    .error ⟨5, .structural .missingOperand⟩ ∧
      compile (.builtin .upper : Vocabulary Empty) request =
        .error (.compile "f1" ⟨3, .structural .missingOperand⟩) := by
  obtain ⟨-, hfails⟩ := compile_parses (.builtin .upper : Vocabulary Empty) valid
  obtain ⟨e', hcompile, htrims, -⟩ := hfails [("f0", "x + 1")] "f1" "  a +" [] _ (by decide)
    (by simpa using ⟨_, parse_first⟩) parse_second
  refine ⟨parse_second, hcompile.trans ?_⟩
  cases htrims with
  | within => rfl

end PanelCalc
