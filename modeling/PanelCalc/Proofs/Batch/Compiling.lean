import Mathlib.Data.List.Nodup
import PanelCalc.Batch.Basic
import PanelCalc.Proofs.Evaluation.Answers

/-! # What batches are compiled to

The outputs come in the order of the request, each with the formula of its own
text, whether this was read then or for an earlier output. A name in a formula
is that of a function, of an input or of an output before it. -/
namespace PanelCalc

variable {H : Type} {v : Vocabulary H}

namespace Formula

variable {f : Formula H} {name text : String}

theorem vocabulary_of_parse (h : parse v text = .ok f) : f.vocabulary = v := by
  obtain ⟨program, -, rfl⟩ := parse_eq_ok.mp h
  rfl

theorem mem_freeVariables : name ∈ f.freeVariables ↔
    .var name ∈ f.program ∧ f.vocabulary.isFunction name = false := by
  rw [freeVariables, List.mem_eraseDups, List.mem_filterMap]
  constructor
  · intro h
    obtain ⟨step, hs, h⟩ := h
    split at h
    · split at h
      · cases h
      · cases h
        simp_all
    · cases h
  · intro h
    exact ⟨.var name, h.1, by simp [h.2]⟩

end Formula

namespace Batch

/-- The outputs of named texts. Each has a name of its own and the formula of its
text, which mentions what is given and the outputs before it. -/
inductive Stages (v : Vocabulary H) (given : String → Prop) :
    List (String × String) → List (String × Formula H) → Prop
  | none : Stages v given [] []
  | add {entries outputs name text f} : Stages v given entries outputs →
      name ∉ outputs.map (·.1) → Formula.parse v (Text.trim text) = .ok f →
      (∀ n, .var n ∈ f.program → given n ∨ n ∈ outputs.map (·.1)) →
      Stages v given (entries ++ [(name, text)]) (outputs ++ [(name, f)])

/-- The names that a batch gives to its formulas. -/
def Given (v : Vocabulary H) (batch : Batch H) (name : String) : Prop :=
  v.isFunction name = true ∨ name ∈ batch.inputs

/-- A batch made of named texts. -/
structure Compiled (v : Vocabulary H) (entries : List (String × String)) (batch : Batch H) :
    Prop where
  stages : Stages v (batch.Given v) entries batch.outputs
  texts : ∀ key f, batch.texts.lookup key = some f → Formula.parse v key = .ok f

variable {batch batch' : Batch H} {f : Formula H} {entries : List (String × String)}
  {outputs : List (String × Formula H)} {given : String → Prop}

theorem mem_addInputs {name : String} : name ∈ batch.addInputs f ↔
    name ∈ batch.inputs ∨ name ∈ f.freeVariables ∧ name ∉ batch.outputNames := by
  unfold addInputs
  generalize batch.inputs = inputs
  induction f.freeVariables generalizing inputs with
  | nil => simp
  | cons first names ih =>
    rw [List.foldl_cons, ih]
    by_cases hf : name = first
    · subst hf
      split <;> simp_all
      tauto
    · split <;> simp [hf]

/-- A formula is added behind the others, with what its text means. -/
theorem add_ok {entry : String × String} (h : batch.add v entry = .ok batch') :
    entry.1 ∉ batch.outputNames ∧ ∃ f, batch'.outputs = batch.outputs ++ [(entry.1, f)] ∧
      batch'.inputs = batch.addInputs f ∧
      (batch.texts.lookup (Text.trim entry.2) = some f ∧ batch'.texts = batch.texts ∨
        Formula.parse v (Text.trim entry.2) = .ok f ∧
          batch'.texts = batch.texts ++ [(Text.trim entry.2, f)]) := by
  simp only [Batch.add] at h
  split at h
  · cases h
  rename_i hn
  refine ⟨by simpa using hn, ?_⟩
  split at h
  · rename_i f hl
    cases h
    exact ⟨f, rfl, rfl, .inl ⟨hl, rfl⟩⟩
  · obtain ⟨f, hf, h⟩ := bind_ok h
    cases h
    refine ⟨f, rfl, rfl, .inr ⟨?_, rfl⟩⟩
    cases hp : Formula.parse v (Text.trim entry.2) with
    | error e =>
      rw [hp] at hf
      cases hf
    | ok g =>
      rw [hp] at hf
      exact congrArg Except.ok (Except.ok.inj hf)

namespace Stages

theorem imp {given' : String → Prop} (h : Stages v given entries outputs)
    (hg : ∀ name, given name → given' name) : Stages v given' entries outputs := by
  induction h with
  | none => exact .none
  | add _ hn hp hm ih => exact .add ih hn hp fun n h => (hm n h).imp_left (hg n)

theorem names (h : Stages v given entries outputs) :
    outputs.map (·.1) = entries.map (·.1) := by
  induction h with
  | none => rfl
  | add _ _ _ _ ih => simp [ih]

theorem nodup (h : Stages v given entries outputs) : (outputs.map (·.1)).Nodup := by
  induction h with
  | none => exact .nil
  | add _ hn _ _ ih =>
    rw [List.map_append, List.map_singleton]
    exact ih.append (List.nodup_singleton _) (List.disjoint_singleton.mpr hn)

/-- Every output has the name and the formula of its entry. -/
theorem reads (h : Stages v given entries outputs) :
    List.Forall₂ (fun entry output => output.1 = entry.1 ∧
      Formula.parse v (Text.trim entry.2) = .ok output.2) entries outputs := by
  induction h with
  | none => exact .nil
  | add _ _ hp _ ih => exact List.rel_append ih (.cons ⟨rfl, hp⟩ .nil)

end Stages

namespace Compiled

/-- What a formula mentions beside the outputs so far is given once it is added. -/
theorem given_of_mem (hv : f.vocabulary = v) (hi : batch'.inputs = batch.addInputs f)
    {name : String}
    (h : .var name ∈ f.program) : batch'.Given v name ∨ name ∈ batch.outputNames := by
  by_cases ho : name ∈ batch.outputNames
  · exact .inr ho
  cases hf : v.isFunction name with
  | true => exact .inl (.inl hf)
  | false =>
    refine .inl (.inr ?_)
    rw [hi, mem_addInputs]
    exact .inr ⟨Formula.mem_freeVariables.mpr ⟨h, hv ▸ hf⟩, ho⟩

/-- One more formula, behind the others. -/
theorem grow {entry : String × String} (h : Compiled v entries batch)
    (hn : entry.1 ∉ batch.outputNames) (hp : Formula.parse v (Text.trim entry.2) = .ok f)
    (ho : batch'.outputs = batch.outputs ++ [(entry.1, f)])
    (hi : batch'.inputs = batch.addInputs f) :
    Stages v (batch'.Given v) (entries ++ [entry]) batch'.outputs := by
  rw [ho]
  refine .add (h.stages.imp ?_) hn hp fun n hm =>
    given_of_mem (Formula.vocabulary_of_parse hp) hi hm
  intro n hg
  refine hg.imp_right ?_
  intro hm
  rw [hi, mem_addInputs]
  exact .inl hm

theorem add {entry : String × String} (h : Compiled v entries batch)
    (ha : batch.add v entry = .ok batch') : Compiled v (entries ++ [entry]) batch' := by
  obtain ⟨hn, f, ho, hi, ⟨hl, ht⟩ | ⟨hp, ht⟩⟩ := add_ok ha
  · exact ⟨h.grow hn (h.texts _ _ hl) ho hi, ht ▸ h.texts⟩
  refine ⟨h.grow hn hp ho hi, ?_⟩
  intro key g hg
  rw [ht, List.lookup_append] at hg
  cases hk : batch.texts.lookup key with
  | some g' =>
    rw [hk] at hg
    cases hg
    exact h.texts key g hk
  | none =>
    rw [hk] at hg
    simp only [List.lookup_cons, List.lookup_nil, Option.none_or] at hg
    split at hg
    · rename_i he
      cases hg
      rw [beq_iff_eq.mp he]
      exact hp
    · cases hg

theorem addAll {more : List (String × String)} (h : Compiled v entries batch)
    (ha : more.foldlM (Batch.add v) batch = .ok batch') : Compiled v (entries ++ more) batch' := by
  induction more generalizing entries batch with
  | nil =>
    cases ha
    rwa [List.append_nil]
  | cons entry more ih =>
    obtain ⟨next, hn, ha⟩ := bind_ok ha
    rw [List.append_cons]
    exact ih (h.add hn) ha

end Compiled

theorem compiled_empty : Compiled v [] (empty : Batch H) := ⟨.none, by simp [empty]⟩

theorem compile_ok {request : BatchRequest} (h : compile v request = .ok batch) :
    request.entries.foldlM (Batch.add v) empty = .ok batch := by
  simp only [compile] at h
  split at h
  · cases h
  split at h
  · cases h
  · exact h

/-- What a request is compiled to. -/
theorem compiled_of_compile {request : BatchRequest} (h : compile v request = .ok batch) :
    Compiled v request.entries batch :=
  compiled_empty.addAll (compile_ok h)

end Batch

end PanelCalc
