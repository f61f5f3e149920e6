import PanelCalc.Proofs.Batch.Inlining
import PanelCalc.Proofs.Evaluation.Blame
import PanelCalc.Proofs.Evaluation.Invariants

/-! # The inputs of a batch

The inputs are the names that some formula mentions and that neither a function
nor an output before it goes by, each where it is used first. They are exactly
what a caller must bind: with all of them bound no name is ever undefined, and
without one of them no evaluation succeeds. -/
namespace PanelCalc

/-! ## Names at their first places -/

section Names

variable {names : List String} {name : String}

theorem eraseDups_concat : (names ++ [name]).eraseDups =
    if name ∈ names then names.eraseDups else names.eraseDups ++ [name] := by
  rw [List.eraseDups_append]
  split <;> simp_all [List.removeAll, List.eraseDups_cons]

theorem nodup_eraseDups (names : List String) : names.eraseDups.Nodup := by
  induction names using List.reverseRecOn with
  | nil => exact .nil
  | append_singleton names name ih =>
    rw [eraseDups_concat]
    split
    · exact ih
    · rename_i hn
      have hn' : name ∉ names.eraseDups := mt List.mem_eraseDups.mp hn
      exact ih.append (List.nodup_singleton name) (List.disjoint_singleton.mpr hn')

/-- The first places of some names among all are those among themselves. -/
theorem eraseDups_filter (p : String → Bool) (names : List String) :
    (names.filter p).eraseDups = names.eraseDups.filter p := by
  induction names using List.reverseRecOn with
  | nil => rfl
  | append_singleton names name ih =>
    rw [List.filter_append, eraseDups_concat]
    cases hp : p name with
    | false =>
      rw [List.filter_cons_of_neg (by simp [hp]), List.filter_nil, List.append_nil, ih]
      split
      · rfl
      · simp [hp]
    | true =>
      rw [List.filter_cons_of_pos hp, List.filter_nil, eraseDups_concat, ih]
      split <;> split <;> simp_all

end Names

variable {H : Type}

/-- The names that a program mentions, in order. -/
def Program.names (p : Program) : List String :=
  p.filterMap fun
    | .var name => some name
    | _ => none

theorem Program.mem_names {p : Program} {name : String} : name ∈ p.names ↔ .var name ∈ p := by
  rw [names, List.mem_filterMap]
  constructor
  · rintro ⟨step, hs, h⟩
    split at h
    · cases h
      exact hs
    · cases h
  · exact fun h => ⟨_, h, rfl⟩

theorem Formula.freeVariables_eq (f : Formula H) :
    f.freeVariables = f.program.names.eraseDups.filter (!f.vocabulary.isFunction ·) := by
  rw [← eraseDups_filter, freeVariables, Program.names, List.filter_filterMap]
  congr 1
  refine List.filterMap_congr fun step _ => ?_
  cases step with
  | var name => cases h : f.vocabulary.isFunction name <;> simp [h, Option.filter]
  | _ => rfl

namespace Batch

variable {v : Vocabulary H} {batch batch' : Batch H} {f : Formula H}
  {outputs earlier later : List (String × Formula H)} {entries : List (String × String)}
  {given : String → Prop} {name output : String}

/-- All names that the formulas of outputs mention, in order. -/
def mentioned (outputs : List (String × Formula H)) : List String :=
  outputs.flatMap fun output => output.2.program.names

/-- A formula adds the names that are new, in the order of their first mention in it. -/
theorem addInputs_eq (batch : Batch H) (f : Formula H) :
    batch.addInputs f = batch.inputs ++ f.freeVariables.filter fun name =>
      !(batch.outputNames.contains name || batch.inputs.contains name) := by
  have hn : f.freeVariables.Nodup := f.freeVariables_eq ▸ (nodup_eraseDups _).filter _
  unfold addInputs
  generalize batch.inputs = inputs
  revert hn
  generalize f.freeVariables = names
  intro hn
  induction names generalizing inputs with
  | nil => simp
  | cons first names ih =>
    obtain ⟨hfirst, hn⟩ := List.nodup_cons.mp hn
    rw [List.foldl_cons, ih _ hn]
    split
    · rename_i hknown
      rw [List.filter_cons_of_neg (by rw [hknown]; simp)]
    · rename_i hknown
      rw [List.filter_cons_of_pos (by simpa using hknown), List.append_assoc,
        List.singleton_append]
      congr 2
      refine List.filter_congr fun name hm => ?_
      have : name ≠ first := fun he => hfirst (he ▸ hm)
      simp [this]

/-- A name that one of the outputs needs: no function, and no output before it. -/
def Needed (outputs : List (String × Formula H)) (name : String) : Prop :=
  ∃ earlier output later, outputs = earlier ++ output :: later ∧
    name ∉ earlier.map (·.1) ∧ name ∈ output.2.freeVariables

theorem Needed.append (h : Needed outputs name) (more : List (String × Formula H)) :
    Needed (outputs ++ more) name := by
  obtain ⟨earlier, output, later, rfl, hn, hm⟩ := h
  exact ⟨earlier, output, later ++ more, by simp, hn, hm⟩

namespace Stages

/-- Every formula mentions what is given and the outputs before it. -/
theorem of_append (h : Stages v given entries (earlier ++ (output, f) :: later)) :
    f.vocabulary = v ∧ ∀ n, .var n ∈ f.program → given n ∨ n ∈ earlier.map (·.1) := by
  generalize hall : earlier ++ (output, f) :: later = all at h
  induction h generalizing later with
  | none => simp at hall
  | add _ _ hp hm ih =>
    rcases List.eq_nil_or_concat later with rfl | ⟨init, last, rfl⟩
    · obtain ⟨rfl, hlast⟩ := List.append_inj' hall rfl
      cases hlast
      exact ⟨Formula.vocabulary_of_parse hp, hm⟩
    · rw [List.concat_eq_append, ← List.cons_append, ← List.append_assoc] at hall
      exact ih (List.append_inj' hall rfl).1

theorem vocabulary (h : Stages v given entries outputs) {output : String × Formula H}
    (hm : output ∈ outputs) : output.2.vocabulary = v := by
  obtain ⟨earlier, later, rfl⟩ := List.append_of_mem hm
  exact h.of_append.1

theorem mem_mentioned (h : Stages v given entries outputs) (hm : name ∈ mentioned outputs) :
    given name ∨ name ∈ outputs.map (·.1) := by
  obtain ⟨⟨output, f⟩, ho, hname⟩ := List.mem_flatMap.mp hm
  obtain ⟨earlier, later, rfl⟩ := List.append_of_mem ho
  refine (h.of_append.2 name (Program.mem_names.mp hname)).imp_right fun he => ?_
  rw [List.map_append, List.mem_append]
  exact .inl he

end Stages

/-- What the inputs of a batch are. -/
structure Listed (batch : Batch H) : Prop where
  needed : ∀ name ∈ batch.inputs, Needed batch.outputs name
  order : batch.inputs.Sublist (mentioned batch.outputs).eraseDups

/-- What is new in a formula has not been mentioned before. -/
theorem Listed.add {entry : String × String} (h : Listed batch) (hc : Compiled v entries batch)
    (ha : batch.add v entry = .ok batch') : Listed batch' := by
  obtain ⟨-, f, ho, hi, hf⟩ := add_ok ha
  have hv : f.vocabulary = v := by
    rcases hf with ⟨hl, -⟩ | ⟨hp, -⟩
    · exact Formula.vocabulary_of_parse (hc.texts _ _ hl)
    · exact Formula.vocabulary_of_parse hp
  rw [addInputs_eq] at hi
  constructor
  · intro name hm
    rw [ho]
    rw [hi, List.mem_append, List.mem_filter] at hm
    rcases hm with hm | ⟨hm, hnew⟩
    · exact (h.needed name hm).append _
    · refine ⟨batch.outputs, _, [], rfl, ?_, hm⟩
      simp only [Bool.not_eq_true', Bool.or_eq_false_iff] at hnew
      simpa [outputNames] using hnew.1
  · have hall : mentioned batch'.outputs = mentioned batch.outputs ++ f.program.names := by
      rw [ho, mentioned, List.flatMap_append, List.flatMap_singleton]
      rfl
    rw [hi, hall, List.eraseDups_append]
    refine h.order.append ?_
    rw [List.removeAll, eraseDups_filter, Formula.freeVariables_eq, List.filter_filter]
    refine List.monotone_filter_right _ fun name hnew => ?_
    simp only [Bool.and_eq_true, Bool.not_eq_true', Bool.or_eq_false_iff, hv] at hnew
    rw [Bool.not_eq_true', Bool.eq_false_iff]
    intro hold
    rcases hc.stages.mem_mentioned (List.elem_iff.mp hold) with (hf | hi) | ho
    · simp [hf] at hnew
    · simp [hi] at hnew
    · simp [outputNames, ho] at hnew

theorem Listed.addAll {more : List (String × String)} (h : Listed batch)
    (hc : Compiled v entries batch) (ha : more.foldlM (Batch.add v) batch = .ok batch') :
    Listed batch' := by
  induction more generalizing entries batch with
  | nil =>
    cases ha
    exact h
  | cons entry more ih =>
    obtain ⟨next, hn, ha⟩ := bind_ok ha
    exact ih (h.add hc hn) (hc.add hn) ha

theorem listed_of_compile {request : BatchRequest} (h : compile v request = .ok batch) :
    Listed batch := by
  have hnone : Listed (empty : Batch H) := ⟨by simp [empty], List.nil_sublist _⟩
  exact hnone.addAll compiled_empty (compile_ok h)

/-! ## Evaluating -/

variable [HostFunctions H] {b : Bindings H} {a : Alignment}
  {known : Bindings H × List (String × Value H)}

/-- Every formula is evaluated with the results before it. -/
theorem evaluated_of_append
    (h : (earlier ++ (output, f) :: later).foldlM (evaluateNext a) (b, []) = .ok known) :
    ∃ results x, results.map (·.1) = earlier.map (·.1) ∧
      f.evaluate (b.extend results) a = .ok x := by
  rw [List.foldlM_append] at h
  obtain ⟨⟨working, results⟩, hr, h⟩ := bind_ok h
  obtain ⟨rfl, names⟩ := extend_of_evaluated hr
  rw [List.foldlM_cons] at h
  obtain ⟨next, hx, -⟩ := bind_ok h
  obtain ⟨x, hx, -⟩ := evaluateNext_ok hx
  exact ⟨results, x, names, hx⟩

/-- A batch fails at the first formula that does. -/
theorem append_of_failed {e : BatchError}
    (h : outputs.foldlM (evaluateNext a) (b, []) = .error e) :
    ∃ earlier output f later working results e', outputs = earlier ++ (output, f) :: later ∧
      earlier.foldlM (evaluateNext a) (b, []) = .ok (working, results) ∧
      f.evaluate working a = .error e' ∧ e = .evaluate output e' := by
  induction outputs using List.reverseRecOn with
  | nil => cases h
  | append_singleton outputs last ih =>
    obtain ⟨output, f⟩ := last
    rw [List.foldlM_append] at h
    cases hr : outputs.foldlM (evaluateNext a) (b, []) with
    | error e' =>
      rw [hr] at h
      obtain rfl : e' = e := Except.error.inj h
      obtain ⟨earlier, output', f', later, working, results, e', rfl, hw, hf, rfl⟩ := ih hr
      exact ⟨earlier, output', f', later ++ [(output, f)], working, results, e', by simp, hw, hf,
        rfl⟩
    | ok known =>
      obtain ⟨working, results⟩ := known
      rw [hr] at h
      cases hf : f.evaluate working a with
      | ok x =>
        simp [List.foldlM_cons, evaluateNext, hf, bind, Except.bind, Except.mapError, pure,
          Except.pure] at h
      | error e' =>
        refine ⟨outputs, output, f, [], working, results, e', rfl, hr, hf, ?_⟩
        simp [List.foldlM_cons, evaluateNext, hf, bind, Except.bind, Except.mapError] at h
        exact h.symm

section Builtin

variable {caseStyle : CaseStyle} {request : BatchRequest}

theorem native_of_evaluated (hv : ∀ output ∈ outputs, output.2.vocabulary = .builtin caseStyle)
    (hb : b.Native) {working : Bindings H} {results : List (String × Value H)}
    (h : outputs.foldlM (evaluateNext a) (b, []) = .ok (working, results)) : working.Native := by
  refine foldlM_preserves (P := fun known => known.1.Native) ?_ h hb
  rintro ⟨name, program, vocabulary⟩ hm ⟨before, values⟩ ⟨after, values'⟩ hnext hbefore
  obtain rfl : vocabulary = .builtin caseStyle := hv _ hm
  obtain ⟨x, hx, rfl, -⟩ := evaluateNext_ok hnext
  exact hbefore.insert (Formula.native_of_evaluate hbefore hx) name

/-- With all inputs bound, no name that is looked up stands for nothing. -/
theorem ne_undefined (hc : compile (Vocabulary.builtin caseStyle) request = .ok batch)
    (hb : b.Native) (bound : ∀ name ∈ batch.inputs, (b.get? name).isSome) (output name : String) :
    batch.evaluate b a ≠ .error (.evaluate output (.undefinedVariable name)) := by
  intro h
  unfold Batch.evaluate at h
  cases hr : batch.outputs.foldlM (evaluateNext a) (b, []) with
  | ok known =>
    rw [hr] at h
    cases h
  | error e =>
    rw [hr] at h
    cases h
    obtain ⟨earlier, _, f, later, working, results, _, houtputs, hw, hf, he⟩ := append_of_failed hr
    cases he
    have stages := (compiled_of_compile hc).stages
    rw [houtputs] at stages
    obtain ⟨program, vocabulary⟩ := f
    obtain ⟨hv, given⟩ := stages.of_append
    obtain rfl : vocabulary = .builtin caseStyle := hv
    have native : working.Native :=
      native_of_evaluated (fun _ hm => stages.vocabulary (List.mem_append_left _ hm)) hb hw
    obtain ⟨rfl, names⟩ := extend_of_evaluated hw
    cases Formula.blame_of_native native hf with
    | step hm hblame =>
      cases hblame with
      | refusal he => cases he
      | host he => exact he
      | name unbound unknown =>
        have known : name ∈ results.map (·.1) ∨ (b.get? name).isSome := by
          rcases given name hm with (hfunction | hi) | ho
          · rw [unknown] at hfunction
            cases hfunction
          · exact .inr (bound name hi)
          · exact .inl (names ▸ ho)
        have := Bindings.isSome_get?_extend known
        rw [unbound] at this
        cases this

/-- Without one of the inputs no evaluation succeeds. -/
theorem evaluate_of_unbound {v : Vocabulary H} (hc : compile v request = .ok batch)
    (hm : name ∈ batch.inputs) (unbound : b.get? name = none) :
    ∃ e, batch.evaluate b a = .error e := by
  cases h : batch.evaluate b a with
  | error e => exact ⟨e, rfl⟩
  | ok values =>
    obtain ⟨known, hr, -⟩ := map_ok h
    obtain ⟨earlier, ⟨output, f⟩, later, houtputs, hn, hf⟩ := (listed_of_compile hc).needed name hm
    rw [houtputs] at hr
    obtain ⟨results, x, names, hx⟩ := evaluated_of_append hr
    obtain ⟨hp, unknown⟩ := Formula.mem_freeVariables.mp hf
    have some := Formula.isSome_of_evaluate hx hp unknown
    rw [Bindings.get?_extend_of_not_mem (names ▸ hn), unbound] at some
    cases some

/-- **The inputs are what a caller must bind.** With the built-in vocabulary, they
are different names of no functions, in the order of their first use in the batch.
Where scalars and panels are bound to all of them, whatever else is bound and
however panels are aligned, no output fails for an undefined name; where one of
them is not bound, the evaluation fails. -/
theorem evaluate_inputs (hc : compile (Vocabulary.builtin caseStyle) request = .ok batch) :
    batch.inputs.Nodup ∧
      (∀ name ∈ batch.inputs,
        (Vocabulary.builtin caseStyle : Vocabulary H).isFunction name = false) ∧
      batch.inputs.Sublist (mentioned batch.outputs).eraseDups ∧
      ∀ (b : Bindings H) (a : Alignment), b.Over (fun _ => True) →
        ((∀ name ∈ batch.inputs, (b.get? name).isSome) → ∀ output name,
          batch.evaluate b a ≠ .error (.evaluate output (.undefinedVariable name))) ∧
        ∀ name ∈ batch.inputs, b.get? name = none → ∃ e, batch.evaluate b a = .error e := by
  have listed := listed_of_compile hc
  refine ⟨listed.order.nodup (nodup_eraseDups _), fun name hm => ?_, listed.order, ?_⟩
  · obtain ⟨earlier, ⟨output, f⟩, later, houtputs, -, hf⟩ := listed.needed name hm
    have stages := (compiled_of_compile hc).stages
    rw [houtputs] at stages
    rw [← stages.of_append.1]
    exact (Formula.mem_freeVariables.mp hf).2
  · intro b a hb
    exact ⟨ne_undefined hc hb.matches_kept, fun name => evaluate_of_unbound hc⟩

end Builtin

end Batch

open Squares in
/-- The square of a sum needs the summand, and no name of an output. -/
theorem Batch.evaluate_inputs_repeated :
    batch.inputs = ["x"] ∧ mentioned batch.outputs = ["x", "f0", "f0", "f0", "f0"] ∧
      (∀ output name, batch.evaluate ⟨[("x", .scalar 2)]⟩ .never ≠
        .error (.evaluate output (.undefinedVariable name))) ∧
      ∃ e, batch.evaluate ⟨[("f0", .scalar 2)]⟩ .never = .error e := by
  obtain ⟨-, -, -, needs⟩ := evaluate_inputs compile_request
  have scalars (bound : String) :
      (⟨[(bound, .scalar 2)]⟩ : Bindings Empty).Over fun _ => True := by
    intro name value h
    simp only [Bindings.get?, List.lookup_cons] at h
    split at h
    · exact .inl ⟨2, (Option.some.inj h).symm⟩
    · cases h
  refine ⟨rfl, rfl, (needs _ .never (scalars "x")).1 ?_, (needs _ .never (scalars "f0")).2 "x" ?_ rfl⟩
  · intro name hm
    rw [List.mem_singleton.mp hm]
    rfl
  · exact List.mem_singleton_self "x"

end PanelCalc
