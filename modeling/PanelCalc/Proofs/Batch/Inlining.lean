import Mathlib.Data.List.Induction
import PanelCalc.Proofs.Batch.Compiling
import PanelCalc.Proofs.Formula.Running

/-! # Batches without intermediate outputs

A formula that uses the outputs before it can do without them: their own
formulas, which do without outputs in turn, take the place of their names. Where
no output hides a function or an input, this changes nothing of what a batch
that succeeds answers. -/
namespace PanelCalc

variable {H : Type}

/-- The formula with others in place of their names, one after the other. -/
def Formula.inlined (known : List (String × Formula H)) (f : Formula H) : Formula H :=
  known.foldl (fun f (name, g) => f.substitute name g) f

namespace Batch

/-- Each output's formula with those before it in place of their names. -/
def inline (outputs : List (String × Formula H)) : List (String × Formula H) :=
  outputs.foldl (fun known (name, f) => known ++ [(name, f.inlined known)]) []

/-- The outputs of a batch with formulas that mention no output. -/
def inlined (batch : Batch H) : List (String × Formula H) := inline batch.outputs

theorem inline_concat (outputs : List (String × Formula H)) (name : String) (f : Formula H) :
    inline (outputs ++ [(name, f)]) =
      inline outputs ++ [(name, f.inlined (inline outputs))] := by
  simp [inline]

theorem names_inline (outputs : List (String × Formula H)) :
    (inline outputs).map (·.1) = outputs.map (·.1) := by
  induction outputs using List.reverseRecOn with
  | nil => rfl
  | append_singleton outputs output ih =>
    obtain ⟨name, f⟩ := output
    simp [inline_concat, ih]

/-- Each formula is inlined with the ones before it. -/
theorem inline_getElem? {outputs : List (String × Formula H)} {i : Nat} {name : String}
    {f : Formula H} (h : outputs[i]? = some (name, f)) :
    (inline outputs)[i]? = some (name, f.inlined ((inline outputs).take i)) := by
  induction outputs using List.reverseRecOn with
  | nil => cases h
  | append_singleton outputs output ih =>
    obtain ⟨last, g⟩ := output
    have hl : (inline outputs).length = outputs.length := by
      simpa using congrArg List.length (names_inline outputs)
    rw [inline_concat]
    rcases Nat.lt_trichotomy i outputs.length with hi | rfl | hi
    · rw [List.getElem?_append_left hi] at h
      rw [List.getElem?_append_left (hl ▸ hi), List.take_append_of_le_length (by omega)]
      exact ih h
    · simp only [List.getElem?_concat_length, Option.some.injEq, Prod.mk.injEq] at h
      obtain ⟨rfl, rfl⟩ := h
      rw [← hl, List.getElem?_concat_length, List.take_left]
    · rw [List.getElem?_eq_none (by simp; omega)] at h
      cases h

end Batch

/-- The bindings with values given to names, one after the other. -/
def Bindings.extend (b : Bindings H) (results : List (String × Value H)) : Bindings H :=
  results.foldl (fun b (name, value) => b.insert name value) b

namespace Bindings

variable {b b' : Bindings H} {results : List (String × Value H)} {name : String}

theorem get?_extend_congr (h : name ∈ results.map (·.1) ∨ b.get? name = b'.get? name) :
    (b.extend results).get? name = (b'.extend results).get? name := by
  induction results generalizing b b' with
  | nil => simpa [extend] using h
  | cons result results ih =>
    refine ih ?_
    by_cases hn : name = result.1
    · rw [hn, get?_insert_self, get?_insert_self]
      exact .inr rfl
    · rw [get?_insert_of_ne _ _ hn, get?_insert_of_ne _ _ hn]
      simpa [hn] using h

theorem get?_extend_of_not_mem (h : name ∉ results.map (·.1)) :
    (b.extend results).get? name = b.get? name := by
  induction results generalizing b with
  | nil => rfl
  | cons result results ih =>
    rw [List.map_cons, List.mem_cons, not_or] at h
    exact (ih h.2).trans (b.get?_insert_of_ne _ h.1)

theorem isSome_get?_extend (h : name ∈ results.map (·.1) ∨ (b.get? name).isSome) :
    ((b.extend results).get? name).isSome := by
  induction results generalizing b with
  | nil => simpa [extend] using h
  | cons result results ih =>
    refine ih ?_
    by_cases hn : name = result.1
    · rw [hn, get?_insert_self]
      exact .inr rfl
    · rw [get?_insert_of_ne _ _ hn]
      simpa [hn] using h

/-- A name of its own may as well be bound last. -/
theorem get?_extend_cons {other : String} {x : Value H} (h : other ∉ results.map (·.1)) :
    (b.extend ((other, x) :: results)).get? name =
      ((b.extend results).insert other x).get? name := by
  by_cases hn : name = other
  · subst hn
    rw [get?_insert_self]
    exact (get?_extend_of_not_mem h).trans (b.get?_insert_self name x)
  · rw [get?_insert_of_ne _ _ hn]
    exact get?_extend_congr (.inr (b.get?_insert_of_ne x hn))

end Bindings

namespace Formula

variable {known : List (String × Formula H)} {f : Formula H} {given : String → Prop}

theorem vocabulary_inlined : (f.inlined known).vocabulary = f.vocabulary := by
  unfold inlined
  induction known generalizing f with
  | nil => rfl
  | cons output known ih => exact ih

theorem mem_substitute {g : Formula H} {name n : String}
    (h : .var n ∈ (f.substitute name g).program) :
    .var n ∈ f.program ∧ n ≠ name ∨ .var n ∈ g.program := by
  obtain ⟨step, hs, h⟩ := List.mem_flatMap.mp h
  split at h
  · exact .inr h
  · rename_i hn
    rw [← List.mem_singleton.mp h] at hs hn
    exact .inl ⟨hs, fun he => hn (he ▸ rfl)⟩

/-- Inlining takes the place of every name that is not given. -/
theorem given_of_mem_inlined (hk : ∀ g ∈ known, ∀ n, .var n ∈ g.2.program → given n)
    (hf : ∀ n, .var n ∈ f.program → given n ∨ n ∈ known.map (·.1)) {n : String}
    (h : .var n ∈ (f.inlined known).program) : given n := by
  induction known generalizing f with
  | nil => exact (hf n h).resolve_right (by simp)
  | cons output known ih =>
    refine ih (fun g hg => hk g (List.mem_cons_of_mem _ hg)) ?_ h
    intro m hm
    rcases mem_substitute hm with ⟨hm, hne⟩ | hm
    · refine (hf m hm).imp_right ?_
      intro hm
      exact (List.mem_cons.mp hm).resolve_left hne
    · exact .inl (hk output List.mem_cons_self m hm)

end Formula

variable [HostFunctions H]

namespace Batch

/-- An output's formula without other outputs, and the value of the output. -/
structure Inlines (v : Vocabulary H) (given : String → Prop) (b : Bindings H) (a : Alignment)
    (output : String × Formula H) (result : String × Value H) : Prop where
  name : output.1 = result.1
  vocabulary : output.2.vocabulary = v
  given : ∀ n, .var n ∈ output.2.program → given n
  value : output.2.program.run v b a = .ok [result.2]

variable {v : Vocabulary H} {given : String → Prop} {b : Bindings H} {a : Alignment}
  {known : List (String × Formula H)} {results : List (String × Value H)}

theorem given_of_inlines (h : List.Forall₂ (Inlines v given b a) known results) :
    ∀ output ∈ known, ∀ n, .var n ∈ output.2.program → given n := by
  induction h with
  | nil => simp
  | cons ho _ ih =>
    intro output hm
    rcases List.mem_cons.mp hm with rfl | hm
    · exact ho.given
    · exact ih output hm

/-- An inlined formula does the same as the formula with the outputs bound to
their values. -/
theorem run_inlined (h : List.Forall₂ (Inlines v given b a) known results)
    (nodup : (results.map (·.1)).Nodup) (hg : ∀ n ∈ results.map (·.1), ¬ given n) (f : Formula H) :
    (f.inlined known).program.run v b a = f.program.run v (b.extend results) a := by
  induction h generalizing f with
  | nil => rfl
  | @cons output result known results ho _ ih =>
    rw [List.map_cons, List.nodup_cons] at nodup
    have others : ∀ n ∈ results.map (·.1), ¬ given n := fun n hn => hg n (List.mem_cons_of_mem _ hn)
    have hr : output.2.program.run v (b.extend results) a = .ok [result.2] := by
      rw [← ho.value]
      exact Program.foldlM_congr fun n hn =>
        Bindings.get?_extend_of_not_mem fun hm => others n hm (ho.given n hn)
    refine (ih nodup.2 others (f.substitute output.1 output.2)).trans ?_
    refine (Program.foldlM_substituted hr f.program).trans ?_
    refine Program.foldlM_congr fun n _ => ?_
    rw [ho.name]
    exact (Bindings.get?_extend_cons nodup.1).symm

theorem evaluateNext_ok {bindings bindings' : Bindings H}
    {results results' : List (String × Value H)}
    {output : String × Formula H}
    (h : evaluateNext a (bindings, results) output = .ok (bindings', results')) :
    ∃ x, output.2.evaluate bindings a = .ok x ∧ bindings' = bindings.insert output.1 x ∧
      results' = results ++ [(output.1, x)] := by
  obtain ⟨x, hx, h⟩ := bind_ok h
  cases h
  exact ⟨x, mapError_ok hx, rfl, rfl⟩

/-- The bindings that a batch works with are the caller's and the results so far. -/
theorem extend_of_evaluated {outputs : List (String × Formula H)} {bindings : Bindings H}
    (h : outputs.foldlM (evaluateNext a) (b, []) = .ok (bindings, results)) :
    bindings = b.extend results ∧ results.map (·.1) = outputs.map (·.1) := by
  induction outputs using List.reverseRecOn generalizing bindings results with
  | nil =>
    cases h
    exact ⟨rfl, rfl⟩
  | append_singleton outputs output ih =>
    rw [List.foldlM_append] at h
    obtain ⟨⟨working, values⟩, hf, h⟩ := bind_ok h
    obtain ⟨rfl, names⟩ := ih hf
    rw [List.foldlM_cons] at h
    obtain ⟨⟨working, all⟩, hx, h⟩ := bind_ok h
    cases h
    obtain ⟨x, -, rfl, rfl⟩ := evaluateNext_ok hx
    exact ⟨by simp [Bindings.extend], by simp [names]⟩

/-- Each result is the value of the inlined formula. -/
theorem Stages.evaluate {entries : List (String × String)} {outputs : List (String × Formula H)}
    (h : Stages v given entries outputs) (hg : ∀ n ∈ outputs.map (·.1), ¬ given n)
    {bindings : Bindings H}
    (he : outputs.foldlM (evaluateNext a) (b, []) = .ok (bindings, results)) :
    List.Forall₂ (Inlines v given b a) (inline outputs) results := by
  induction h generalizing bindings results with
  | none =>
    cases he
    exact .nil
  | @add entries outputs name text f hs hn hp hm ih =>
    rw [List.foldlM_append] at he
    obtain ⟨⟨working, values⟩, hf, he⟩ := bind_ok he
    have earlier : ∀ n ∈ outputs.map (·.1), ¬ given n := fun n hn => hg n (by simp_all)
    have inlines := ih earlier hf
    obtain ⟨rfl, names⟩ := extend_of_evaluated hf
    rw [List.foldlM_cons] at he
    obtain ⟨⟨working, all⟩, hx, he⟩ := bind_ok he
    cases he
    obtain ⟨x, value, rfl, rfl⟩ := evaluateNext_ok hx
    have vocabulary := Formula.vocabulary_of_parse hp
    rw [inline_concat]
    refine List.rel_append inlines (.cons ⟨rfl, ?_, ?_, ?_⟩ .nil)
    · rw [Formula.vocabulary_inlined, vocabulary]
    · intro n hi
      refine Formula.given_of_mem_inlined (given_of_inlines inlines) ?_ hi
      rw [names_inline]
      exact hm
    · rw [run_inlined inlines (names ▸ hs.nodup) (names ▸ earlier) f, ← vocabulary]
      exact Formula.evaluate_eq_ok.mp value

/-- **Batches without intermediate outputs.** Where a batch in which no output
hides a function or an input succeeds, it answers one value per formula, in the
order and under the names of the request: that of the formula with those of the
outputs before it in place of their names. -/
theorem evaluate_inlined {request : BatchRequest} {batch : Batch H}
    (hc : compile v request = .ok batch)
    (hn : ∀ name ∈ batch.outputNames, v.isFunction name = false ∧ name ∉ batch.inputs)
    (he : batch.evaluate b a = .ok results) :
    results.length = request.formulas.length ∧
      ∀ i text, request.formulas[i]? = some text → ∃ f value,
        Formula.parse v (Text.trim text) = .ok f ∧
        batch.outputs[i]? = some (request.outputName i, f) ∧
        results[i]? = some (request.outputName i, value) ∧
        (f.inlined (batch.inlined.take i)).evaluate b a = .ok value := by
  have h := (compiled_of_compile hc).stages
  have given : ∀ n ∈ batch.outputs.map (·.1), ¬ batch.Given v n := by
    intro n hm hg
    rcases hg with hg | hg
    · rw [(hn n hm).1] at hg
      cases hg
    · exact (hn n hm).2 hg
  unfold Batch.evaluate at he
  cases hf : batch.outputs.foldlM (evaluateNext a) (b, []) with
  | error e =>
    rw [hf] at he
    cases he
  | ok known =>
    obtain ⟨working, values⟩ := known
    rw [hf] at he
    obtain rfl : values = results := Except.ok.inj he
    have inlines := h.evaluate given hf
    have names := (extend_of_evaluated hf).2
    refine ⟨?_, fun i text ht => ?_⟩
    · have hl := congrArg List.length names
      have := h.reads.length_eq
      simp only [List.length_map, BatchRequest.entries, List.length_zipIdx] at hl this
      omega
    have entry : request.entries[i]? = some (request.outputName i, text) := by
      simp [BatchRequest.entries, List.getElem?_zipIdx, ht]
    obtain ⟨⟨name, f⟩, hi, rfl, hp⟩ := getElem?_of_forall₂ h.reads entry
    obtain ⟨⟨name, value⟩, hr, rfl, -, -, hv⟩ := getElem?_of_forall₂ inlines (inline_getElem? hi)
    refine ⟨f, value, hp, hi, hr, Formula.evaluate_eq_ok.mpr ?_⟩
    rwa [Formula.vocabulary_inlined, Formula.vocabulary_of_parse hp]

end Batch

/-! ## A text that stands twice -/

namespace Squares

def sum : Formula Empty :=
  ⟨[.var "x", .literal (.number 1), .binary "+"], Vocabulary.builtin .upper⟩

def square : Formula Empty := ⟨[.var "f0", .var "f0", .binary "*"], Vocabulary.builtin .upper⟩

def request : BatchRequest := .plain ["x + 1", "f0 * f0", " f0 * f0"]

/-- What the request is compiled to. -/
def batch : Batch Empty :=
  ⟨[("f0", sum), ("f1", square), ("f2", square)], [("x + 1", sum), ("f0 * f0", square)], ["x"]⟩

theorem compile_request : Batch.compile (Vocabulary.builtin .upper) request = .ok batch := by
  have first : Formula.parse (Vocabulary.builtin .upper) "x + 1" = .ok sum :=
    Formula.parse_of_read (by decide +kernel)
  have second : Formula.parse (Vocabulary.builtin .upper) "f0 * f0" = .ok square :=
    Formula.parse_of_read (by decide +kernel)
  have trims : Text.trim "x + 1" = "x + 1" ∧ Text.trim "f0 * f0" = "f0 * f0" ∧
      Text.trim " f0 * f0" = "f0 * f0" := by decide
  have entries : request.entries = [("f0", "x + 1"), ("f1", "f0 * f0"), ("f2", " f0 * f0")] := by
    decide
  show request.entries.foldlM _ _ = _
  rw [entries]
  simp only [List.foldlM_cons, Batch.add, trims, first, second]
  rfl

end Squares

open Squares in
/-- Each of the two outputs is the square of the whole sum. -/
theorem Batch.evaluate_inlined_repeated : ∃ results value,
    batch.evaluate ⟨[("x", .scalar 2)]⟩ .never = .ok results ∧ results.length = 3 ∧
      results[2]? = some ("f2", value) ∧
      (square.inlined (batch.inlined.take 2)).evaluate ⟨[("x", .scalar 2)]⟩ .never = .ok value := by
  obtain ⟨results, he⟩ : ∃ results, batch.evaluate ⟨[("x", .scalar 2)]⟩ .never = .ok results :=
    ⟨_, rfl⟩
  obtain ⟨length, values⟩ := evaluate_inlined compile_request (by decide) he
  obtain ⟨f, value, -, hf, hv, h⟩ := values 2 " f0 * f0" rfl
  obtain rfl : square = f := congrArg Prod.snd (Option.some.inj hf)
  exact ⟨results, value, he, length, hv, h⟩

end PanelCalc
