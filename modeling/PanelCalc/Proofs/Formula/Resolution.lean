import PanelCalc.Proofs.Evaluation.Blame
import PanelCalc.Proofs.Formula.Compiled
import PanelCalc.Proofs.Vocabulary.Extension
import PanelCalc.Proofs.Vocabulary.Invocation

/-! # Operators are resolved when formulas are read

Reading turns down every operator that is not in the vocabulary, and neither
simplifying nor substituting brings in another one. Only the comma goes through
without an entry: a vocabulary that started empty has none and never gets one.
So the comma is the one operator that evaluating can fail to find, and it does
fail wherever such a vocabulary meets a comma: no function can be called with
several arguments. -/
namespace PanelCalc

variable {H : Type} {v start : Vocabulary H} {f f' r : Formula H} {caseStyle : CaseStyle}

/-- The formulas that reading with one vocabulary, simplifying and substituting lead to. -/
inductive Formula.CompiledWith (v : Vocabulary H) : Formula H → Prop
  | parse {text : String} {f : Formula H} : Formula.parse v text = .ok f → CompiledWith v f
  | simplify {f f' : Formula H} {numbers : String → Option Float} :
      CompiledWith v f → f.simplify numbers = .ok f' → CompiledWith v f'
  | substitute {f r : Formula H} (name : String) :
      CompiledWith v f → CompiledWith v r → CompiledWith v (f.substitute name r)
  | substituteText {f f' : Formula H} {name text : String} :
      CompiledWith v f → f.substituteText name text = .ok f' → CompiledWith v f'

/-! ## The comma -/

namespace Vocabulary

/-- Registering leaves the comma alone. -/
theorem Reachable.binary?_comma (h : Reachable start v) : v.binary? "," = start.binary? "," := by
  induction h with
  | start => rfl
  | register r _ hr ih => exact (register_agreeAt hr (comma_ne_key hr)).binary.trans ih

/-- Vocabularies that started empty are those without a comma. -/
theorem binary?_comma_eq_none
    (h : (builtin caseStyle).Reachable v ∨ (empty caseStyle).Reachable v) :
    v.binary? "," = none ↔ (empty caseStyle).Reachable v := by
  refine ⟨fun hnone => h.resolve_left fun hb => ?_, fun he => he.binary?_comma⟩
  rw [hb.binary?_comma, Vocabulary.binary?_comma] at hnone
  cases hnone

/-- Vocabularies that started with the built-in entries have the comma among them. -/
theorem binary?_comma_or
    (h : (builtin caseStyle).Reachable v ∨ (empty caseStyle).Reachable v) :
    v.binary? "," = some commaEntry ∨ v.binary? "," = none := by
  refine h.imp (fun hb => ?_) fun he => he.binary?_comma
  rw [hb.binary?_comma, Vocabulary.binary?_comma]

end Vocabulary

/-! ## Every other operator has an entry -/

section Steps

variable {P : Step → Prop} {numbers : String → Option Float}

/-- Simplifying a step brings in nothing but numbers. -/
theorem Step.Simplifies.forall {output output' : List Step} {step : Step}
    (h : Step.Simplifies v numbers output step output') (hp : ∀ x, P (.literal x))
    (ho : ∀ other ∈ output, P other) (hs : P step) : ∀ other ∈ output', P other := by
  cases h with
  | kept => exact List.forall_mem_cons.mpr ⟨hs, ho⟩
  | known _ => exact List.forall_mem_cons.mpr ⟨hp _, ho⟩
  | unary _ => exact List.forall_mem_cons.mpr ⟨hp _, (List.forall_mem_cons.mp ho).2⟩
  | binary _ =>
    exact List.forall_mem_cons.mpr
      ⟨hp _, (List.forall_mem_cons.mp (List.forall_mem_cons.mp ho).2).2⟩

theorem Program.forall_simplified {p : Program} {output output' : List Step}
    (h : p.foldlM (Step.simplify v numbers) output = .ok output') (hp : ∀ x, P (.literal x))
    (ho : ∀ step ∈ output, P step) (hs : ∀ step ∈ p, P step) : ∀ step ∈ output', P step :=
  foldlM_preserves (fun step hm _ _ hnext ho =>
    (Step.simplifies_of_ok hnext).forall hp ho (hs step hm)) h ho

end Steps

namespace Formula

/-- Every operator of the formula but the comma has an entry in the vocabulary. -/
structure Resolved (v : Vocabulary H) (f : Formula H) : Prop where
  vocabulary : f.vocabulary = v
  program : ∀ step ∈ f.program, v.grammar.Resolves step

theorem resolved_parse {text : String} (h : parse v text = .ok f) : f.Resolved v := by
  obtain ⟨program, hread, rfl⟩ := parse_eq_ok.mp h
  obtain ⟨ls, -, hrun⟩ := Grammar.read_eq_ok.mp hread
  exact ⟨rfl, Builder.resolves_of_run hrun⟩

theorem Resolved.simplify (hf : f.Resolved v) {numbers : String → Option Float}
    (h : f.simplify numbers = .ok f') : f'.Resolved v := by
  refine ⟨(vocabulary_simplify h).trans hf.vocabulary, ?_⟩
  obtain ⟨output, hs, h⟩ := bind_ok h
  cases h
  have hsteps := Program.forall_simplified hs (fun _ => trivial) (by simp) hf.program
  exact fun step hm => hsteps step (List.mem_reverse.mp hm)

theorem Resolved.substitute (hf : f.Resolved v) (hr : r.Resolved v) (name : String) :
    (f.substitute name r).Resolved v := by
  refine ⟨hf.vocabulary, fun step h => ?_⟩
  obtain ⟨old, hold, h⟩ := List.mem_flatMap.mp h
  split at h
  · exact hr.program step h
  · rw [List.mem_singleton.mp h]
    exact hf.program old hold

theorem CompiledWith.resolved (h : f.CompiledWith v) : f.Resolved v := by
  induction h with
  | parse h => exact resolved_parse h
  | simplify _ h ih => exact ih.simplify h
  | substitute name _ _ ihf ihr => exact ihf.substitute ihr name
  | substituteText _ h ih =>
    obtain ⟨r, hr, rfl⟩ := substituteText_ok h
    exact ih.substitute (resolved_parse (ih.vocabulary ▸ hr)) _

variable [HostFunctions H] {b : Bindings H} {a : Alignment} {s : String}

/-- An operator that is not found is a comma, or a fault that the host program makes up. -/
theorem Resolved.comma_of_error (hf : f.Resolved v)
    (h : f.evaluate b a = .error (.unknownOperator s)) :
    s = "," ∧ .binary "," ∈ f.program ∧ v.binary? "," = none ∨
      v.HostFails a (.unknownOperator s) := by
  obtain ⟨rfl, hsteps⟩ := hf
  cases blame_of_evaluate h with
  | step hm hb =>
    have hresolves := hsteps _ hm
    cases hb with
    | unary hnone =>
      simp [Grammar.Resolves, Vocabulary.grammar, hnone] at hresolves
    | binary hnone =>
      have hs : s = "," := by
        simpa [Grammar.Resolves, Vocabulary.grammar, hnone] using hresolves
      subst hs
      exact .inl ⟨rfl, hm, hnone⟩
    | refusal hrefusal => cases hrefusal
    | host hhost => exact .inr hhost

/-- Without a comma in the vocabulary no formula with a comma has a value. -/
theorem evaluate_ne_ok_of_comma (hm : .binary "," ∈ f.program)
    (hnone : f.vocabulary.binary? "," = none) (x : Value H) : f.evaluate b a ≠ .ok x := by
  intro h
  obtain ⟨before, after, hs⟩ := Program.exists_run (evaluate_eq_ok.mp h) hm
  rcases before with _ | ⟨y, _ | ⟨x, before⟩⟩
  · cases hs
  · cases hs
  · obtain ⟨z, hz, -⟩ := bind_ok hs
    simp [Vocabulary.applyBinary, hnone] at hz

/-- **The comma is the only operator that is not resolved when a formula is read.**
Whatever is done to a formula, evaluating it finds every other operator. It does
not find the comma if and only if the vocabulary started empty: a formula with a
comma then has no value, and a function is called as long as it has not more than
one argument. -/
theorem unknownOperator_of_compiledWith
    (hv : (Vocabulary.builtin caseStyle).Reachable v ∨ (Vocabulary.empty caseStyle).Reachable v)
    (hh : ∀ s, ¬ v.HostFails a (.unknownOperator s)) :
    (v.binary? "," = none ↔ (Vocabulary.empty caseStyle).Reachable v) ∧
    (∀ f b s, CompiledWith v f → f.evaluate b a = .error (.unknownOperator s) →
      s = "," ∧ .binary "," ∈ f.program ∧ v.binary? "," = none) ∧
    (∀ f b x, CompiledWith v f → .binary "," ∈ f.program → v.binary? "," = none →
      f.evaluate b a ≠ .ok x) ∧
    ∀ name arguments entry, v.Knows (.identifier name) →
      (∀ x ∈ arguments, v.Knows (.identifier x)) → v.function? name = some entry →
      entry.arity.accepts arguments.length →
      ∃ f, parse v (Vocabulary.invocation name arguments) = .ok f ∧
        ∀ b values, b.get? name = none → b.Give arguments values →
          (∀ x ∈ values, x.arguments = [x]) →
          f.evaluate b a =
            if (v.binary? ",").isNone ∧ 1 < arguments.length then .error (.unknownOperator ",")
            else entry.body.call a values := by
  refine ⟨Vocabulary.binary?_comma_eq_none hv, ?_, ?_, ?_⟩
  · intro f b s hf h
    exact (hf.resolved.comma_of_error h).resolve_right (hh s)
  · intro f b x hf hm hnone
    exact evaluate_ne_ok_of_comma hm (hf.resolved.vocabulary ▸ hnone) x
  · intro name arguments entry hn ha he haccepts
    have hread := Vocabulary.read_invocation (Vocabulary.wellFormed_of_reachable hv) hn ha
    refine ⟨⟨_, v⟩, by rw [parse, hread]; rfl, ?_⟩
    intro b values hfree hg hs
    have hlength : values.length = arguments.length := hg.length_eq.symm
    rw [evaluate_invocation he hfree hg hs (Vocabulary.binary?_comma_or hv), hlength,
      FunctionEntry.invoke, hlength, if_pos haccepts]

end Formula

namespace Greater

/-- A vocabulary that started empty, with a function of two arguments. -/
def greaterOnly : Vocabulary Empty :=
  ⟨[], [], [⟨"greater", .exact 2, .builtin (.cellwise .max)⟩], .upper⟩

/-- Bindings of the two arguments. -/
def bindings : Bindings Empty := ⟨[("x", .scalar 1), ("y", .scalar 2)]⟩

theorem reachable : (Vocabulary.empty .upper).Reachable greaterOnly :=
  .register (.function "greater" (.exact 2) (.builtin (.cellwise .max))) .start rfl

theorem not_hostFails (e : EvalError) : ¬ greaterOnly.HostFails .never e := by
  intro h
  cases h with
  | unary hm _ _ => cases hm
  | binary hm _ _ => cases hm
  | @function f _ _ => exact nomatch f

theorem knows {name : String} (hn : Text.isIdentifier name = true)
    (hc : greaterOnly.classify name = .identifier name) : greaterOnly.Knows (.identifier name) :=
  ⟨Vocabulary.isWord_of_isIdentifier hn, hc⟩

end Greater

open Greater in
/-- In a vocabulary that started empty, a function of two arguments cannot be called. -/
theorem Formula.unknownOperator_of_greater : ∃ f, parse greaterOnly "greater(x,y)" = .ok f ∧
    f.evaluate bindings .never = .error (.unknownOperator ",") := by
  obtain ⟨hcomma, -, -, hcall⟩ :=
    unknownOperator_of_compiledWith (.inr reachable) fun s => not_hostFails (.unknownOperator s)
  have hnames : ∀ x ∈ ["x", "y"], greaterOnly.Knows (.identifier x) := by
    simp only [List.forall_mem_cons]
    exact ⟨knows (by decide) rfl, knows (by decide) rfl, by simp⟩
  obtain ⟨f, hf, hvalue⟩ := hcall "greater" ["x", "y"] _ (knows (by decide) rfl) hnames rfl rfl
  have hgive : bindings.Give ["x", "y"] [.scalar 1, .scalar 2] := .cons rfl (.cons rfl .nil)
  have hmissing : (greaterOnly.binary? ",").isNone := by
    rw [hcomma.mpr reachable]
    rfl
  refine ⟨f, hf, ?_⟩
  rw [hvalue bindings _ rfl hgive (by simp [Value.arguments]), if_pos ⟨hmissing, by decide⟩]

end PanelCalc
