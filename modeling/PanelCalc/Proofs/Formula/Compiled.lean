import PanelCalc.Proofs.Evaluation.StackFaults
import PanelCalc.Proofs.Formula.Heights
import PanelCalc.Proofs.Printing.Text
import PanelCalc.Proofs.Syntax.Balance
import PanelCalc.Proofs.Syntax.Splicing
import PanelCalc.Proofs.Syntax.UnderWay

/-! # Compiled formulas are well formed

Formulas are read from texts, simplified, and put into each other in place of
names. Whatever is done to them in whatever order, and whatever the priorities
of their operators, their programs are the postorders of trees, and so running
or writing them never finds too few values and leaves exactly one. -/
namespace PanelCalc

variable {H : Type}

/-- The formulas that reading, simplifying and substituting lead to. What takes
the place of a name may have been read with another vocabulary. -/
inductive Formula.Compiled : Formula H → Prop
  | parse {caseStyle : CaseStyle} {v : Vocabulary H} {text : String} {f : Formula H} :
      (Vocabulary.builtin caseStyle).Reachable v ∨ (Vocabulary.empty caseStyle).Reachable v →
      Formula.parse v text = .ok f → Compiled f
  | simplify {f f' : Formula H} {numbers : String → Option Float} :
      Compiled f → f.simplify numbers = .ok f' → Compiled f'
  | substitute {f r : Formula H} (name : String) :
      Compiled f → Compiled r → Compiled (f.substitute name r)
  | substituteText {f f' : Formula H} {name text : String} :
      Compiled f → f.substituteText name text = .ok f' → Compiled f'

namespace Formula

variable {f f' r : Formula H}

theorem wellFormed_parse {v : Vocabulary H} {text : String} (h : parse v text = .ok f) :
    f.vocabulary = v ∧ f.program.WellFormed := by
  obtain ⟨program, hread, rfl⟩ := parse_eq_ok.mp h
  obtain ⟨ls, -, hrun⟩ := Grammar.read_eq_ok.mp hread
  exact ⟨rfl, Builder.upright_start.run hrun⟩

theorem substituteText_ok {name text : String} (h : f.substituteText name text = .ok f') :
    ∃ r, parse f.vocabulary text = .ok r ∧ f' = f.substitute name r := by
  unfold substituteText at h
  cases hr : parse f.vocabulary text with
  | error e =>
    rw [hr] at h
    cases h
  | ok r =>
    rw [hr] at h
    cases h
    exact ⟨r, rfl, rfl⟩

theorem wellFormed_substitute (hf : f.program.WellFormed) (hr : r.program.WellFormed)
    (name : String) : (f.substitute name r).program.WellFormed := by
  obtain ⟨t, ht⟩ := Program.wellFormed_iff.mp hf
  obtain ⟨u, hu⟩ := Program.wellFormed_iff.mp hr
  refine Program.wellFormed_iff.mpr ⟨Tree.splice name u t, ?_⟩
  rw [Tree.postorder_splice, ← ht, ← hu]
  rfl

/-- What every step of compiling keeps. -/
theorem Compiled.invariant (h : f.Compiled) : f.vocabulary.WellFormed ∧ f.program.WellFormed := by
  induction h with
  | @parse caseStyle v text f hv h =>
    have hw := Vocabulary.wellFormed_of_reachable hv
    obtain ⟨rfl, hp⟩ := wellFormed_parse h
    exact ⟨hw, hp⟩
  | simplify _ h ih => exact ⟨vocabulary_simplify h ▸ ih.1, wellFormed_simplify h ih.2⟩
  | substitute name _ _ ihf ihr => exact ⟨ihf.1, wellFormed_substitute ihf.2 ihr.2 name⟩
  | substituteText _ h ih =>
    obtain ⟨r, hr, rfl⟩ := substituteText_ok h
    exact ⟨ih.1, wellFormed_substitute ih.2 (wellFormed_parse hr).2 _⟩

variable [HostFunctions H]

/-- **Compiled formulas are well formed**: no step finds too few values and one is
left. So they have no fault of the stack that the host program does not make up,
and they can be written; and no builder ever fails for lack of balance. -/
theorem wellFormed_of_compiled (h : f.Compiled) :
    f.program.WellFormed ∧
      (∀ b a e, f.evaluate b a = .error e → e.isStackFault = true → f.vocabulary.HostFails a e) ∧
      (∃ text, Program.infixText? f.program = some text) ∧
      ∀ lexemes operands joins,
        Builder.start.run f.vocabulary.grammar lexemes ≠ .error (.parity operands joins) := by
  obtain ⟨t, ht⟩ := Program.wellFormed_iff.mp h.invariant.2
  refine ⟨h.invariant.2, fun b a e he => ?_, ⟨t.text, ?_⟩, fun lexemes => ?_⟩
  · have hvalue : f.evaluate b a = t.evaluate f.vocabulary b a := by
      rw [← evaluate_postorder, ← ht]
    exact t.excused.of_error (hvalue ▸ he)
  · rw [ht, Program.infixText?, t.foldlM_write_postorder]
  · exact Builder.balanced_start.run_ne_parity

/-- A call without arguments, read with the empty vocabulary, in a simplified formula. -/
theorem wellFormed_of_compiled_spliced : ∃ f : Formula Empty, f.Compiled ∧
    f.program = [.var "f", .var "y", .literal .noArguments, .call, .literal (.number (1 + 2)),
      .binary ",", .call] ∧
    f.program.WellFormed ∧ ∀ b a e, f.evaluate b a = .error e → e.isStackFault = false := by
  have hf : Formula.parse (H := Empty) (.builtin .upper) "f(x, 1 + 2)" =
      .ok ⟨[.var "f", .var "x", .literal (.number 1), .literal (.number 2), .binary "+",
        .binary ",", .call], .builtin .upper⟩ := parse_of_read (by decide +kernel)
  have hr : Formula.parse (H := Empty) (.empty .upper) "y()" =
      .ok ⟨[.var "y", .literal .noArguments, .call], .empty .upper⟩ :=
    parse_of_read (by decide +kernel)
  have hs := @Compiled.simplify Empty _ _ (fun _ => none) (.parse (.inl .start) hf) rfl
  have h := hs.substitute "x" (.parse (.inr .start) hr)
  obtain ⟨hw, he, -, -⟩ := wellFormed_of_compiled h
  refine ⟨_, h, rfl, hw, fun b a e hb => ?_⟩
  cases hfault : e.isStackFault with
  | false => rfl
  | true =>
    cases he b a e hb hfault with
    | unary hm hn _ => exact absurd hm hn
    | binary hm hn _ => exact absurd hm hn
    | @function f _ _ => exact nomatch f

end Formula

end PanelCalc
