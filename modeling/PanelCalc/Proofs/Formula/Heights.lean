import PanelCalc.Proofs.Formula.SimplifySoundness
import PanelCalc.Proofs.Syntax.Tree

/-! # Heights of the stack

How high the stack is after a program depends on the steps alone, not on their
values. A program is well formed if no step finds too few values and one value
is left at the end. These programs are the postorders of trees, and carrying
operators out ahead of time keeps them well formed. -/
namespace PanelCalc

/-- The number of values that a step takes from the stack. -/
def Step.takes : Step → Nat
  | literal _ | var _ => 0
  | unary _ => 1
  | binary _ | call => 2

/-- The height of the stack after a step that finds enough values. -/
def Step.height? (height : Nat) (step : Step) : Option Nat :=
  if step.takes ≤ height then some (height - step.takes + 1) else none

/-- The height of the stack after a program, if no step finds too few values. -/
def Program.height? (p : Program) : Option Nat := p.foldlM Step.height? 0

/-- No step finds too few values, and one value is left at the end. -/
def Program.WellFormed (p : Program) : Prop := p.height? = some 1

instance (p : Program) : Decidable p.WellFormed :=
  inferInstanceAs (Decidable (p.height? = some 1))

namespace Tree

/-- A tree leaves one value on top of whatever was there. -/
theorem foldlM_height_postorder (t : Tree) (height : Nat) :
    t.postorder.foldlM Step.height? height = some (height + 1) := by
  induction t generalizing height with
  | literal _ | name _ => rfl
  | unary s x ih => simp [postorder, ih, Step.height?, Step.takes]
  | binary s x y ihx ihy => simp [postorder, ihx, ihy, Step.height?, Step.takes]
  | call callee x ihc ihx => simp [postorder, ihc, ihx, Step.height?, Step.takes]

theorem wellFormed_postorder (t : Tree) : t.postorder.WellFormed :=
  t.foldlM_height_postorder 0

end Tree

/-! ## The tree of a program -/

/-- A step finds as many trees as values. -/
theorem Step.length_grow (ts : List Tree) (step : Step) :
    (Step.grow ts step).map List.length = Step.height? ts.length step := by
  cases step with
  | literal value | var name => simp [grow, height?, takes]
  | unary symbol => cases ts <;> simp [grow, height?, takes]
  | binary symbol | call => rcases ts with _ | ⟨y, _ | ⟨x, ts⟩⟩ <;> simp [grow, height?, takes]

namespace Program

variable {p : Program} {ts us : List Tree}

theorem length_grow (p : Program) (ts : List Tree) :
    (p.foldlM Step.grow ts).map List.length = p.foldlM Step.height? ts.length := by
  induction p generalizing ts with
  | nil => rfl
  | cons step p ih =>
    rw [List.foldlM_cons, List.foldlM_cons, ← Step.length_grow]
    cases Step.grow ts step with
    | none => rfl
    | some us => exact ih us

/-- The trees that a program grows spell the program. -/
theorem flatMap_postorder_grow (h : p.foldlM Step.grow ts = some us) :
    us.reverse.flatMap Tree.postorder = ts.reverse.flatMap Tree.postorder ++ p := by
  induction p generalizing ts with
  | nil =>
    cases h
    exact (List.append_nil _).symm
  | cons step p ih =>
    rw [List.foldlM_cons] at h
    obtain ⟨next, hs, h⟩ := Option.bind_eq_some_iff.mp h
    have hnext : next.reverse.flatMap Tree.postorder =
        ts.reverse.flatMap Tree.postorder ++ [step] := by
      fun_cases Step.grow ts step with
      | case6 => simp_all [Step.grow]
      | _ =>
        cases hs
        simp [Tree.postorder]
    rw [ih h, hnext]
    simp

/-- **The well-formed programs are the postorders of trees.** -/
theorem wellFormed_iff : p.WellFormed ↔ ∃ t : Tree, p = t.postorder := by
  constructor
  · intro h
    have hlen : (p.foldlM Step.grow []).map List.length = some 1 := (length_grow p []).trans h
    obtain ⟨ts, hts, hone⟩ := Option.map_eq_some_iff.mp hlen
    obtain ⟨t, rfl⟩ := List.length_eq_one_iff.mp hone
    exact ⟨t, by simpa using (flatMap_postorder_grow hts).symm⟩
  · rintro ⟨t, rfl⟩
    exact t.wellFormed_postorder

theorem height?_append (p q : Program) :
    Program.height? (p ++ q) = p.height? >>= (q.foldlM Step.height? ·) :=
  List.foldlM_append

end Program

/-! ## Simplified programs -/

section Simplify

variable {H : Type} {v : Vocabulary H} {numbers : String → Option Float}
  {output output' : List Step} {step : Step} {p : Program}

theorem Program.height?_reverse_cons :
    Program.height? (step :: output).reverse =
      Program.height? output.reverse >>= (Step.height? · step) := by
  rw [List.reverse_cons, height?_append]
  congr 1
  funext height
  exact bind_pure _

/-- A simplified step leaves as many values as the step itself would have left. -/
theorem Step.Simplifies.height? (h : Step.Simplifies v numbers output step output') :
    Program.height? output'.reverse =
      Program.height? output.reverse >>= (Step.height? · step) := by
  cases h with
  | kept => exact Program.height?_reverse_cons
  | known _ => exact Program.height?_reverse_cons
  | @unary output _ _ _ _ =>
    simp only [Program.height?_reverse_cons]
    cases Program.height? output.reverse with
    | none => rfl
    | some height => simp [Step.height?, Step.takes]
  | @binary output _ _ _ _ _ =>
    simp only [Program.height?_reverse_cons]
    cases Program.height? output.reverse with
    | none => rfl
    | some height => simp [Step.height?, Step.takes]

theorem Program.height?_simplified : ∀ {output output'},
    p.foldlM (Step.simplify v numbers) output = .ok output' →
      Program.height? output'.reverse = Program.height? (output.reverse ++ p) := by
  induction p with
  | nil =>
    intro output output' h
    cases h
    rw [List.append_nil]
  | cons step p ih =>
    intro output output' h
    obtain ⟨next, hs, h⟩ := bind_ok h
    rw [ih h, height?_append, height?_append, (Step.simplifies_of_ok hs).height?, bind_assoc]
    rfl

theorem Formula.vocabulary_simplify {f f' : Formula H} (h : f.simplify numbers = .ok f') :
    f'.vocabulary = f.vocabulary := by
  obtain ⟨output, -, h⟩ := bind_ok h
  cases h
  rfl

/-- **Simplifying keeps programs well formed.** -/
theorem Formula.wellFormed_simplify {f f' : Formula H} (h : f.simplify numbers = .ok f')
    (hf : f.program.WellFormed) : f'.program.WellFormed := by
  obtain ⟨output, hs, h⟩ := bind_ok h
  cases h
  exact (Program.height?_simplified hs).trans hf

end Simplify

end PanelCalc
