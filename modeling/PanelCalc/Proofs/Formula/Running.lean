import PanelCalc.Formula.Eval
import PanelCalc.Proofs.Evaluation.Answers
import PanelCalc.Vocabulary.Builtin

/-! # Running programs

A step takes its operands from the top of the stack and leaves what lies below
them alone, and it reads the bindings at its own name only. -/
namespace PanelCalc

variable {H : Type} [HostFunctions H]

/-- What a program leaves on an empty stack. -/
def Program.run (v : Vocabulary H) (b : Bindings H) (a : Alignment) (p : Program) :
    Except EvalError (List (Value H)) :=
  p.foldlM (Step.run v b a) []

variable {v : Vocabulary H} {b b' : Bindings H} {a : Alignment} {p q : Program} {step : Step}
  {stack stack' : List (Value H)}

theorem Program.run_append (p q : Program) :
    Program.run v b a (p ++ q) = Program.run v b a p >>= (q.foldlM (Step.run v b a) ·) :=
  List.foldlM_append

theorem Program.run_reverse_cons {output : List Step} :
    Program.run v b a (step :: output).reverse =
      Program.run v b a output.reverse >>= (Step.run v b a · step) := by
  rw [List.reverse_cons, run_append]
  congr 1
  funext stack
  exact bind_pure _

/-- A formula has a value if its program leaves this value and nothing else. -/
theorem Formula.evaluate_eq_ok {f : Formula H} {x : Value H} :
    f.evaluate b a = .ok x ↔ f.program.run f.vocabulary b a = .ok [x] := by
  unfold Formula.evaluate Program.run
  constructor
  · intro h
    obtain ⟨stack, hs, h⟩ := bind_ok h
    rw [hs]
    split at h
    · cases h
      rfl
    · cases h
  · intro h
    rw [h]
    rfl

/-- A step does the same on top of other values. -/
theorem Step.run_below (h : Step.run v b a stack step = .ok stack') (below : List (Value H)) :
    Step.run v b a (stack ++ below) step = .ok (stack' ++ below) := by
  cases step with
  | literal value =>
    cases h
    rfl
  | var name =>
    obtain ⟨x, hx, h⟩ := bind_ok h
    cases h
    simp only [Step.run, hx]
    rfl
  | unary symbol =>
    cases stack with
    | nil => cases h
    | cons x stack =>
      obtain ⟨y, hy, h⟩ := bind_ok h
      cases h
      simp only [Step.run, List.cons_append, hy]
      rfl
  | binary symbol =>
    rcases stack with _ | ⟨y, _ | ⟨x, stack⟩⟩
    · cases h
    · cases h
    · obtain ⟨z, hz, h⟩ := bind_ok h
      cases h
      simp only [Step.run, List.cons_append, hz]
      rfl
  | call =>
    rcases stack with _ | ⟨arguments, _ | ⟨callee, stack⟩⟩
    · cases h
    · cases h
    · obtain ⟨z, hz, h⟩ := bind_ok h
      cases h
      simp only [Step.run, List.cons_append, hz]
      rfl

/-- A program leaves what lay on the stack before it. -/
theorem Program.foldlM_below (h : p.foldlM (Step.run v b a) stack = .ok stack')
    (below : List (Value H)) :
    p.foldlM (Step.run v b a) (stack ++ below) = .ok (stack' ++ below) := by
  induction p generalizing stack with
  | nil =>
    cases h
    rfl
  | cons step p ih =>
    obtain ⟨next, hs, h⟩ := bind_ok h
    rw [List.foldlM_cons, Step.run_below hs]
    exact ih h

/-- A step that is no name, or that of a name with the same value, does the same. -/
theorem Step.run_congr (h : ∀ name, step = .var name → b.get? name = b'.get? name) :
    Step.run v b a stack step = Step.run v b' a stack step := by
  cases step with
  | var name => simp only [Step.run, Vocabulary.resolve, h name rfl]
  | _ => rcases stack with _ | ⟨y, _ | ⟨x, stack⟩⟩ <;> rfl

/-- Bindings matter at the names that a program mentions. -/
theorem Program.foldlM_congr (h : ∀ name, .var name ∈ p → b.get? name = b'.get? name) :
    p.foldlM (Step.run v b a) stack = p.foldlM (Step.run v b' a) stack :=
  PanelCalc.foldlM_congr (fun _ hm _ => Step.run_congr fun name hn => h name (hn ▸ hm)) stack

/-- A program that comes to its end has carried out every step. -/
theorem Program.exists_run (h : p.foldlM (Step.run v b a) stack = .ok stack') (hm : step ∈ p) :
    ∃ before after, Step.run v b a before step = .ok after := by
  induction p generalizing stack with
  | nil => cases hm
  | cons first p ih =>
    obtain ⟨next, hs, h⟩ := bind_ok h
    rcases List.mem_cons.mp hm with rfl | hm
    · exact ⟨stack, next, hs⟩
    · exact ih h hm

/-- A formula has a value only where all its names but those of functions are bound. -/
theorem Formula.isSome_of_evaluate {f : Formula H} {x : Value H} (h : f.evaluate b a = .ok x)
    {name : String} (hm : .var name ∈ f.program) (hf : f.vocabulary.isFunction name = false) :
    (b.get? name).isSome := by
  obtain ⟨before, after, hs⟩ := Program.exists_run (evaluate_eq_ok.mp h) hm
  obtain ⟨y, hy, -⟩ := bind_ok hs
  unfold Vocabulary.resolve at hy
  split at hy
  · simp [*]
  · simp [Vocabulary.isFunction, *] at hf
  · cases hy

/-- **Programs in place of names.** Where a program has a value, other steps do
the same with the program in place of a name as with the name bound to the value. -/
theorem Program.foldlM_substituted {name : String} {r : Program} {x : Value H}
    (hr : r.run v b a = .ok [x]) (p : Program) :
    (p.flatMap fun step => if step = .var name then r else [step]).foldlM (Step.run v b a) stack =
      p.foldlM (Step.run v (b.insert name x) a) stack := by
  induction p generalizing stack with
  | nil => rfl
  | cons step p ih =>
    have hs : (if step = .var name then r else [step]).foldlM (Step.run v b a) stack =
        Step.run v (b.insert name x) a stack step := by
      by_cases hn : step = .var name
      · subst hn
        rw [if_pos rfl, ← List.nil_append stack, foldlM_below hr stack]
        simp only [Step.run, Vocabulary.resolve, Bindings.get?_insert_self]
        rfl
      · have hc : Step.run v (b.insert name x) a stack step = Step.run v b a stack step :=
          Step.run_congr fun n h => b.get?_insert_of_ne x fun he => hn (by rw [h, he])
        rw [if_neg hn, hc]
        exact bind_pure _
    rw [List.flatMap_cons, List.foldlM_append, List.foldlM_cons, hs]
    congr 1
    funext next
    exact ih

/-- **A formula in place of a name** does the same as the name bound to the value
of the formula, in a result as well as in an error. The formula may mention the
name itself, and its value may be an argument list or a function. -/
theorem Formula.evaluate_substitute {f r : Formula H} (hv : r.vocabulary = f.vocabulary)
    {x : Value H} (hr : r.evaluate b a = .ok x) (name : String) :
    (f.substitute name r).evaluate b a = f.evaluate (b.insert name x) a := by
  have hrun : r.program.run f.vocabulary b a = .ok [x] := hv ▸ evaluate_eq_ok.mp hr
  have hsub : (f.substitute name r).program.foldlM (Step.run f.vocabulary b a) [] =
      f.program.foldlM (Step.run f.vocabulary (b.insert name x) a) [] :=
    Program.foldlM_substituted hrun f.program
  unfold evaluate
  rw [← hsub]
  rfl

/-- What `(x, 2, 3)` is read as. -/
def argumentsFromX : Formula Empty where
  program :=
    [.var "x", .literal (.number 2), .binary ",", .literal (.number 3), .binary ","]
  vocabulary := .builtin .upper

/-- All arguments of a call at once, the first of them the name itself: `If(x)`. -/
theorem Formula.evaluate_substitute_arguments :
    argumentsFromX.evaluate ⟨[("x", .scalar 1)]⟩ .never =
        .ok (.list [.scalar 1, .scalar 2, .scalar 3]) ∧
      (Formula.substitute ⟨[.var "If", .var "x", .call], .builtin .upper⟩ "x"
        argumentsFromX).evaluate ⟨[("x", .scalar 1)]⟩ .never = .ok (.scalar 2) := by
  have hlist : argumentsFromX.evaluate ⟨[("x", .scalar 1)]⟩ .never =
      .ok (.list [.scalar 1, .scalar 2, .scalar 3]) := rfl
  have hselect : Cell.select 1 2 3 = 2 := by decide
  have hsub := evaluate_substitute (f := ⟨[.var "If", .var "x", .call], .builtin .upper⟩)
    (r := argumentsFromX) rfl hlist "x"
  refine ⟨hlist, hsub.trans ?_⟩
  rw [← hselect]
  rfl

end PanelCalc
