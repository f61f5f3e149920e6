import PanelCalc.Formula.Simplify
import PanelCalc.Proofs.Formula.Running
import PanelCalc.Proofs.Vocabulary.BuiltinOperators
import PanelCalc.Proofs.Vocabulary.Reachable

/-! # Simplifying keeps the meaning

The simplified steps are a program of their own at every moment, and this
program leaves the same stack, or fails in the same way, as the steps that have
been simplified. Operators carried out ahead of time take no alignment into
account, so none that is used may depend on it. -/
namespace PanelCalc

variable {H : Type}

/-- No operator depends on the alignment, apart from those that are built in. -/
structure Vocabulary.Steady (v : Vocabulary H) : Prop where
  unary : ∀ e ∈ v.unary, e ∈ (Vocabulary.builtin v.caseStyle).unary ∨
    ∀ a a' x, e.apply a x = e.apply a' x
  binary : ∀ e ∈ v.binary, e ∈ (Vocabulary.builtin v.caseStyle).binary ∨
    ∀ a a' x y, e.apply a x y = e.apply a' x y

/-- What is registered does not depend on the alignment. A function may, since
calls are never carried out ahead of time. -/
def Registration.Steady : Registration H → Prop
  | .unary _ _ apply => ∀ a a' x, apply a x = apply a' x
  | .binary _ _ apply => ∀ a a' x y, apply a x y = apply a' x y
  | .function _ _ _ => True

/-- Every name with a number is bound to it. -/
def Bindings.Provide (b : Bindings H) (numbers : String → Option Float) : Prop :=
  ∀ name x, numbers name = some x → b.get? name = some (.scalar x)

namespace Vocabulary

variable {v v' : Vocabulary H}

theorem steady_builtin (caseStyle : CaseStyle) : (builtin caseStyle : Vocabulary H).Steady :=
  ⟨fun _ h => .inl h, fun _ h => .inl h⟩

theorem Steady.register (hv : v.Steady) {r : Registration H} (hr : r.Steady)
    (h : v.register r = .ok v') : v'.Steady := by
  cases r with
  | unary name priority apply =>
    obtain ⟨-, -, rfl⟩ := registerUnary_ok h
    exact ⟨List.forall_mem_append.mpr ⟨hv.unary, List.forall_mem_singleton.mpr (.inr hr)⟩,
      hv.binary⟩
  | binary name priority apply =>
    obtain ⟨-, -, rfl⟩ := registerBinary_ok h
    exact ⟨hv.unary,
      List.forall_mem_append.mpr ⟨hv.binary, List.forall_mem_singleton.mpr (.inr hr)⟩⟩
  | function name arity body =>
    obtain ⟨-, -, rfl⟩ := registerFunction_ok h
    exact ⟨hv.unary, hv.binary⟩

/-- Between scalars there is nothing to align. -/
theorem apply_scalar_of_mem_builtin_unary {caseStyle : CaseStyle} {e : UnaryEntry H}
    (h : e ∈ (builtin caseStyle).unary) (a a' : Alignment) (x : Float) :
    e.apply a (.scalar x) = e.apply a' (.scalar x) := by
  obtain ⟨name, f, he⟩ := apply_of_mem_unary h
  rw [he]
  rfl

theorem apply_scalar_of_mem_builtin_binary {caseStyle : CaseStyle} {e : BinaryEntry H}
    (h : e ∈ (builtin caseStyle).binary) (a a' : Alignment) (x y : Float) :
    e.apply a (.scalar x) (.scalar y) = e.apply a' (.scalar x) (.scalar y) := by
  rcases apply_of_mem_binary h with rfl | ⟨name, f, he⟩
  · rfl
  · rw [he]
    rfl

theorem Steady.applyUnary (hv : v.Steady) (a a' : Alignment) (symbol : String) (x : Float) :
    v.applyUnary a symbol (.scalar x) = v.applyUnary a' symbol (.scalar x) := by
  unfold Vocabulary.applyUnary
  cases h : v.unary? symbol with
  | none => rfl
  | some e =>
    rcases hv.unary e (List.mem_of_find?_eq_some h) with hb | hb
    · exact apply_scalar_of_mem_builtin_unary hb a a' x
    · exact hb a a' (.scalar x)

theorem Steady.applyBinary (hv : v.Steady) (a a' : Alignment) (symbol : String) (x y : Float) :
    v.applyBinary a symbol (.scalar x) (.scalar y) =
      v.applyBinary a' symbol (.scalar x) (.scalar y) := by
  unfold Vocabulary.applyBinary
  cases h : v.binary? symbol with
  | none => rfl
  | some e =>
    rcases hv.binary e (List.mem_of_find?_eq_some h) with hb | hb
    · exact apply_scalar_of_mem_builtin_binary hb a a' x y
    · exact hb a a' (.scalar x) (.scalar y)

end Vocabulary

theorem Step.ofValue_ok {symbol : String} {value : Value H} {folded : Step}
    (h : Step.ofValue symbol value = .ok folded) :
    ∃ x, value = .scalar x ∧ folded = .literal (.number x) := by
  cases value with
  | scalar x => cases h; exact ⟨x, rfl, rfl⟩
  | _ => cases h

/-- What one more step makes of the simplified steps. -/
inductive Step.Simplifies (v : Vocabulary H) (numbers : String → Option Float) :
    List Step → Step → List Step → Prop
  | kept {output step} : Simplifies v numbers output step (step :: output)
  | known {output name x} : numbers name = some x →
      Simplifies v numbers output (.var name) (.literal (.number x) :: output)
  | unary {output symbol x y} : v.applyUnary .never symbol (.scalar x) = .ok (.scalar y) →
      Simplifies v numbers (.literal (.number x) :: output) (.unary symbol)
        (.literal (.number y) :: output)
  | binary {output symbol x y z} :
      v.applyBinary .never symbol (.scalar x) (.scalar y) = .ok (.scalar z) →
      Simplifies v numbers (.literal (.number y) :: .literal (.number x) :: output)
        (.binary symbol) (.literal (.number z) :: output)

section Step

variable {v : Vocabulary H} {numbers : String → Option Float} {output output' : List Step}
  {step : Step}

theorem Step.simplifies_of_ok (h : Step.simplify v numbers output step = .ok output') :
    Step.Simplifies v numbers output step output' := by
  fun_cases Step.simplify v numbers output step with
  | case1 name _ x hn =>
    simp only [simplify, hn] at h
    cases h
    exact .known hn
  | case2 name _ hn =>
    simp only [simplify, hn] at h
    cases h
    exact .kept
  | case3 symbol x output =>
    simp only [simplify] at h
    obtain ⟨value, ha, h⟩ := bind_ok h
    obtain ⟨folded, hf, h⟩ := bind_ok h
    obtain ⟨y, rfl, rfl⟩ := Step.ofValue_ok hf
    cases h
    exact .unary ha
  | case4 y x output =>
    cases h
    exact .kept
  | case5 symbol y x output hs =>
    simp only [simplify, if_neg hs] at h
    obtain ⟨value, ha, h⟩ := bind_ok h
    obtain ⟨folded, hf, h⟩ := bind_ok h
    obtain ⟨z, rfl, rfl⟩ := Step.ofValue_ok hf
    cases h
    exact .binary ha
  | case6 hvar hunary hbinary =>
    simp only [simplify] at h
    cases h
    exact .kept

variable [HostFunctions H] {b : Bindings H} {a : Alignment}

/-- A simplified step leaves what the step itself would have left. -/
theorem Step.Simplifies.run (hv : v.Steady) (hb : b.Provide numbers)
    (h : Step.Simplifies v numbers output step output') :
    Program.run v b a output'.reverse =
      Program.run v b a output.reverse >>= (Step.run v b a · step) := by
  cases h with
  | kept => exact Program.run_reverse_cons
  | known hn =>
    rw [Program.run_reverse_cons]
    congr 1
    funext stack
    simp only [Step.run, Vocabulary.resolve, hb _ _ hn, Literal.value]
    rfl
  | @unary output symbol x y ha =>
    rw [hv.applyUnary .never a] at ha
    rw [Program.run_reverse_cons, Program.run_reverse_cons]
    cases Program.run v b a output.reverse with
    | error e => rfl
    | ok stack =>
      show _ = Step.run v b a (.scalar x :: stack) (.unary symbol)
      simp only [Step.run, ha]
      rfl
  | @binary output symbol x y z ha =>
    rw [hv.applyBinary .never a] at ha
    rw [Program.run_reverse_cons, Program.run_reverse_cons, Program.run_reverse_cons]
    cases Program.run v b a output.reverse with
    | error e => rfl
    | ok stack =>
      show _ = Step.run v b a (.scalar y :: .scalar x :: stack) (.binary symbol)
      simp only [Step.run, ha]
      rfl

/-- The simplified steps leave what the steps themselves leave. -/
theorem Program.run_simplified (hv : v.Steady) (hb : b.Provide numbers) {p : Program} :
    ∀ {output output'}, p.foldlM (Step.simplify v numbers) output = .ok output' →
      Program.run v b a output'.reverse =
        Program.run v b a output.reverse >>= (p.foldlM (Step.run v b a) ·) := by
  induction p with
  | nil =>
    intro output output' h
    cases h
    exact (bind_pure _).symm
  | cons step p ih =>
    intro output output' h
    obtain ⟨next, hs, h⟩ := bind_ok h
    rw [ih h, (Step.simplifies_of_ok hs).run hv hb, bind_assoc]
    rfl

end Step

variable [HostFunctions H]

/-- **Simplifying keeps the meaning**, the value as well as the error. -/
theorem Formula.evaluate_simplify {f f' : Formula H} {numbers : String → Option Float}
    {b : Bindings H} (hv : f.vocabulary.Steady) (hb : b.Provide numbers)
    (h : f.simplify numbers = .ok f') (a : Alignment) : f'.evaluate b a = f.evaluate b a := by
  obtain ⟨output, hf, h⟩ := bind_ok h
  cases h
  have hrun := Program.run_simplified (a := a) hv hb hf
  unfold Formula.evaluate
  rw [show output.reverse.foldlM (Step.run f.vocabulary b a) [] = _ from hrun]
  rfl

/-- A registered operator on a number known by name: the half of `x` times `y`. -/
theorem Formula.evaluate_simplify_half : ∃ v : Vocabulary Empty,
    (Vocabulary.builtin .upper).register
        (.unary "Half" 7 fun _ => Vocabulary.cellUnary "Half" (· / 2) .never) = .ok v ∧
      Formula.evaluate ⟨[.literal (.number (3 / 2)), .var "y", .binary "*"], v⟩
          ⟨[("x", .scalar 3), ("y", .scalar 4)]⟩ .never =
        Formula.evaluate ⟨[.var "x", .unary "Half", .var "y", .binary "*"], v⟩
          ⟨[("x", .scalar 3), ("y", .scalar 4)]⟩ .never := by
  have hb : Bindings.Provide (H := Empty) ⟨[("x", .scalar 3), ("y", .scalar 4)]⟩
      (fun name => if name = "x" then some 3 else none) := by
    intro name x h
    by_cases hx : name = "x"
    · simp only [hx, if_true, Option.some.injEq] at h
      rw [hx, ← h]
      rfl
    · simp only [hx, if_false, reduceCtorEq] at h
  refine ⟨_, rfl, evaluate_simplify ?_ hb rfl .never⟩
  exact (Vocabulary.steady_builtin .upper).register
    (r := .unary "Half" 7 fun _ => Vocabulary.cellUnary "Half" (· / 2) .never)
    (fun _ _ _ => rfl) rfl

end PanelCalc
