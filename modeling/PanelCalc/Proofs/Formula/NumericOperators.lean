import PanelCalc.Proofs.Formula.SimplifySoundness

/-! # Operators that give numbers

An operator may give anything for numbers, but only a number can stand in a
formula again. Simplifying a formula that has a value fails at the first operator
that strays, which is one that gives something else for numbers that are known,
and it fails nowhere else. The built-in operators never stray. -/
namespace PanelCalc

variable {H : Type} {v : Vocabulary H} {numbers : String → Option Float}
  {output output' : List Step} {step : Step} {p : Program} {value : Value H}

/-- For the numbers right before it, the latest first, a step gives a value that is no number. -/
inductive Step.Strays (v : Vocabulary H) : List Step → Step → Value H → Prop
  | unary {output symbol x value} : v.applyUnary .never symbol (.scalar x) = .ok value →
      value.kind ≠ .scalar → Strays v (.literal (.number x) :: output) (.unary symbol) value
  | binary {output symbol x y value} : symbol ≠ "," →
      v.applyBinary .never symbol (.scalar x) (.scalar y) = .ok value → value.kind ≠ .scalar →
      Strays v (.literal (.number y) :: .literal (.number x) :: output) (.binary symbol) value

theorem Value.kind_eq_scalar (h : value.kind = .scalar) : ∃ x, value = .scalar x := by
  cases value with
  | scalar x => exact ⟨x, rfl⟩
  | _ => cases h

/-! ## Vocabularies without such operators -/

/-- Every operator but the comma gives numbers for numbers, if it gives anything. -/
structure Vocabulary.Numeric (v : Vocabulary H) : Prop where
  unary : ∀ e ∈ v.unary, ∀ a x value, e.apply a (.scalar x) = .ok value → value.kind = .scalar
  binary : ∀ e ∈ v.binary, e.symbol ≠ "," → ∀ a x y value,
    e.apply a (.scalar x) (.scalar y) = .ok value → value.kind = .scalar

namespace Vocabulary

theorem numeric_builtin (caseStyle : CaseStyle) : (builtin caseStyle : Vocabulary H).Numeric where
  unary e he a x value h := by
    obtain ⟨name, f, happly⟩ := apply_of_mem_unary he
    rw [happly] at h
    cases h
    rfl
  binary e he hs a x y value h := by
    rcases apply_of_mem_binary he with rfl | ⟨name, f, happly⟩
    · exact absurd rfl hs
    · rw [happly] at h
      cases h
      rfl

/-- An operator that gives something is that of an entry. -/
theorem applyUnary_ok {a : Alignment} {symbol : String} {x : Value H}
    (h : v.applyUnary a symbol x = .ok value) : ∃ e ∈ v.unary, e.apply a x = .ok value := by
  unfold Vocabulary.applyUnary at h
  split at h
  · rename_i e he
    exact ⟨e, List.mem_of_find?_eq_some he, h⟩
  · cases h

theorem applyBinary_ok {a : Alignment} {symbol : String} {x y : Value H}
    (h : v.applyBinary a symbol x y = .ok value) :
    ∃ e ∈ v.binary, e.symbol = symbol ∧ e.apply a x y = .ok value := by
  unfold Vocabulary.applyBinary at h
  split at h
  · rename_i e he
    exact ⟨e, List.mem_of_find?_eq_some he, by simpa using List.find?_some he, h⟩
  · cases h

theorem Numeric.not_strays (hv : v.Numeric) : ¬ Step.Strays v output step value := by
  intro h
  cases h with
  | unary ha hk =>
    obtain ⟨e, he, happly⟩ := applyUnary_ok ha
    exact hk (hv.unary e he _ _ _ happly)
  | binary hs ha hk =>
    obtain ⟨e, he, rfl, happly⟩ := applyBinary_ok ha
    exact hk (hv.binary e he hs _ _ _ _ happly)

end Vocabulary

/-! ## One step -/

namespace Step

theorem ofValue_of_kind_ne (symbol : String) (h : value.kind ≠ .scalar) :
    Step.ofValue symbol value = .error (.typeMismatch symbol [.scalar] value.kind) := by
  cases value with
  | scalar x => exact absurd rfl h
  | _ => rfl

/-- A step that strays cannot be simplified. -/
theorem Strays.simplify (h : Step.Strays v output step value) :
    Step.simplify v numbers output step =
      .error (.typeMismatch step.label [.scalar] value.kind) := by
  cases h with
  | @unary output symbol x value ha hk =>
    simp only [Step.simplify, ha]
    show Step.ofValue symbol value >>= _ = _
    rw [ofValue_of_kind_ne symbol hk]
    rfl
  | @binary output symbol x y value hs ha hk =>
    simp only [Step.simplify, if_neg hs, ha]
    show Step.ofValue symbol value >>= _ = _
    rw [ofValue_of_kind_ne symbol hk]
    rfl

end Step

/-- A step of the formula strays behind what the steps before it are simplified to. -/
def Formula.Strays (f : Formula H) (numbers : String → Option Float) (step : Step)
    (value : Value H) : Prop :=
  ∃ front back before, f.program = front ++ step :: back ∧
    front.foldlM (Step.simplify f.vocabulary numbers) [] = .ok before ∧
    Step.Strays f.vocabulary before step value

theorem Formula.Strays.simplify {f : Formula H} (h : f.Strays numbers step value) :
    f.simplify numbers = .error (.typeMismatch step.label [.scalar] value.kind) := by
  obtain ⟨front, back, before, hf, hfront, hstrays⟩ := h
  have hrun : f.program.foldlM (Step.simplify f.vocabulary numbers) [] =
      .error (.typeMismatch step.label [.scalar] value.kind) := by
    rw [hf, List.foldlM_append, hfront]
    show Step.simplify f.vocabulary numbers before step >>= _ = _
    rw [hstrays.simplify]
    rfl
  unfold Formula.simplify
  rw [hrun]
  rfl

/-! ## Behind steps that can be run -/

variable [HostFunctions H] {b : Bindings H} {a : Alignment} {stack stack' : List (Value H)}

namespace Step

/-- A number that was simplified last is the number on the stack. -/
theorem exists_below {x : Float}
    (h : Program.run v b a (.literal (.number x) :: output).reverse = .ok stack) :
    ∃ below, Program.run v b a output.reverse = .ok below ∧ stack = .scalar x :: below := by
  rw [Program.run_reverse_cons] at h
  obtain ⟨below, hbelow, h⟩ := bind_ok h
  cases h
  exact ⟨below, hbelow, rfl⟩

/-- A step that can be run behind the simplified steps is simplified, or it strays. -/
theorem simplifies_or_strays (numbers : String → Option Float) (hv : v.Steady)
    (hstack : Program.run v b a output.reverse = .ok stack)
    (h : Step.run v b a stack step = .ok stack') :
    (∃ output', Step.simplify v numbers output step = .ok output') ∨
      ∃ value, Step.Strays v output step value := by
  fun_cases Step.simplify v numbers output step with
  | case3 symbol x output =>
    obtain ⟨below, -, rfl⟩ := exists_below hstack
    obtain ⟨value, ha, -⟩ := bind_ok h
    rw [hv.applyUnary a .never] at ha
    by_cases hk : value.kind = .scalar
    · obtain ⟨y, rfl⟩ := Value.kind_eq_scalar hk
      rw [ha]
      exact .inl ⟨_, rfl⟩
    · exact .inr ⟨value, .unary ha hk⟩
  | case5 symbol y x output hs =>
    obtain ⟨below, hbelow, rfl⟩ := exists_below hstack
    obtain ⟨below, -, rfl⟩ := exists_below hbelow
    obtain ⟨value, ha, -⟩ := bind_ok h
    rw [hv.applyBinary a .never] at ha
    by_cases hk : value.kind = .scalar
    · obtain ⟨z, rfl⟩ := Value.kind_eq_scalar hk
      rw [ha]
      exact .inl ⟨_, rfl⟩
    · exact .inr ⟨value, .binary hs ha hk⟩
  | _ => exact .inl ⟨_, rfl⟩

end Step

/-- Steps that can be run behind the simplified steps are simplified, up to one that strays. -/
theorem Program.simplifies_or_strays (hv : v.Steady) (hb : b.Provide numbers)
    (hstack : Program.run v b a output.reverse = .ok stack)
    (h : p.foldlM (Step.run v b a) stack = .ok stack') :
    (∃ output', p.foldlM (Step.simplify v numbers) output = .ok output') ∨
      ∃ front step back before value, p = front ++ step :: back ∧
        front.foldlM (Step.simplify v numbers) output = .ok before ∧
        Step.Strays v before step value := by
  induction p generalizing output stack with
  | nil => exact .inl ⟨output, rfl⟩
  | cons step p ih =>
    obtain ⟨next, hrun, h⟩ := bind_ok h
    rcases Step.simplifies_or_strays numbers hv hstack hrun with
      ⟨output', hs⟩ | ⟨value, hstrays⟩
    · have hnext : Program.run v b a output'.reverse = .ok next := by
        rw [(Step.simplifies_of_ok hs).run hv hb, hstack]
        exact hrun
      have hcons : ∀ q : Program, (step :: q).foldlM (Step.simplify v numbers) output =
          q.foldlM (Step.simplify v numbers) output' := by
        intro q
        rw [List.foldlM_cons, hs]
        rfl
      rcases ih hnext h with ⟨last, hlast⟩ | ⟨front, other, back, before, value, rfl, hfront, hother⟩
      · exact .inl ⟨last, (hcons p).trans hlast⟩
      · exact .inr
          ⟨step :: front, other, back, before, value, rfl, (hcons front).trans hfront, hother⟩
    · exact .inr ⟨[], step, p, output, value, rfl, rfl, hstrays⟩

/-! ## Formulas with a value -/

namespace Formula

/-- **A formula with a value is simplified unless an operator strays.** If one does,
simplifying fails and names the operator and the kind of value that it gave. In a
vocabulary whose operators give numbers for numbers none does. -/
theorem simplify_of_evaluate {f : Formula H} {x : Value H} (hv : f.vocabulary.Steady)
    (hb : b.Provide numbers) (h : f.evaluate b a = .ok x) :
    ((∃ f', f.simplify numbers = .ok f') ↔ ¬ ∃ step value, f.Strays numbers step value) ∧
    (∀ step value, f.Strays numbers step value →
      f.simplify numbers = .error (.typeMismatch step.label [.scalar] value.kind)) ∧
    (f.vocabulary.Numeric → ∃ f', f.simplify numbers = .ok f') := by
  have hsimplify : (∃ f', f.simplify numbers = .ok f') ∨
      ∃ step value, f.Strays numbers step value := by
    have hstart : Program.run f.vocabulary b a ([] : List Step).reverse = .ok [] := rfl
    rcases Program.simplifies_or_strays hv hb hstart (evaluate_eq_ok.mp h) with
      ⟨output, hs⟩ | ⟨front, step, back, before, value, hf, hfront, hstrays⟩
    · exact .inl ⟨{ f with program := output.reverse }, by unfold Formula.simplify; rw [hs]; rfl⟩
    · exact .inr ⟨step, value, front, back, before, hf, hfront, hstrays⟩
  refine ⟨⟨?_, fun hnone => hsimplify.resolve_right hnone⟩, fun _ _ => Strays.simplify,
    fun hnumeric => hsimplify.resolve_right ?_⟩
  · rintro ⟨f', hf'⟩ ⟨step, value, hstrays⟩
    rw [hstrays.simplify] at hf'
    cases hf'
  · rintro ⟨step, value, front, back, before, -, -, hstrays⟩
    exact hnumeric.not_strays hstrays

/-- An operator that tells the kind of its operand. -/
def kindOperator : Registration Empty := .unary "kind" 7 fun _ x => .ok (.text x.kind.name)

/-- The built-in entries and this operator. -/
def kindVocabulary : Vocabulary Empty :=
  let v := Vocabulary.builtin .upper
  { v with unary := v.unary ++ [⟨"kind", 7, fun _ x => .ok (.text x.kind.name)⟩] }

/-- What `kind(1)` is read as. -/
def kindOfOne : Formula Empty := ⟨[.literal (.number 1), .unary "kind"], kindVocabulary⟩

theorem register_kindOperator :
    (Vocabulary.builtin .upper).register kindOperator = .ok kindVocabulary := rfl

theorem steady_kindVocabulary : kindVocabulary.Steady :=
  (Vocabulary.steady_builtin .upper).register (r := kindOperator) (fun _ _ _ => rfl)
    register_kindOperator

/-- The text that `kind(1)` evaluates to cannot stand in a formula, but the value of `1+2` can. -/
theorem simplify_of_evaluate_kind :
    kindOfOne.simplify (fun _ => none) = .error (.typeMismatch "kind" [.scalar] .text) ∧
      ∃ f', Formula.simplify (H := Empty) ⟨[.literal (.number 1), .literal (.number 2),
        .binary "+"], .builtin .upper⟩ (fun _ => none) = .ok f' := by
  have hb : Bindings.Provide (H := Empty) ⟨[]⟩ fun _ => none := nofun
  obtain ⟨-, hstrays, -⟩ := simplify_of_evaluate (f := kindOfOne) (a := .never)
    steady_kindVocabulary hb rfl
  obtain ⟨-, -, hnumeric⟩ := simplify_of_evaluate (f := ⟨[.literal (.number 1),
    .literal (.number 2), .binary "+"], .builtin .upper⟩) (a := .never)
    (Vocabulary.steady_builtin .upper) hb rfl
  refine ⟨hstrays (.unary "kind") (.text "scalar") ?_, hnumeric (Vocabulary.numeric_builtin .upper)⟩
  exact ⟨[.literal (.number 1)], [], _, rfl, rfl, .unary rfl nofun⟩

/-- A formula with a value that is not simplified: `kind(1)`, in a vocabulary with
one more operator than those that are built in. -/
theorem simplify_kindOfOne_ne_ok :
    (Vocabulary.builtin .upper).Reachable kindVocabulary ∧ kindVocabulary.Steady ∧
      Formula.parse kindVocabulary "kind(1)" = .ok kindOfOne ∧
      (Bindings.mk [] : Bindings Empty).Provide (fun _ => none) ∧
      kindOfOne.evaluate ⟨[]⟩ .never = .ok (.text "scalar") ∧
      ¬ ∃ f', kindOfOne.simplify (fun _ => none) = .ok f' := by
  refine ⟨.register kindOperator .start register_kindOperator, steady_kindVocabulary,
    Formula.parse_of_read (by decide +kernel), nofun, rfl, ?_⟩
  rintro ⟨f', hf'⟩
  cases hf'

end Formula

end PanelCalc
