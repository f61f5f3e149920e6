import PanelCalc.Proofs.Formula.Heights

/-! # Normal forms

A program is normal if nothing in it is left to carry out: no name has a number,
no number comes right before an operator of one operand, and no two numbers come
right before an operator of two, the comma apart. Simplified programs are normal,
and normal programs are left as they are. -/
namespace PanelCalc

variable {H : Type} {v : Vocabulary H} {numbers : String → Option Float}
  {output output' : List Step} {step : Step} {p q : Program}

/-- Nothing is left to carry out. -/
structure Program.Normal (numbers : String → Option Float) (p : Program) : Prop where
  name : ∀ n, .var n ∈ p → numbers n = none
  unary : ∀ x symbol, ¬ [.literal (.number x), .unary symbol] <:+: p
  binary : ∀ x y symbol, symbol ≠ "," →
    ¬ [.literal (.number x), .literal (.number y), .binary symbol] <:+: p

/-- A step has nothing to carry out on the steps before it, the latest first. -/
structure Step.Rests (numbers : String → Option Float) (output : List Step) (step : Step) :
    Prop where
  name : ∀ n, step = .var n → numbers n = none
  unary : ∀ x symbol, step = .unary symbol → ¬ [.literal (.number x)] <+: output
  binary : ∀ x y symbol, step = .binary symbol → symbol ≠ "," →
    ¬ [.literal (.number y), .literal (.number x)] <+: output

/-! ## One step -/

theorem Step.rests_literal (value : Literal) : (Step.literal value).Rests numbers output :=
  ⟨nofun, nofun, nofun⟩

/-- A step with nothing to carry out stays where it is. -/
theorem Step.Rests.simplify (h : step.Rests numbers output) :
    Step.simplify v numbers output step = .ok (step :: output) := by
  fun_cases Step.simplify v numbers output step with
  | case1 name output x hn =>
    rw [h.name name rfl] at hn
    cases hn
  | case2 => rfl
  | case3 symbol x output => exact absurd (List.prefix_append [_] output) (h.unary x symbol rfl)
  | case4 => rfl
  | case5 symbol y x output hs =>
    exact absurd (List.prefix_append [_, _] output) (h.binary x y symbol rfl hs)
  | case6 => rfl

/-- A step stays where it is, or a number takes its place and that of its operands. -/
theorem Step.rests_or_number (h : Step.simplify v numbers output step = .ok output') :
    step.Rests numbers output ∧ output' = step :: output ∨
      ∃ x rest, output' = .literal (.number x) :: rest ∧ rest <:+ output := by
  fun_cases Step.simplify v numbers output step with
  | case1 name output x hn =>
    simp only [simplify, hn] at h
    cases h
    exact .inr ⟨x, output, rfl, List.suffix_refl _⟩
  | case2 name output hn =>
    simp only [simplify, hn] at h
    cases h
    refine .inl ⟨⟨?_, ?_, ?_⟩, rfl⟩
    · rintro n ⟨⟩
      exact hn
    · rintro x symbol ⟨⟩
    · rintro x y symbol ⟨⟩
  | case3 symbol x output =>
    simp only [simplify] at h
    obtain ⟨value, -, h⟩ := bind_ok h
    obtain ⟨folded, hf, h⟩ := bind_ok h
    obtain ⟨y, -, rfl⟩ := Step.ofValue_ok hf
    cases h
    exact .inr ⟨y, output, rfl, List.suffix_cons _ _⟩
  | case4 y x output =>
    cases h
    refine .inl ⟨⟨?_, ?_, ?_⟩, rfl⟩
    · rintro n ⟨⟩
    · rintro x symbol ⟨⟩
    · rintro x y symbol ⟨⟩ hne
      exact absurd rfl hne
  | case5 symbol y x output hs =>
    simp only [simplify, if_neg hs] at h
    obtain ⟨value, -, h⟩ := bind_ok h
    obtain ⟨folded, hf, h⟩ := bind_ok h
    obtain ⟨z, -, rfl⟩ := Step.ofValue_ok hf
    cases h
    exact .inr ⟨z, output, rfl, (List.suffix_cons _ _).trans (List.suffix_cons _ _)⟩
  | case6 _ _ hname hunary hbinary =>
    simp only [simplify] at h
    cases h
    refine .inl ⟨⟨fun n hn => (hname n hn).elim, ?_, ?_⟩, rfl⟩
    · rintro x symbol hs ⟨rest, rfl⟩
      exact hunary symbol x rest hs rfl
    · rintro x y symbol hs - ⟨rest, rfl⟩
      exact hbinary symbol y x rest hs rfl

/-! ## Programs -/

/-- A phrase at the end of a program ends with the last step. -/
theorem infix_reverse_cons {last : Step} :
    q ++ [last] <:+: (step :: output).reverse ↔
      (last = step ∧ q.reverse <+: output) ∨ q ++ [last] <:+: output.reverse := by
  have hq : q ++ [last] = (last :: q.reverse).reverse := by simp
  rw [hq, List.reverse_infix, List.reverse_infix, List.infix_cons_iff, List.cons_prefix_cons]

namespace Program

theorem Normal.of_infix (h : p.Normal numbers) (hq : q <:+: p) : q.Normal numbers where
  name n hn := h.name n (hq.subset hn)
  unary x s hi := h.unary x s (hi.trans hq)
  binary x y s hs hi := h.binary x y s hs (hi.trans hq)

/-- Where names have no numbers there is less to carry out. -/
theorem Normal.without_numbers (h : p.Normal numbers) : p.Normal fun _ => none :=
  ⟨fun _ _ => rfl, h.unary, h.binary⟩

/-- A program is normal if the steps before the last one are and the last one rests on them. -/
theorem normal_reverse_cons :
    Normal numbers (step :: output).reverse ↔
      Normal numbers output.reverse ∧ step.Rests numbers output := by
  constructor
  · intro h
    have hbefore : output.reverse <:+: (step :: output).reverse :=
      List.reverse_infix.mpr (List.suffix_cons step output).isInfix
    refine ⟨h.of_infix hbefore, ?_, ?_, ?_⟩
    · rintro n rfl
      exact h.name n (by simp)
    · rintro x s rfl hx
      exact h.unary x s ((infix_reverse_cons (q := [_])).mpr (.inl ⟨rfl, hx⟩))
    · rintro x y s rfl hs hxy
      exact h.binary x y s hs ((infix_reverse_cons (q := [_, _])).mpr (.inl ⟨rfl, hxy⟩))
  · rintro ⟨h, hstep⟩
    refine ⟨fun n hn => ?_, fun x s hi => ?_, fun x y s hs hi => ?_⟩
    · rcases List.mem_cons.mp (List.mem_reverse.mp hn) with hn | hn
      · exact hstep.name n hn.symm
      · exact h.name n (List.mem_reverse.mpr hn)
    · rcases (infix_reverse_cons (q := [_])).mp hi with ⟨hs, hx⟩ | hi
      · exact hstep.unary x s hs.symm hx
      · exact h.unary x s hi
    · rcases (infix_reverse_cons (q := [_, _])).mp hi with ⟨hl, hxy⟩ | hi
      · exact hstep.binary x y s hl.symm hs hxy
      · exact h.binary x y s hs hi

end Program

/-- One more step keeps the simplified steps normal. -/
theorem Step.normal_simplified (h : Step.simplify v numbers output step = .ok output')
    (ho : Program.Normal numbers output.reverse) : Program.Normal numbers output'.reverse := by
  rcases Step.rests_or_number h with ⟨hrests, rfl⟩ | ⟨x, rest, rfl, hrest⟩
  · exact Program.normal_reverse_cons.mpr ⟨ho, hrests⟩
  · have hnormal := ho.of_infix (List.reverse_infix.mpr hrest.isInfix)
    exact Program.normal_reverse_cons.mpr ⟨hnormal, Step.rests_literal _⟩

/-- One more step makes the simplified steps longer by one at most. -/
theorem Step.length_simplified (h : Step.simplify v numbers output step = .ok output') :
    output'.length ≤ output.length + 1 := by
  rcases Step.rests_or_number h with ⟨-, rfl⟩ | ⟨x, rest, rfl, hrest⟩
  · exact Nat.le_refl _
  · exact Nat.succ_le_succ hrest.length_le

namespace Program

theorem normal_simplified (h : p.foldlM (Step.simplify v numbers) output = .ok output')
    (ho : Normal numbers output.reverse) : Normal numbers output'.reverse :=
  foldlM_preserves (P := fun output => Normal numbers output.reverse)
    (fun _ _ _ _ => Step.normal_simplified) h ho

theorem length_simplified (h : p.foldlM (Step.simplify v numbers) output = .ok output') :
    output'.length ≤ output.length + p.length := by
  induction p generalizing output with
  | nil =>
    cases h
    exact Nat.le_refl _
  | cons step p ih =>
    obtain ⟨next, hs, h⟩ := bind_ok h
    have hlater := ih h
    have hstep := Step.length_simplified hs
    rw [List.length_cons]
    omega

/-- Behind other steps, too, a normal program is left as it is. -/
theorem Normal.foldlM_simplify (h : Normal numbers (output.reverse ++ p)) :
    p.foldlM (Step.simplify v numbers) output = .ok (p.reverse ++ output) := by
  induction p generalizing output with
  | nil => rfl
  | cons step p ih =>
    have hmoved : output.reverse ++ step :: p = (step :: output).reverse ++ p := by simp
    rw [hmoved] at h
    have hstep := normal_reverse_cons.mp (h.of_infix (List.prefix_append _ p).isInfix)
    rw [List.foldlM_cons, hstep.2.simplify]
    exact (ih h).trans (by simp)

end Program

namespace Formula

variable {f f' : Formula H}

/-- Simplified formulas are normal. -/
theorem normal_simplify (h : f.simplify numbers = .ok f') : f'.program.Normal numbers := by
  obtain ⟨output, hs, h⟩ := bind_ok h
  cases h
  exact Program.normal_simplified hs ⟨by simp, by simp, by simp⟩

theorem length_simplify (h : f.simplify numbers = .ok f') :
    f'.program.length ≤ f.program.length := by
  obtain ⟨output, hs, h⟩ := bind_ok h
  cases h
  simpa using Program.length_simplified hs

/-- Normal formulas are left as they are. -/
theorem simplify_of_normal (h : f.program.Normal numbers) : f.simplify numbers = .ok f := by
  have hs : f.program.foldlM (Step.simplify f.vocabulary numbers) [] =
      .ok (f.program.reverse ++ []) := Program.Normal.foldlM_simplify h
  unfold simplify
  rw [hs]
  simp

end Formula

/-! ## Terms of numbers -/

/-- Made of numbers, names with numbers, and operators other than the comma. -/
inductive Tree.Ground (numbers : String → Option Float) : Tree → Prop
  | number (x : Float) : Ground numbers (.literal (.number x))
  | name {n : String} {x : Float} : numbers n = some x → Ground numbers (.name n)
  | unary {t : Tree} (symbol : String) : Ground numbers t → Ground numbers (.unary symbol t)
  | binary {t u : Tree} {symbol : String} : symbol ≠ "," → Ground numbers t → Ground numbers u →
      Ground numbers (.binary symbol t u)

/-- What an operator gives, as a step in front of others, is a number if it is a step at all. -/
theorem Step.exists_ofValue (symbol : String) (value : Except EvalError (Value H)) :
    ∃ answer : Except EvalError Float, ∀ output : List Step,
      (do return (← Step.ofValue symbol (← value)) :: output) =
        (do return .literal (.number (← answer)) :: output) := by
  cases value with
  | error e => exact ⟨.error e, fun _ => rfl⟩
  | ok value =>
    cases value with
    | scalar x => exact ⟨.ok x, fun _ => rfl⟩
    | _ => exact ⟨.error _, fun _ => rfl⟩

/-- A term of numbers becomes one number behind whatever steps, unless an operator
in it fails; then simplifying fails in the same way wherever the term stands. -/
theorem Tree.Ground.foldlM_simplify {t : Tree} (h : t.Ground numbers) :
    ∃ answer : Except EvalError Float, ∀ output,
      t.postorder.foldlM (Step.simplify v numbers) output =
        (do return .literal (.number (← answer)) :: output) := by
  induction h with
  | number x => exact ⟨.ok x, fun _ => rfl⟩
  | @name n x hn => exact ⟨.ok x, fun output => by simp [postorder, Step.simplify, hn]; rfl⟩
  | unary symbol _ ih =>
    obtain ⟨answer, ht⟩ := ih
    choose folded hfolded using fun x =>
      Step.exists_ofValue symbol (v.applyUnary .never symbol (.scalar x))
    refine ⟨answer >>= folded, fun output => ?_⟩
    simp only [postorder, List.foldlM_append, List.foldlM_cons, List.foldlM_nil, bind_pure, ht,
      bind_assoc, pure_bind]
    exact bind_congr fun x => hfolded x output
  | @binary t u symbol hs _ _ iht ihu =>
    obtain ⟨left, ht⟩ := iht
    obtain ⟨right, hu⟩ := ihu
    choose folded hfolded using fun x y =>
      Step.exists_ofValue symbol (v.applyBinary .never symbol (.scalar x) (.scalar y))
    refine ⟨do folded (← left) (← right), fun output => ?_⟩
    simp only [postorder, List.foldlM_append, List.foldlM_cons, List.foldlM_nil, bind_pure, ht, hu,
      bind_assoc, pure_bind]
    refine bind_congr fun x => bind_congr fun y => ?_
    simp only [Step.simplify, if_neg hs]
    exact hfolded x y output

namespace Formula

/-- A term of numbers anywhere in a formula is simplified to a number, and the
formula with this number in its place is simplified to the same formula. -/
theorem simplify_ground {front back : Program} {t : Tree} {f' : Formula H}
    (ht : t.Ground numbers) (h : simplify ⟨front ++ t.postorder ++ back, v⟩ numbers = .ok f') :
    ∃ x, simplify ⟨t.postorder, v⟩ numbers = .ok ⟨[.literal (.number x)], v⟩ ∧
      simplify ⟨front ++ .literal (.number x) :: back, v⟩ numbers = .ok f' := by
  obtain ⟨answer, hanswer⟩ := ht.foldlM_simplify (v := v)
  obtain ⟨output, hall, h⟩ := bind_ok h
  rw [List.foldlM_append, List.foldlM_append] at hall
  obtain ⟨middle, hmiddle, hback⟩ := bind_ok hall
  obtain ⟨start, hfront, hterm⟩ := bind_ok hmiddle
  rw [hanswer] at hterm
  obtain ⟨x, rfl, hterm⟩ := bind_ok hterm
  cases hterm
  refine ⟨x, ?_, ?_⟩
  · unfold simplify
    rw [hanswer]
    rfl
  · have hnumber : (front ++ .literal (.number x) :: back).foldlM (Step.simplify v numbers) [] =
        .ok output := by
      rw [List.foldlM_append, hfront]
      exact hback
    unfold simplify
    rw [hnumber]
    exact h

end Formula

/-- In a normal program the only terms of numbers are the numbers themselves. -/
theorem Tree.Ground.eq_number {t : Tree} (ht : t.Ground numbers) (h : p.Normal numbers)
    (hp : t.postorder <:+: p) : ∃ x, t = .literal (.number x) := by
  induction ht with
  | number x => exact ⟨x, rfl⟩
  | @name n x hn =>
    rw [h.name n (hp.subset (.head _))] at hn
    cases hn
  | unary symbol _ ih =>
    obtain ⟨x, rfl⟩ := ih ((List.prefix_append _ _).isInfix.trans hp)
    exact absurd hp (h.unary x symbol)
  | @binary t u symbol hs _ _ iht ihu =>
    have hoperands : t.postorder ++ u.postorder <:+: p := (List.prefix_append _ _).isInfix.trans hp
    obtain ⟨x, rfl⟩ := iht ((List.prefix_append _ _).isInfix.trans hoperands)
    obtain ⟨y, rfl⟩ := ihu ((List.suffix_append _ _).isInfix.trans hoperands)
    exact absurd hp (h.binary x y symbol hs)

end PanelCalc
