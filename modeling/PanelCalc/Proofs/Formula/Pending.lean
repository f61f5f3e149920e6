import PanelCalc.Proofs.Formula.NormalForms

/-! # Literals that wait

Simplifying can keep the latest literals apart from the steps before them, as
operands that wait for an operator. All of them are written out as soon as a step
comes that stays. What has been written then never ends with a literal, so an
operator finds every number that comes right before it among those that wait. -/
namespace PanelCalc

variable {H : Type} {v : Vocabulary H} {numbers : String → Option Float} {step : Step}

/-- The simplified steps in two parts, the latest first in each of them. -/
structure Waiting where
  pending : List Step
  written : List Step

namespace Waiting

/-- Both parts together. -/
def steps (w : Waiting) : List Step := w.pending ++ w.written

def push (w : Waiting) (step : Step) : Waiting := { w with pending := step :: w.pending }

/-- Everything that waits is written out, and the step behind it. -/
def flush (w : Waiting) (step : Step) : Waiting := ⟨[], step :: w.steps⟩

/-- What has been written does not end with a literal. -/
def Flushed (w : Waiting) : Prop := ∀ value rest, w.written ≠ .literal value :: rest

/-- Both parts after one more step. -/
def next (v : Vocabulary H) (numbers : String → Option Float) (w : Waiting) (step : Step) :
    Except EvalError Waiting := do
  match step, w.pending with
  | .literal _, _ => return w.push step
  | .var name, _ =>
    match numbers name with
    | some x => return w.push (.literal (.number x))
    | none => return w.flush step
  | .unary symbol, .literal (.number x) :: pending =>
    let value ← v.applyUnary .never symbol (.scalar x)
    return ⟨(← Step.ofValue symbol value) :: pending, w.written⟩
  | .binary symbol, .literal (.number y) :: .literal (.number x) :: pending =>
    if symbol = "," then return w.flush step
    else
      let value ← v.applyBinary .never symbol (.scalar x) (.scalar y)
      return ⟨(← Step.ofValue symbol value) :: pending, w.written⟩
  | step, _ => return w.flush step

variable {w w' : Waiting}

/-- A literal that comes last still waits. -/
theorem Flushed.exists_pending {waiting written rest : List Step} {value : Literal}
    (hw : Flushed ⟨waiting, written⟩) (h : waiting ++ written = .literal value :: rest) :
    ∃ others, waiting = .literal value :: others ∧ others ++ written = rest := by
  cases waiting with
  | nil => exact absurd h (hw value rest)
  | cons step others =>
    obtain ⟨rfl, hrest⟩ := List.cons.inj h
    exact ⟨others, rfl, hrest⟩

/-- A step that finds no numbers waiting has none right before it. -/
theorem Flushed.rests (hw : w.Flushed) (hname : ∀ n, step ≠ .var n)
    (hunary : ∀ symbol x others, step = .unary symbol → w.pending ≠ .literal (.number x) :: others)
    (hbinary : ∀ symbol y x others, step = .binary symbol →
      w.pending ≠ .literal (.number y) :: .literal (.number x) :: others) :
    step.Rests numbers w.steps := by
  obtain ⟨pending, written⟩ := w
  refine ⟨fun n hn => absurd hn (hname n), ?_, ?_⟩
  · rintro x symbol hs ⟨rest, hrest⟩
    obtain ⟨others, hx, -⟩ := hw.exists_pending hrest.symm
    exact hunary symbol x others hs hx
  · rintro x y symbol hs - ⟨rest, hrest⟩
    obtain ⟨others, rfl, hothers⟩ := hw.exists_pending hrest.symm
    have hw' : Flushed ⟨others, written⟩ := hw
    obtain ⟨others, rfl, -⟩ := hw'.exists_pending hothers
    exact hbinary symbol y x others hs rfl

theorem flushed_flush (h : ∀ value, step ≠ .literal value) : (w.flush step).Flushed := by
  intro value rest hrest
  exact h value (List.cons.inj hrest).1

/-- Both parts make up the simplified steps, and every literal that comes last waits. -/
def MakesUp (w : Waiting) (output : List Step) : Prop := w.steps = output ∧ w.Flushed

/-- What an operator gives waits in place of its operands. -/
theorem folded_alike (hw : w.Flushed) (symbol : String) (value : Except EvalError (Value H))
    (pending : List Step) :
    Alike MakesUp (do return ⟨(← Step.ofValue symbol (← value)) :: pending, w.written⟩)
      (do return (← Step.ofValue symbol (← value)) :: (pending ++ w.written)) := by
  refine (Follows.of_eq rfl).bind fun x _ hx => ?_
  subst hx
  refine (Follows.of_eq rfl).bind fun folded _ hfolded => ?_
  subst hfolded
  exact .ok ⟨rfl, hw⟩

/-- A step keeps the latest literals apart and does the same to both parts together. -/
theorem next_alike (hw : w.Flushed) :
    Alike MakesUp (w.next v numbers step) (Step.simplify v numbers w.steps step) := by
  fun_cases next v numbers w step with
  | case1 => exact .ok ⟨rfl, hw⟩
  | case2 name x hn =>
    simp only [Step.simplify, hn]
    exact .ok ⟨rfl, hw⟩
  | case3 name hn =>
    simp only [Step.simplify, hn]
    exact .ok ⟨rfl, flushed_flush (by simp)⟩
  | case4 symbol x pending hp =>
    simp only [steps, hp, List.cons_append, Step.simplify]
    exact folded_alike hw symbol _ pending
  | case5 y x pending hp =>
    have hflush : (w.flush (.binary ",")).steps =
        .binary "," :: .literal (.number y) :: .literal (.number x) :: (pending ++ w.written) := by
      rw [flush, steps, steps, hp]
      rfl
    simp only [steps, hp, List.cons_append, Step.simplify]
    exact .ok ⟨hflush, flushed_flush (by simp)⟩
  | case6 symbol y x pending hp hs =>
    simp only [steps, hp, List.cons_append, Step.simplify, if_neg hs]
    exact folded_alike hw symbol _ pending
  | case7 _ hliteral hname hunary hbinary =>
    rw [(hw.rests hname hunary hbinary).simplify]
    exact .ok ⟨rfl, flushed_flush hliteral⟩

end Waiting

/-- Simplifying with the latest literals kept apart. -/
def Formula.simplifyWaiting (f : Formula H) (numbers : String → Option Float) :
    Except EvalError (Formula H) := do
  let w ← f.program.foldlM (Waiting.next f.vocabulary numbers) ⟨[], []⟩
  return { f with program := w.steps.reverse }

/-- **Keeping the latest literals apart makes no difference**, in a result as well as in
an error. -/
theorem Formula.simplifyWaiting_eq (f : Formula H) (numbers : String → Option Float) :
    f.simplifyWaiting numbers = f.simplify numbers := by
  have hstart : Waiting.MakesUp ⟨[], []⟩ [] := ⟨rfl, by simp [Waiting.Flushed]⟩
  have hrun : Alike Waiting.MakesUp
      (f.program.foldlM (Waiting.next f.vocabulary numbers) ⟨[], []⟩)
      (f.program.foldlM (Step.simplify f.vocabulary numbers) []) :=
    Follows.foldlM (fun step _ w output h => h.1 ▸ Waiting.next_alike h.2) hstart
  refine (hrun.bind fun w output h => ?_).eq
  exact .ok (congrArg (fun steps : List Step => { f with program := steps.reverse }) h.1)

end PanelCalc
