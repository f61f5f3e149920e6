import PanelCalc.Proofs.Evaluation.Invariants
import PanelCalc.Proofs.Evaluation.StackFaults
import PanelCalc.Proofs.Formula.Running

/-! # What a failure is due to

Every error of an evaluation can be blamed on one step of the program: on a name
that stands for nothing, on an operator that is not in the vocabulary, on a call
that turns down what it is given, on a stack that is too short, or on the host
program. -/
namespace PanelCalc

variable {H : Type}

/-- What the error of a step is due to. -/
inductive Step.Blame (v : Vocabulary H) (b : Bindings H) (host : EvalError → Prop) :
    Step → EvalError → Prop
  | name {n} : b.get? n = none → v.isFunction n = false →
      Blame v b host (.var n) (.undefinedVariable n)
  | unary {s} : v.unary? s = none → Blame v b host (.unary s) (.unknownOperator s)
  | binary {s} : v.binary? s = none → Blame v b host (.binary s) (.unknownOperator s)
  | underflow (step : Step) : Blame v b host step (.stackUnderflow step.label)
  | refusal {step e} : e.isRefusal = true → Blame v b host step e
  | host {step e} : host e → Blame v b host step e

/-- What the error of a program is due to: to one of its steps, or to its end. -/
inductive Program.Blame (v : Vocabulary H) (b : Bindings H) (host : EvalError → Prop)
    (p : Program) : EvalError → Prop
  | step {step e} : step ∈ p → step.Blame v b host e → Blame v b host p e
  | parity (remaining : Nat) : Blame v b host p (.parity remaining)

variable {v : Vocabulary H} {b : Bindings H} {host : EvalError → Prop} {a : Alignment}

/-- All functions inside the value are built in. -/
abbrev Value.Native (x : Value H) : Prop := Value.Alike (Panel.Kept fun _ => True) x x

/-- All functions inside the values of names are built in. -/
abbrev Bindings.Native (b : Bindings H) : Prop := b.Alike (Panel.Kept fun _ => True) b

theorem Bindings.Native.insert (hb : b.Native) {x : Value H} (hx : x.Native) (name : String) :
    (b.insert name x).Native := by
  intro other
  by_cases hn : other = name
  · rw [hn, get?_insert_self]
    exact .some hx
  · rw [get?_insert_of_ne _ _ hn]
    exact hb other

theorem Declines.blame {α : Type} {x : Except EvalError α} (h : Declines host x) (step : Step) :
    FailsBy (step.Blame v b host) x :=
  h.imp fun _ he => he.elim .refusal .host

/-- The operators of a vocabulary and the values that are called decline what they
do not take. -/
structure Vocabulary.Declining [HostFunctions H] (v : Vocabulary H) (a : Alignment)
    (host : EvalError → Prop) (callable : Value H → Prop) : Prop where
  unary : ∀ entry ∈ v.unary, ∀ x, Declines host (entry.apply a x)
  binary : ∀ entry ∈ v.binary, ∀ x y, Declines host (entry.apply a x y)
  call : ∀ callee, callable callee → ∀ arguments, Declines host (callee.call arguments a)

variable [HostFunctions H] {callable : Value H → Prop}

/-- A step fails by what it is to blame for. -/
theorem Step.run_blame (h : v.Declining a host callable) (step : Step) {stack : List (Value H)}
    (hs : ∀ x ∈ stack, callable x) :
    FailsBy (step.Blame v b host) (Step.run v b a stack step) := by
  cases step with
  | literal value => exact .ok
  | var n =>
    refine FailsBy.bind ?_ fun _ => .ok
    unfold Vocabulary.resolve
    split
    · exact .ok
    · exact .ok
    · exact .error (.name ‹_› (by simp [Vocabulary.isFunction, *]))
  | unary s =>
    rcases stack with _ | ⟨x, stack⟩
    · exact .error (.underflow _)
    refine FailsBy.bind ?_ fun _ => .ok
    unfold Vocabulary.applyUnary
    split
    · exact (h.unary _ (List.mem_of_find?_eq_some ‹_›) x).blame _
    · exact .error (.unary ‹_›)
  | binary s =>
    rcases stack with _ | ⟨y, _ | ⟨x, stack⟩⟩
    · exact .error (.underflow _)
    · exact .error (.underflow _)
    refine FailsBy.bind ?_ fun _ => .ok
    unfold Vocabulary.applyBinary
    split
    · exact (h.binary _ (List.mem_of_find?_eq_some ‹_›) x y).blame _
    · exact .error (.binary ‹_›)
  | call =>
    rcases stack with _ | ⟨arguments, _ | ⟨callee, stack⟩⟩
    · exact .error (.underflow _)
    · exact .error (.underflow _)
    exact FailsBy.bind ((h.call callee (hs callee (by simp)) arguments).blame _) fun _ => .ok

/-- A run fails by what one of its steps is to blame for, as long as the values on
the stack may be called. -/
theorem Program.foldlM_blame (h : v.Declining a host callable)
    (keeps : ∀ {step stack stack'}, Step.run v b a stack step = .ok stack' →
      (∀ x ∈ stack, callable x) → ∀ x ∈ stack', callable x)
    (p : Program) {stack : List (Value H)} (hs : ∀ x ∈ stack, callable x) :
    FailsBy (fun e => ∃ step ∈ p, step.Blame v b host e) (p.foldlM (Step.run v b a) stack) := by
  induction p generalizing stack with
  | nil => exact .ok
  | cons step p ih =>
    rw [List.foldlM_cons]
    cases hr : Step.run v b a stack step with
    | error e => exact .error ⟨step, by simp, (Step.run_blame h step hs).of_error hr⟩
    | ok stack' =>
      refine (ih (keeps hr hs)).imp fun e he => ?_
      obtain ⟨other, hm, hb⟩ := he
      exact ⟨other, List.mem_cons_of_mem _ hm, hb⟩

/-- **Every error has a cause** among the steps of the program. -/
theorem Formula.evaluate_blame {f : Formula H} (h : f.vocabulary.Declining a host callable)
    (keeps : ∀ {step stack stack'}, Step.run f.vocabulary b a stack step = .ok stack' →
      (∀ x ∈ stack, callable x) → ∀ x ∈ stack', callable x) :
    FailsBy (f.program.Blame f.vocabulary b host) (f.evaluate b a) := by
  have run := Program.foldlM_blame (b := b) h keeps f.program (List.forall_mem_nil callable)
  unfold evaluate
  cases hr : f.program.foldlM (Step.run f.vocabulary b a) [] with
  | error e =>
    obtain ⟨step, hm, hb⟩ := run.of_error hr
    exact .error (.step hm hb)
  | ok stack =>
    rcases stack with _ | ⟨x, _ | ⟨y, stack⟩⟩
    · exact .error (.parity _)
    · exact .ok
    · exact .error (.parity _)

/-- The host program is behind all that does not come from what is built in. -/
theorem Vocabulary.declining (v : Vocabulary H) (a : Alignment) :
    v.Declining a (v.HostFails a) fun _ => True :=
  ⟨fun _ => declines_unary, fun _ => declines_binary, fun callee _ => declines_call callee⟩

/-- What an error is due to, whatever the host program supplies. -/
theorem Formula.blame_of_evaluate {f : Formula H} {e : EvalError} (h : f.evaluate b a = .error e) :
    f.program.Blame f.vocabulary b (f.vocabulary.HostFails a) e :=
  (evaluate_blame (f.vocabulary.declining a) fun _ _ _ _ => trivial).of_error h

/-! ## Without a host program -/

/-- Whatever panels there are, evaluating side by side with itself is a simulation. -/
theorem Simulation.reflexive (a : Alignment) :
    Simulation True (fun _ => True) (Panel.Kept fun _ => True) a a := by
  have same (x : Except ShapeError Panel) : Follows True (Panel.Kept fun _ => True) x x :=
    (Follows.of_eq rfl).imp fun _ _ h => ⟨h, trivial⟩
  exact .kept (fun _ _ _ _ => trivial) (fun _ _ => same _) (fun _ _ _ _ => .of_eq rfl)
    fun _ _ _ _ _ => same _

variable {caseStyle : CaseStyle} {program : Program}

/-- With built-in operators and functions only, nothing is up to the host program. -/
theorem Vocabulary.declining_builtin (caseStyle : CaseStyle) (a : Alignment) :
    (builtin caseStyle : Vocabulary H).Declining a (fun _ => False) Value.Native where
  unary _ he x := (Refuses.of_mem_unary he x).declines
  binary _ he x y := (Refuses.of_mem_binary he x y).declines
  call callee hc arguments := by
    refine .call fun entry f hentry hf => ?_
    subst hentry
    cases hc with
    | function hbody _ =>
      rw [hf] at hbody
      cases hbody

theorem Formula.native_of_evaluate (hb : b.Native) {x : Value H}
    (h : evaluate ⟨program, Vocabulary.builtin caseStyle⟩ b a = .ok x) : x.Native := by
  obtain ⟨y, hy, hxy⟩ := (evaluate_alike (Simulation.reflexive a) hb program).exists_ok h
  obtain rfl : x = y := Except.ok.inj (h.symm.trans hy)
  exact hxy

/-- What an error is due to where nothing is up to the host program. -/
theorem Formula.blame_of_native (hb : b.Native) {e : EvalError}
    (h : evaluate ⟨program, Vocabulary.builtin caseStyle⟩ b a = .error e) :
    program.Blame (Vocabulary.builtin caseStyle) b (fun _ => False) e := by
  refine (evaluate_blame (Vocabulary.declining_builtin caseStyle a) ?_).of_error h
  intro step stack stack' hr hs
  have follows : Follows _ _ (Step.run (Vocabulary.builtin caseStyle) b a stack step) _ :=
    Step.run_follows (Simulation.reflexive a) hb (fun _ _ => trivial) (List.forall₂_same.mpr hs)
  obtain ⟨_, hr', hkept⟩ := follows.exists_ok hr
  obtain rfl := Except.ok.inj (hr.symm.trans hr')
  have native : ∀ x ∈ stack', Value.Matches _ _ x x := List.forall₂_same.mp hkept
  exact native

end PanelCalc
