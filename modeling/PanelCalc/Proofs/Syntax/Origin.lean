import PanelCalc.Proofs.Syntax.Settling

/-! # Where the steps of a program come from

Every step of a program was put there for one of the lexemes. So a program has
no other steps than its lexemes can make, and it depends on a grammar at their
names only. The comma alone has no name as a lexeme, but one as an operator; it
is also the only operator that is put there without an entry in the tables. -/
namespace PanelCalc

/-- The steps that a lexeme can put into a program. -/
inductive Lexeme.Makes : Lexeme → Step → Prop
  | sign : Makes (.operator "-") (.unary "-")
  | operator (s : String) : Makes (.operator s) (.binary s)
  | number (x : Float) : Makes (.number x) (.literal (.number x))
  | constant (x : Float) : Makes (.constant x) (.literal (.number x))
  | text (s : String) : Makes (.text s) (.literal (.text s))
  | namedUnary (s : String) : Makes (.namedUnary s) (.unary s)
  | identifier (s : String) : Makes (.identifier s) (.var s)
  | call : Makes .openParen .call
  | noArguments : Makes .closeParen (.literal .noArguments)
  | comma : Makes .comma (.binary ",")

/-- The name that a lexeme is looked up under. -/
def Lexeme.name? : Lexeme → Option String
  | operator s | namedUnary s | identifier s => some s
  | number _ | text _ | constant _ | openParen | closeParen | comma => none

/-- The name that a step is looked up under. -/
def Step.name? : Step → Option String
  | var s | unary s | binary s => some s
  | literal _ | call => none

theorem Lexeme.Makes.name? {l : Lexeme} {step : Step} {s : String} (h : l.Makes step)
    (hs : step.name? = some s) : l.name? = some s ∨ s = "," := by
  cases h with
  | sign | operator | namedUnary | identifier => exact .inl hs
  | comma =>
    cases hs
    exact .inr rfl
  | _ => cases hs

/-- The operator of a step has an entry in the tables. A comma needs none. -/
def Grammar.Resolves (g : Grammar) : Step → Prop
  | .unary s => (g.unaryPriority? s).isSome
  | .binary s => s = "," ∨ (g.binaryPriority? s).isSome
  | .literal _ | .var _ | .call => True

namespace Builder

variable {P : Step → Prop} {g g' : Grammar} {b b' : Builder} {l : Lexeme} {ls : List Lexeme}

/-- All steps, settled and waiting, are among some steps. -/
structure StepsIn (P : Step → Prop) (b : Builder) : Prop where
  output : ∀ step ∈ b.output, P step
  waiting : ∀ entry ∈ b.waiting, P entry.1

theorem stepsIn_start : start.StepsIn P := ⟨by simp [start], by simp [start]⟩

theorem StepsIn.operand (h : b.StepsIn P) {step : Step} (hs : P step) (e : Expectation) :
    (b.operand step e).StepsIn P :=
  ⟨List.forall_mem_cons.mpr ⟨hs, h.output⟩, h.waiting⟩

theorem StepsIn.opener (h : b.StepsIn P) {s : String} (hs : P (.unary s)) (p : Int)
    (e : Expectation) : (b.opener s p e).StepsIn P :=
  ⟨h.output, List.forall_mem_cons.mpr ⟨hs, h.waiting⟩⟩

/-- Settling only moves steps. -/
theorem StepsIn.settle (p : Int32) {w : List (Step × Int32)} {output : List Step}
    (ho : ∀ step ∈ output, P step) (hw : ∀ entry ∈ w, P entry.1) :
    (∀ step ∈ (settle p w output).2, P step) ∧ ∀ entry ∈ (settle p w output).1, P entry.1 := by
  fun_induction Builder.settle p w output with
  | case1 output => exact ⟨ho, hw⟩
  | case2 output step top w hlt => exact ⟨ho, hw⟩
  | case3 output step top w hle ih =>
    obtain ⟨hstep, hw⟩ := List.forall_mem_cons.mp hw
    exact ih (List.forall_mem_cons.mpr ⟨hstep, ho⟩) hw

theorem StepsIn.join (h : b.StepsIn P) {step : Step} (hs : P step) (p : Int) (e : Expectation) :
    (b.join step p e).StepsIn P := by
  have settled := settle (Priority.atDepth p b.depth) h.output h.waiting
  exact ⟨settled.1, List.forall_mem_cons.mpr ⟨hs, settled.2⟩⟩

/-- A lexeme that is an operand makes its step, which needs no entry. -/
theorem makes_of_operand? {step : Step} {e : Expectation} (h : l.operand? = some (step, e)) :
    l.Makes step ∧ g.Resolves step := by
  cases l <;> cases h <;> exact ⟨by constructor, trivial⟩

/-- A lexeme puts nothing into a program that it does not make, and no operator
that is not in the tables. -/
theorem StepsIn.accept (h : b.StepsIn P) (hl : ∀ step, l.Makes step → g.Resolves step → P step)
    (ha : Accepts g b l b') : b'.StepsIn P := by
  -- at whatever depth, the steps are those of the builder before the lexeme
  have begun (depth : Int32) : { b with started := true, depth }.StepsIn P :=
    ⟨h.output, h.waiting⟩
  cases ha with
  | operand _ ho =>
    obtain ⟨hmakes, hresolves⟩ := makes_of_operand? (g := g) ho
    exact (begun _).operand (hl _ hmakes hresolves) _
  | plus _ | opened _ | closed _ _ => exact ⟨h.output, h.waiting⟩
  | minus _ hp => exact (begun _).opener (hl _ .sign (Option.isSome_of_eq_some hp)) _ _
  | named _ hp =>
    exact (begun _).opener (hl _ (.namedUnary _) (Option.isSome_of_eq_some hp)) _ _
  | operator _ hp =>
    exact (begun _).join (hl _ (.operator _) (.inr (Option.isSome_of_eq_some hp))) _ _
  | comma _ _ => exact (begun _).join (hl _ .comma (.inl rfl)) _ _
  | call _ => exact (begun _).join (hl _ .call trivial) _ _
  | emptyCall _ => exact (begun _).operand (hl _ .noArguments trivial) _

theorem StepsIn.run (h : b.StepsIn P)
    (hls : ∀ l ∈ ls, ∀ step, l.Makes step → g.Resolves step → P step) {program : Program}
    (hrun : b.run g ls = .ok program) : ∀ step ∈ program, P step := by
  induction ls generalizing b with
  | nil =>
    obtain ⟨-, -, -, -, rfl⟩ := finish_eq_ok.mp hrun
    intro step hstep
    rcases List.mem_append.mp hstep with hstep | hstep
    · exact h.output step (List.mem_reverse.mp hstep)
    · obtain ⟨entry, he, rfl⟩ := List.mem_map.mp hstep
      exact h.waiting entry he
  | cons l ls ih =>
    obtain ⟨hl, hls⟩ := List.forall_mem_cons.mp hls
    obtain ⟨next, ha, hrun⟩ := run_cons_eq_ok.mp hrun
    exact ih (h.accept hl (accept_eq_ok.mp ha)) hls hrun

/-- **Every step has a lexeme** that makes it. -/
theorem exists_makes {program : Program} (h : start.run g ls = .ok program) :
    ∀ step ∈ program, ∃ l ∈ ls, l.Makes step :=
  stepsIn_start.run (fun l hl _ hm _ => ⟨l, hl, hm⟩) h

/-- **Every operator has an entry**, if it is no comma. -/
theorem resolves_of_run {program : Program} (h : start.run g ls = .ok program) :
    ∀ step ∈ program, g.Resolves step :=
  stepsIn_start.run (fun _ _ _ _ hr => hr) h

/-- Grammars that agree at the name of a lexeme and at the comma accept it alike. -/
theorem accept_congr (hcomma : g'.binaryPriority? "," = g.binaryPriority? ",")
    (hl : ∀ s, l.name? = some s →
      g'.unaryPriority? s = g.unaryPriority? s ∧ g'.binaryPriority? s = g.binaryPriority? s) :
    b.accept g' l = b.accept g l := by
  cases l with
  | operator s =>
    obtain ⟨hu, hb⟩ := hl s rfl
    simp only [accept, acceptOperator, hu, hb]
  | namedUnary s =>
    obtain ⟨hu, -⟩ := hl s rfl
    simp only [accept, hu]
  | comma => simp only [accept, acceptComma, hcomma]
  | _ => rfl

end Builder

end PanelCalc
