import PanelCalc.Proofs.Formula.Running
import PanelCalc.Proofs.Lexeme.Meanings
import PanelCalc.Proofs.Syntax.Origin
import PanelCalc.Proofs.Vocabulary.Reachable

/-! # Formulas that do not use what is new

A registration changes a vocabulary at one name only. Words are given their
meaning, operators their priority and names their value by looking up that very
name, whatever the table. So a formula in which the new name does not occur is
read as before, with the same errors, and does the same as before. -/
namespace PanelCalc

variable {H : Type} {v v' : Vocabulary H} {r : Registration H} {text name : String}

namespace Vocabulary

/-- Two vocabularies have the same entries at a name. -/
structure AgreeAt (v v' : Vocabulary H) (name : String) : Prop where
  unary : v'.unary? name = v.unary? name
  binary : v'.binary? name = v.binary? name
  function : v'.function? name = v.function? name

/-- The name under which a registration puts its entry. -/
def key (v : Vocabulary H) : Registration H → String
  | .unary name _ _ | .binary name _ _ | .function name _ _ => v.caseStyle.spell name

/-- An entry added at the end is found under its own name only. -/
theorem find?_append_of_ne {α : Type} (entries : List α) {nameOf : α → String} {e : α}
    (h : name ≠ nameOf e) :
    (entries ++ [e]).find? (nameOf · == name) = entries.find? (nameOf · == name) := by
  have hne : (nameOf e == name) = false := by simpa using fun he => h he.symm
  rw [List.find?_append, List.find?_cons_of_neg (by simp [hne]), List.find?_nil, Option.or_none]

/-- A registration changes nothing at other names. -/
theorem register_agreeAt (h : v.register r = .ok v') (hn : name ≠ v.key r) : v.AgreeAt v' name := by
  cases r with
  | unary =>
    obtain ⟨-, -, rfl⟩ := registerUnary_ok h
    exact ⟨find?_append_of_ne _ hn, rfl, rfl⟩
  | binary =>
    obtain ⟨-, -, rfl⟩ := registerBinary_ok h
    exact ⟨rfl, find?_append_of_ne _ hn, rfl⟩
  | function =>
    obtain ⟨-, -, rfl⟩ := registerFunction_ok h
    exact ⟨rfl, rfl, find?_append_of_ne _ hn⟩

theorem isLexable_key (h : v.register r = .ok v') : isLexable (v.key r) = true := by
  cases r with
  | unary => exact (registerUnary_ok h).1.lexable
  | binary => exact (registerBinary_ok h).1.lexable
  | function =>
    have hi := (registerFunction_ok h).1
    simp [key, isLexable, hi]

/-- Nothing is registered as the comma. -/
theorem comma_ne_key (h : v.register r = .ok v') : "," ≠ v.key r := by
  intro he
  have hl := isLexable_key h
  rw [← he] at hl
  revert hl
  decide

/-! ## Reading -/

/-- A word that is no constant is looked up as it is written. -/
theorem name?_classify (v : Vocabulary H) {word : String}
    (h : namedConstants.lookup word = none) : (v.classify word).name? = some word := by
  have hmeans := v.means_classify word
  generalize v.classify word = l at hmeans ⊢
  cases hmeans with
  | constant hc =>
    rw [h] at hc
    cases hc
  | _ => rfl

theorem AgreeAt.classify (h : v.AgreeAt v' name) : v'.classify name = v.classify name := by
  have hb : v'.isBinaryKeyword name = v.isBinaryKeyword name := by
    rw [isBinaryKeyword, h.binary, isBinaryKeyword]
  have hu : v'.isNamedUnary name = v.isNamedUnary name := by
    rw [isNamedUnary, h.unary, isNamedUnary]
  unfold Vocabulary.classify
  rw [hb, hu]

theorem AgreeAt.priorities (h : v.AgreeAt v' name) :
    v'.grammar.unaryPriority? name = v.grammar.unaryPriority? name ∧
      v'.grammar.binaryPriority? name = v.grammar.binaryPriority? name := by
  simp only [grammar, h.unary, h.binary, and_self]

/-- A word that does not stand for the new name means what it meant. -/
theorem classify_of_register (h : v.register r = .ok v') {word : String}
    (hw : (v.classify word).name? ≠ some (v.key r)) : v'.classify word = v.classify word := by
  cases hc : namedConstants.lookup word with
  | some x => simp only [classify, hc]
  | none =>
    rw [name?_classify v hc] at hw
    exact (register_agreeAt h fun he => hw (congrArg some he)).classify

/-- A lexeme that is not the new name is accepted as before. -/
theorem take_of_register (h : v.register r = .ok v') {located : Located}
    (hl : located.lexeme.name? ≠ some (v.key r)) (b : Builder) :
    v'.grammar.take b located = v.grammar.take b located := by
  have hcomma := (register_agreeAt h (comma_ne_key h)).priorities.2
  have hname : ∀ s, located.lexeme.name? = some s → v.AgreeAt v' s := by
    intro s hs
    refine register_agreeAt h ?_
    intro he
    exact hl (hs.trans (congrArg some he))
  simp only [Grammar.take, Builder.accept_congr hcomma fun s hs => (hname s hs).priorities]

/-- The new name is not among the lexemes that are found in a text. -/
def Unused (v : Vocabulary H) (r : Registration H) (text : String) : Prop :=
  ∀ l, Lexeme.Found v.classify (.start text) l → l.name? ≠ some (v.key r)

theorem read_of_register (h : v.register r = .ok v') (hu : v.Unused r text) :
    v'.grammar.read text = v.grammar.read text := by
  have hf : Lexeme.fold v'.grammar.classify v'.grammar.take .start (.start text) =
      Lexeme.fold v.grammar.classify v.grammar.take .start (.start text) :=
    Lexeme.fold_congr (P := (·.name? ≠ some (v.key r))) (fun _ hw => classify_of_register h hw)
      (fun b _ hl => take_of_register h hl b) hu
  unfold Grammar.read
  rw [hf]

/-- The program of a text mentions the new name no more than the text does. -/
theorem Unused.program (h : v.register r = .ok v') (hu : v.Unused r text) {p : Program}
    (hp : v.grammar.read text = .ok p) :
    ∀ step ∈ p, ∀ s, step.name? = some s → v.AgreeAt v' s := by
  obtain ⟨ls, hls, hrun⟩ := Grammar.read_eq_ok.mp hp
  intro step hstep s hs
  obtain ⟨l, hl, hm⟩ := Builder.exists_makes hrun step hstep
  refine register_agreeAt h ?_
  rcases hm.name? hs with hname | rfl
  · intro he
    exact hu l (hls.found_iff.mpr hl) (hname.trans (congrArg some he))
  · exact comma_ne_key h

end Vocabulary

/-! ## Evaluating -/

section Evaluation

variable [HostFunctions H] {b : Bindings H} {a : Alignment} {p : Program}

/-- A step does the same in vocabularies that agree at its name. -/
theorem Step.run_of_agreeAt {step : Step} (h : ∀ s, step.name? = some s → v.AgreeAt v' s)
    (stack : List (Value H)) : Step.run v' b a stack step = Step.run v b a stack step := by
  cases step with
  | literal => rfl
  | call => rcases stack with _ | ⟨y, _ | ⟨x, stack⟩⟩ <;> rfl
  | var s => simp only [Step.run, Vocabulary.resolve, (h s rfl).function]
  | unary s =>
    cases stack with
    | nil => rfl
    | cons x stack => simp only [Step.run, Vocabulary.applyUnary, (h s rfl).unary]
  | binary s =>
    rcases stack with _ | ⟨y, _ | ⟨x, stack⟩⟩
    · rfl
    · rfl
    · simp only [Step.run, Vocabulary.applyBinary, (h s rfl).binary]

theorem Program.foldlM_of_agreeAt (h : ∀ step ∈ p, ∀ s, step.name? = some s → v.AgreeAt v' s)
    (stack : List (Value H)) :
    p.foldlM (Step.run v' b a) stack = p.foldlM (Step.run v b a) stack :=
  PanelCalc.foldlM_congr (fun step hm => Step.run_of_agreeAt (h step hm)) stack

end Evaluation

/-- The names that a program mentions are those of functions as before. -/
theorem Formula.freeVariables_of_agreeAt {p : Program}
    (h : ∀ step ∈ p, ∀ s, step.name? = some s → v.AgreeAt v' s) :
    (Formula.mk p v').freeVariables = (Formula.mk p v).freeVariables := by
  simp only [freeVariables]
  congr 1
  refine List.filterMap_congr fun step hstep => ?_
  cases step with
  | var s =>
    have hf : v'.isFunction s = v.isFunction s := by
      rw [Vocabulary.isFunction, (h _ hstep s rfl).function, Vocabulary.isFunction]
    exact congrArg (fun known => if known = true then none else some s) hf
  | _ => rfl

/-- **Registering is conservative.** A formula without the new name is read as
before, up to the same errors, and has the same variables and the same answers
to all bindings, with and without a calendar. -/
theorem Formula.parse_register [HostFunctions H] (h : v.register r = .ok v')
    (hu : v.Unused r text) :
    Formula.parse v' text = (Formula.parse v text).map (fun f => ⟨f.program, v'⟩) ∧
      ∀ f f', Formula.parse v text = .ok f → Formula.parse v' text = .ok f' →
        f'.freeVariables = f.freeVariables ∧ ∀ b a, f'.evaluate b a = f.evaluate b a := by
  have hread := Vocabulary.read_of_register h hu
  have hparse : Formula.parse v' text = (Formula.parse v text).map (fun f => ⟨f.program, v'⟩) := by
    unfold Formula.parse
    rw [hread]
    cases v.grammar.read text <;> rfl
  refine ⟨hparse, ?_⟩
  intro f f' hf hf'
  rw [hparse, hf] at hf'
  cases hf'
  unfold Formula.parse at hf
  cases hp : v.grammar.read text with
  | error e => rw [hp] at hf; cases hf
  | ok p =>
    rw [hp] at hf
    cases hf
    have agree := hu.program h hp
    refine ⟨freeVariables_of_agreeAt agree, ?_⟩
    intro b a
    unfold evaluate
    rw [Program.foldlM_of_agreeAt agree]

/-- A keyword that chooses its first operand. -/
def registerPlus : Registration Empty := .binary "plus" 3 fun _ x _ => .ok x

/-- The word `plus` as an operator leaves `Max(x,y)+z` alone. -/
theorem Formula.parse_register_plus : ∃ v',
    (Vocabulary.builtin .upper).register registerPlus = .ok v' ∧
      (Vocabulary.builtin .upper).Unused registerPlus "Max(x,y)+z" ∧
      ∃ f', Formula.parse v' "Max(x,y)+z" = .ok f' ∧ f'.freeVariables = ["x", "y", "z"] := by
  have name (n : String) (hn : Text.isIdentifier n = true)
      (hc : (Vocabulary.builtin .upper : Vocabulary Empty).classify n = .identifier n) :
      (Vocabulary.builtin .upper : Vocabulary Empty).Spells (.identifier n) :=
    ⟨⟨Vocabulary.isWord_of_isIdentifier hn, hc⟩, trivial⟩
  let ls : List Lexeme := [.identifier "Max", .openParen, .identifier "x", .comma, .identifier "y",
    .closeParen, .operator "+", .identifier "z"]
  have hspells : ∀ l ∈ ls, (Vocabulary.builtin .upper : Vocabulary Empty).Spells l := by
    simp only [ls, List.forall_mem_cons]
    exact ⟨name _ (by decide) rfl, ⟨trivial, trivial⟩, name _ (by decide) rfl, ⟨trivial, trivial⟩,
      name _ (by decide) rfl, ⟨trivial, trivial⟩, ⟨.inl (by decide), trivial⟩,
      name _ (by decide) rfl, by simp⟩
  have hls := (Vocabulary.lexes_spellings hspells (by decide) 0).mpr rfl
  obtain ⟨v', hv⟩ : ∃ v', (Vocabulary.builtin .upper).register registerPlus = .ok v' := ⟨_, rfl⟩
  have hu : (Vocabulary.builtin .upper).Unused registerPlus "Max(x,y)+z" := by
    intro l hl
    have names : ∀ l ∈ ls, l.name? ≠ some "plus" := by decide
    exact names l (hls.found_iff.mp hl)
  have hf : Formula.parse (Vocabulary.builtin .upper : Vocabulary Empty) "Max(x,y)+z" = .ok
      ⟨[.var "Max", .var "x", .var "y", .binary ",", .call, .var "z", .binary "+"], _⟩ :=
    Formula.parse_of_read (by decide +kernel)
  obtain ⟨hparse, hsame⟩ := Formula.parse_register hv hu
  rw [hf] at hparse
  refine ⟨v', hv, hu, _, hparse, ?_⟩
  rw [(hsame _ _ hf hparse).1]
  decide

end PanelCalc
