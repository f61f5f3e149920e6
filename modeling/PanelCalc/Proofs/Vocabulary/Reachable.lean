import PanelCalc.Vocabulary.Builtin
import PanelCalc.Vocabulary.Register

/-! # Vocabularies that registering leads to

A vocabulary only grows, one entry at a time. What holds of every entry that
registering takes therefore holds throughout a vocabulary, if it holds of those
that the vocabulary began with. -/
namespace PanelCalc

/-- A call that registers something. -/
inductive Registration (H : Type) where
  | unary (name : String) (priority : Int)
      (apply : Alignment → Value H → Except EvalError (Value H))
  | binary (name : String) (priority : Int)
      (apply : Alignment → Value H → Value H → Except EvalError (Value H))
  | function (name : String) (arity : Arity) (body : FunctionBody H)

variable {H : Type}

/-- An operator before its operand that registering could have taken. -/
structure UnaryEntry.Registrable (e : UnaryEntry H) : Prop where
  lexable : isLexable e.symbol
  no_sign : e.symbol ≠ "+"
  priority : 0 ≤ e.priority ∧ e.priority ≤ Priority.highest

/-- An operator between its operands that registering could have taken. -/
structure BinaryEntry.Registrable (e : BinaryEntry H) : Prop where
  lexable : isLexable e.symbol
  priority : 0 ≤ e.priority ∧ e.priority ≤ Priority.highest

namespace Vocabulary

variable {v v' start : Vocabulary H}

/-- The vocabulary after a registration. -/
def register (v : Vocabulary H) : Registration H → Except RegisterError (Vocabulary H)
  | .unary name priority apply => v.registerUnary name priority apply
  | .binary name priority apply => v.registerBinary name priority apply
  | .function name arity body => v.registerFunction name arity body

/-- The vocabularies that registering leads to. -/
inductive Reachable (start : Vocabulary H) : Vocabulary H → Prop
  | start : Reachable start start
  | register {v v' : Vocabulary H} (r : Registration H) :
      Reachable start v → v.register r = .ok v' → Reachable start v'

theorem checkPriority_ok {symbol : String} {priority : Int}
    (h : checkPriority symbol priority = .ok ()) : 0 ≤ priority ∧ priority ≤ Priority.highest := by
  unfold checkPriority at h
  split at h
  · assumption
  · cases h

/-- What a registration adds: an entry that no entry of that name precedes. -/
theorem registerUnary_ok {name : String} {priority : Int}
    {apply : Alignment → Value H → Except EvalError (Value H)}
    (h : v.registerUnary name priority apply = .ok v') :
    (UnaryEntry.mk (v.caseStyle.spell name) priority apply).Registrable ∧
      v.unary? (v.caseStyle.spell name) = none ∧
      v' = { v with unary := v.unary ++ [⟨v.caseStyle.spell name, priority, apply⟩] } := by
  simp only [registerUnary] at h
  split at h
  · cases h
  split at h
  · cases h
  split at h
  · cases h
  rename_i hd hl hs
  cases hp : checkPriority (v.caseStyle.spell name) priority with
  | error _ =>
    rw [hp] at h
    cases h
  | ok u =>
    rw [hp] at h
    cases h
    exact ⟨⟨by simpa using hl, hs, checkPriority_ok hp⟩, by simpa using hd, rfl⟩

theorem registerBinary_ok {name : String} {priority : Int}
    {apply : Alignment → Value H → Value H → Except EvalError (Value H)}
    (h : v.registerBinary name priority apply = .ok v') :
    (BinaryEntry.mk (v.caseStyle.spell name) priority apply).Registrable ∧
      v.binary? (v.caseStyle.spell name) = none ∧
      v' = { v with binary := v.binary ++ [⟨v.caseStyle.spell name, priority, apply⟩] } := by
  simp only [registerBinary] at h
  split at h
  · cases h
  split at h
  · cases h
  rename_i hd hl
  cases hp : checkPriority (v.caseStyle.spell name) priority with
  | error _ =>
    rw [hp] at h
    cases h
  | ok u =>
    rw [hp] at h
    cases h
    exact ⟨⟨by simpa using hl, checkPriority_ok hp⟩, by simpa using hd, rfl⟩

theorem registerFunction_ok {name : String} {arity : Arity} {body : FunctionBody H}
    (h : v.registerFunction name arity body = .ok v') :
    Text.isIdentifier (v.caseStyle.spell name) ∧ v.function? (v.caseStyle.spell name) = none ∧
      v' = { v with functions := v.functions ++ [⟨v.caseStyle.spell name, arity, body⟩] } := by
  simp only [registerFunction] at h
  split at h
  · cases h
  split at h
  · cases h
  rename_i hd hl
  cases h
  exact ⟨by simpa using hl, by simpa using hd, rfl⟩

/-- Every entry could have been registered, except for the comma. -/
structure WellFormed (v : Vocabulary H) : Prop where
  unary : ∀ e ∈ v.unary, e.Registrable
  binary : ∀ e ∈ v.binary, e.Registrable ∨ e = commaEntry
  functions : ∀ f ∈ v.functions, Text.isIdentifier f.name

theorem WellFormed.register (hv : v.WellFormed) {r : Registration H} (h : v.register r = .ok v') :
    v'.WellFormed := by
  cases r with
  | unary name priority apply =>
    obtain ⟨he, -, rfl⟩ := registerUnary_ok h
    exact ⟨List.forall_mem_append.mpr ⟨hv.unary, List.forall_mem_singleton.mpr he⟩, hv.binary,
      hv.functions⟩
  | binary name priority apply =>
    obtain ⟨he, -, rfl⟩ := registerBinary_ok h
    exact ⟨hv.unary, List.forall_mem_append.mpr ⟨hv.binary, List.forall_mem_singleton.mpr (.inl he)⟩,
      hv.functions⟩
  | function name arity body =>
    obtain ⟨hf, -, rfl⟩ := registerFunction_ok h
    exact ⟨hv.unary, hv.binary,
      List.forall_mem_append.mpr ⟨hv.functions, List.forall_mem_singleton.mpr hf⟩⟩

theorem Reachable.wellFormed (h : Reachable start v) (hs : start.WellFormed) : v.WellFormed := by
  induction h with
  | start => exact hs
  | register r _ hr ih => exact ih.register hr

/-- An operator of the vocabulary that registering began with is never replaced. -/
theorem Reachable.binary? (h : Reachable start v) {s : String} {e : BinaryEntry H}
    (he : start.binary? s = some e) : v.binary? s = some e := by
  induction h with
  | start => exact he
  | register r _ hr ih =>
    cases r with
    | unary name priority apply =>
      obtain ⟨-, -, rfl⟩ := registerUnary_ok hr
      exact ih
    | binary name priority apply =>
      obtain ⟨-, -, rfl⟩ := registerBinary_ok hr
      unfold Vocabulary.binary? at ih ⊢
      simp only [List.find?_append, ih, Option.some_or]
    | function name arity body =>
      obtain ⟨-, -, rfl⟩ := registerFunction_ok hr
      exact ih

theorem wellFormed_empty (caseStyle : CaseStyle) : (empty caseStyle : Vocabulary H).WellFormed :=
  ⟨by simp [empty], by simp [empty], by simp [empty]⟩

theorem wellFormed_builtin (caseStyle : CaseStyle) :
    (builtin caseStyle : Vocabulary H).WellFormed := by
  have hu : ∀ f ∈ namedUnaryFunctions,
      isLexable (caseStyle.spell f.1) ∧ caseStyle.spell f.1 ≠ "+" := by
    cases caseStyle <;> decide +kernel
  have hb : ∀ f ∈ binaryFunctions,
      isLexable (caseStyle.spell f.1) ∧ 0 ≤ f.2.1 ∧ f.2.1 ≤ Priority.highest := by
    cases caseStyle <;> decide +kernel
  have hf : ∀ f ∈ Builtin.all, Text.isIdentifier (caseStyle.spell f.name) := by
    cases caseStyle <;> decide +kernel
  refine ⟨?_, ?_, ?_⟩
  · intro e he
    rcases List.mem_cons.mp he with rfl | he
    · exact ⟨show isLexable "-" from by decide, show "-" ≠ "+" from by decide,
        show 0 ≤ (5 : Int) ∧ 5 ≤ Priority.highest from by decide⟩
    · obtain ⟨f, hm, rfl⟩ := List.mem_map.mp he
      exact ⟨(hu f hm).1, (hu f hm).2,
        show 0 ≤ Priority.named ∧ Priority.named ≤ Priority.highest from by decide⟩
  · intro e he
    rcases List.mem_append.mp he with he | he
    · obtain ⟨f, hm, rfl⟩ := List.mem_map.mp he
      exact .inl ⟨(hb f hm).1, (hb f hm).2⟩
    · exact .inr (List.mem_singleton.mp he)
  · intro e he
    obtain ⟨f, hm, rfl⟩ := List.mem_map.mp he
    exact hf f hm

theorem wellFormed_of_reachable {caseStyle : CaseStyle}
    (h : (builtin caseStyle).Reachable v ∨ (empty caseStyle).Reachable v) : v.WellFormed := by
  rcases h with h | h
  · exact h.wellFormed (wellFormed_builtin caseStyle)
  · exact h.wellFormed (wellFormed_empty caseStyle)

end Vocabulary

end PanelCalc
