import PanelCalc.Formula.Eval
import PanelCalc.Proofs.Evaluation.Simulation
import PanelCalc.Proofs.Vocabulary.BuiltinOperators

/-! # Two evaluations side by side

Two evaluations of one formula over the built-in vocabulary follow each other
as long as a simulation does, with bindings that match and a program that names
no other built-in functions than the allowed ones. -/
namespace PanelCalc

variable {H : Type} {strict : Prop} {allowed : Builtin → Prop} {R : Panel → Panel → Prop}
  {a a' : Alignment} {b b' : Bindings H} {caseStyle : CaseStyle}

/-- Every built-in function that a program names is allowed. -/
def Program.Allowed (caseStyle : CaseStyle) (allowed : Builtin → Prop) (p : Program) : Prop :=
  ∀ f : Builtin, .var (caseStyle.spell f.name) ∈ p → allowed f

namespace Vocabulary

theorem resolve_follows (hb : b.Matches allowed R b') {name : String}
    (hn : ∀ f : Builtin, caseStyle.spell f.name = name → allowed f) :
    Follows strict (Value.Matches allowed R) ((builtin caseStyle).resolve b name)
      ((builtin caseStyle).resolve b' name) := by
  unfold resolve
  have h := hb name
  generalize b.get? name = bound, b'.get? name = bound' at h
  cases h with
  | some h => exact .ok h
  | none =>
    cases hf : (builtin caseStyle).function? name with
    | none => exact .error
    | some e =>
      obtain ⟨f, -, rfl⟩ := List.mem_map.mp (List.mem_of_find?_eq_some hf)
      exact .ok (.function rfl (hn f (by simpa using List.find?_some hf)))

theorem cellUnary_follows (h : Simulation strict allowed R a a') (name : String)
    (f : Float → Float) {x x' : Value H} (hx : Value.Matches allowed R x x') :
    Follows strict (Value.Matches allowed R) (cellUnary name f a x) (cellUnary name f a' x') :=
  h.cellwise _ _ (.cons hx .nil)

theorem cellBinary_follows (h : Simulation strict allowed R a a') (name : String)
    (f : Float → Float → Float) {x x' y y' : Value H} (hx : Value.Matches allowed R x x')
    (hy : Value.Matches allowed R y y') :
    Follows strict (Value.Matches allowed R) (cellBinary name f a x y)
      (cellBinary name f a' x' y') :=
  h.cellwise _ _ (.cons hx (.cons hy .nil))

theorem applyUnary_follows (h : Simulation strict allowed R a a') (symbol : String)
    {x x' : Value H} (hx : Value.Matches allowed R x x') :
    Follows strict (Value.Matches allowed R) ((builtin caseStyle).applyUnary a symbol x)
      ((builtin caseStyle).applyUnary a' symbol x') := by
  unfold applyUnary
  cases hs : (builtin caseStyle : Vocabulary H).unary? symbol with
  | none => exact .error
  | some e =>
    obtain ⟨name, f, he⟩ := apply_of_mem_unary (List.mem_of_find?_eq_some hs)
    simp only [he]
    exact cellUnary_follows h name f hx

theorem applyBinary_follows (h : Simulation strict allowed R a a') (symbol : String)
    {x x' y y' : Value H} (hx : Value.Matches allowed R x x') (hy : Value.Matches allowed R y y') :
    Follows strict (Value.Matches allowed R) ((builtin caseStyle).applyBinary a symbol x y)
      ((builtin caseStyle).applyBinary a' symbol x' y') := by
  unfold applyBinary
  cases hs : (builtin caseStyle : Vocabulary H).binary? symbol with
  | none => exact .error
  | some e =>
    rcases apply_of_mem_binary (List.mem_of_find?_eq_some hs) with rfl | ⟨name, f, he⟩
    · exact .ok (hx.append hy)
    · simp only [he]
      exact cellBinary_follows h name f hx hy

end Vocabulary

theorem Literal.value_matches (l : Literal) :
    Value.Matches allowed R (l.value : Value H) l.value := by
  cases l with
  | number x => exact .scalar x
  | text s => exact .text s
  | noArguments => exact .list .nil

variable [HostFunctions H]

theorem Value.call_follows (h : Simulation strict allowed R a a') {callee callee' x x' : Value H}
    (hc : Value.Matches allowed R callee callee') (hx : Value.Matches allowed R x x') :
    Follows strict (Value.Matches allowed R) (callee.call x a) (callee'.call x' a') := by
  cases hc with
  | @function e f he hf =>
    simp only [call, FunctionEntry.invoke, he, FunctionBody.call, hx.arguments.length_eq]
    split
    · exact h.call f hf hx.arguments
    · exact .error
  | _ => exact .error

/-- A step keeps stacks side by side. -/
theorem Step.run_follows (h : Simulation strict allowed R a a') (hb : b.Matches allowed R b')
    {step : Step} (hs : ∀ f : Builtin, step = .var (caseStyle.spell f.name) → allowed f)
    {stack stack' : List (Value H)} (hv : List.Forall₂ (Value.Matches allowed R) stack stack') :
    Follows strict (List.Forall₂ (Value.Matches allowed R))
      (Step.run (Vocabulary.builtin caseStyle) b a stack step)
      (Step.run (Vocabulary.builtin caseStyle) b' a' stack' step) := by
  have push {x x' : Except EvalError (Value H)} {rest rest' : List (Value H)}
      (hx : Follows strict (Value.Matches allowed R) x x')
      (hr : List.Forall₂ (Value.Matches allowed R) rest rest') :
      Follows strict (List.Forall₂ (Value.Matches allowed R)) (return (← x) :: rest)
        (return (← x') :: rest') :=
    hx.bind fun _ _ h => .ok (.cons h hr)
  cases step with
  | literal l => exact .ok (.cons l.value_matches hv)
  | var name => exact push (Vocabulary.resolve_follows hb fun f hf => hs f (by rw [hf])) hv
  | unary symbol =>
    cases hv with
    | nil => exact .error
    | cons hx hv => exact push (Vocabulary.applyUnary_follows h symbol hx) hv
  | binary symbol =>
    rcases hv with _ | ⟨hy, _ | ⟨hx, hv⟩⟩
    · exact .error
    · exact .error
    · exact push (Vocabulary.applyBinary_follows h symbol hx hy) hv
  | call =>
    rcases hv with _ | ⟨hx, _ | ⟨hc, hv⟩⟩
    · exact .error
    · exact .error
    · exact push (Value.call_follows h hc hx) hv

/-- A run keeps stacks side by side. -/
theorem Program.run_follows (h : Simulation strict allowed R a a') (hb : b.Matches allowed R b')
    {p : Program} (hp : p.Allowed caseStyle allowed) {stack stack' : List (Value H)}
    (hv : List.Forall₂ (Value.Matches allowed R) stack stack') :
    Follows strict (List.Forall₂ (Value.Matches allowed R))
      (p.foldlM (Step.run (Vocabulary.builtin caseStyle) b a) stack)
      (p.foldlM (Step.run (Vocabulary.builtin caseStyle) b' a') stack') :=
  Follows.foldlM (fun _ hm _ _ => Step.run_follows h hb fun f hf => hp f (hf ▸ hm)) hv

namespace Formula

/-- **Evaluations follow each other** over the built-in vocabulary. -/
theorem evaluate_follows (h : Simulation strict allowed R a a') (hb : b.Matches allowed R b')
    {program : Program} (hp : program.Allowed caseStyle allowed) :
    Follows strict (Value.Matches allowed R)
      (evaluate ⟨program, Vocabulary.builtin caseStyle⟩ b a)
      (evaluate ⟨program, Vocabulary.builtin caseStyle⟩ b' a') := by
  refine (Program.run_follows h hb hp .nil).bind ?_
  intro stack stack' hv
  rcases hv with _ | ⟨hx, _ | ⟨hy, hv⟩⟩
  · exact .error
  · exact .ok hx
  · show Follows strict _ (.error (EvalError.parity (_ + 2))) (.error (EvalError.parity (_ + 2)))
    rw [hv.length_eq]
    exact .error

/-- Where all functions are allowed, a program may name any. -/
theorem evaluate_alike (h : Simulation True (fun _ => True) R a a') (hb : b.Alike R b')
    (program : Program) :
    Alike (Value.Alike R) (evaluate ⟨program, Vocabulary.builtin caseStyle⟩ b a)
      (evaluate ⟨program, Vocabulary.builtin caseStyle⟩ b' a') :=
  evaluate_follows h hb fun _ _ => trivial

end Formula

end PanelCalc
