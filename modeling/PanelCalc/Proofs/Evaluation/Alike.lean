import PanelCalc.Bindings
import PanelCalc.Builtin.Call
import PanelCalc.Proofs.Evaluation.Answers

/-! # Values side by side

A relation between panels extends to values, to operands and to bindings: they
differ in their panels only. What steers a function is a number and the same on
both sides, and so is the kind of every argument. -/
namespace PanelCalc

variable {H : Type} {allowed : Builtin → Prop} {R : Panel → Panel → Prop}

/-- Two values that differ in their panels only, and these as a relation allows.
Functions among them are allowed ones that are built in. -/
inductive Value.Matches (allowed : Builtin → Prop) (R : Panel → Panel → Prop) :
    Value H → Value H → Prop
  | scalar (x) : Matches allowed R (.scalar x) (.scalar x)
  | panel {p q} : R p q → Matches allowed R (.panel p) (.panel q)
  | text (s) : Matches allowed R (.text s) (.text s)
  | list {xs ys} : List.Forall₂ (Matches allowed R) xs ys → Matches allowed R (.list xs) (.list ys)
  | function {e f} : e.body = .builtin f → allowed f → Matches allowed R (.function e) (.function e)

/-- Two values that differ in their panels only, whatever functions there are. -/
abbrev Value.Alike (R : Panel → Panel → Prop) : Value H → Value H → Prop :=
  Value.Matches (fun _ => True) R

/-- Two operands that differ in their panels only. -/
inductive Operand.Alike (R : Panel → Panel → Prop) : Operand → Operand → Prop
  | scalar (x) : Alike R (.scalar x) (.scalar x)
  | panel {p q} : R p q → Alike R (.panel p) (.panel q)

/-- Two bindings of the same names to values that match. -/
def Bindings.Matches (allowed : Builtin → Prop) (R : Panel → Panel → Prop) (b b' : Bindings H) :
    Prop :=
  ∀ name, Option.Rel (Value.Matches allowed R) (b.get? name) (b'.get? name)

/-- Two bindings of the same names to values that are alike. -/
abbrev Bindings.Alike (R : Panel → Panel → Prop) (b b' : Bindings H) : Prop :=
  b.Matches (fun _ => True) R b'

namespace Value.Matches

variable {strict : Prop} {x y : Value H}

theorem kind (h : Value.Matches allowed R x y) : x.kind = y.kind := by
  cases h <;> rfl

theorem arguments (h : Value.Matches allowed R x y) :
    List.Forall₂ (Value.Matches allowed R) x.arguments y.arguments := by
  cases h with
  | list h => exact h
  | scalar x => exact .cons (.scalar x) .nil
  | panel h => exact .cons (.panel h) .nil
  | text s => exact .cons (.text s) .nil
  | function h hf => exact .cons (.function h hf) .nil

theorem append {x' y' : Value H} (h : Value.Matches allowed R x y)
    (h' : Value.Matches allowed R x' y') :
    Value.Matches allowed R (x.append x') (y.append y') :=
  .list (List.rel_append h.arguments (.cons h' .nil))

theorem toScalar (h : Value.Matches allowed R x y) (name : String) :
    Follows strict Eq (x.toScalar name) (y.toScalar name) := by
  cases h with
  | scalar x => exact .ok rfl
  | _ => exact .error

theorem toPanel (h : Value.Matches allowed R x y) (name : String) :
    Follows strict R (x.toPanel name) (y.toPanel name) := by
  cases h with
  | panel h => exact .ok h
  | _ => exact .error

/-- A window is not empty. -/
theorem toWindow (h : Value.Matches allowed R x y) (name : String) :
    Follows strict (fun n m => n = m ∧ 0 < n) (x.toWindow name) (y.toWindow name) := by
  refine (h.toScalar name).bind ?_
  rintro length _ rfl
  split
  · exact .ok ⟨rfl, Nat.succ_pos _⟩
  · exact .error

theorem toShift (h : Value.Matches allowed R x y) (name : String) :
    Follows strict Eq (x.toShift name) (y.toShift name) := by
  refine (h.toScalar name).bind ?_
  rintro distance _ rfl
  exact .of_eq rfl

end Value.Matches

section Imp

variable {S : Panel → Panel → Prop}

mutual

theorem Value.Matches.imp (hR : ∀ p q, R p q → S p q) :
    ∀ {x y : Value H}, Value.Matches allowed R x y → Value.Matches allowed S x y
  | .scalar _, _, .scalar x => .scalar x
  | .panel _, _, .panel h => .panel (hR _ _ h)
  | .text _, _, .text s => .text s
  | .list _, _, .list h => .list (Value.Matches.imp_items hR h)
  | .function _, _, .function h hf => .function h hf

theorem Value.Matches.imp_items (hR : ∀ p q, R p q → S p q) :
    ∀ {xs ys : List (Value H)}, List.Forall₂ (Value.Matches allowed R) xs ys →
      List.Forall₂ (Value.Matches allowed S) xs ys
  | [], _, .nil => .nil
  | _ :: _, _, .cons h hs => .cons (Value.Matches.imp hR h) (Value.Matches.imp_items hR hs)

end

end Imp

namespace Operand

variable {S : Panel → Panel → Prop} {xs ys : List Operand}

/-- Operands contribute the same numbers where their panels have the same cells. -/
theorem map_cell_congr {row col row' col' : Nat} (h : List.Forall₂ (Operand.Alike R) xs ys)
    (hR : ∀ p q, R p q → p.cell row col = q.cell row' col') :
    xs.map (·.cell row col) = ys.map (·.cell row' col') := by
  induction h with
  | nil => rfl
  | cons h _ ih =>
    rw [List.map_cons, List.map_cons, ih]
    cases h with
    | scalar x => rfl
    | panel h => exact congrArg (· :: _) (hR _ _ h)

theorem panels_alike (h : List.Forall₂ (Operand.Alike R) xs ys) :
    List.Forall₂ R (xs.filterMap panel?) (ys.filterMap panel?) := by
  induction h with
  | nil => exact .nil
  | cons h _ ih =>
    cases h with
    | scalar x => exact ih
    | panel h => exact .cons h ih

/-- Without any panel there are only scalars. -/
theorem scalars_alike (h : List.Forall₂ (Operand.Alike R) xs ys) (hn : xs.filterMap panel? = []) :
    List.Forall₂ (Operand.Alike S) xs ys := by
  induction h with
  | nil => exact .nil
  | cons h _ ih =>
    cases h with
    | scalar x => exact .cons (.scalar x) (ih hn)
    | panel h => cases hn

end Operand

/-! ## Lists of arguments -/

namespace Builtin

variable {xs ys : List (Value H)}

theorem refuse_follows {strict : Prop} (f : Builtin)
    (h : List.Forall₂ (Value.Matches allowed R) xs ys) :
    Follows strict (Value.Matches allowed R) (f.refuse xs) (f.refuse ys) := by
  rw [refuse, refuse, h.length_eq]
  exact .error

/-- Any other number of arguments is refused. -/
theorem call_of_length_ne {alignment : Alignment} (f : Builtin) {arguments : List (Value H)}
    (h : arguments.length ≠ f.argumentCount) : f.call alignment arguments = f.refuse arguments := by
  cases f with
  | cellwise g => exact if_neg h
  | rank =>
    rcases arguments with _ | ⟨_, _ | _⟩
    · rfl
    · exact absurd rfl h
    · rfl
  | rollingPair _ | exponentialDecay =>
    rcases arguments with _ | ⟨_, _ | ⟨_, _ | ⟨_, _ | _⟩⟩⟩
    · rfl
    · rfl
    · rfl
    · exact absurd rfl h
    · rfl
  | _ =>
    rcases arguments with _ | ⟨_, _ | ⟨_, _ | _⟩⟩
    · rfl
    · rfl
    · exact absurd rfl h
    · rfl

section Lengths

variable {α β : Type} {S : α → β → Prop} {as : List α} {bs : List β}

theorem one_of_length (h : List.Forall₂ S as bs) (hl : as.length = 1) :
    ∃ x y, as = [x] ∧ bs = [y] ∧ S x y := by
  rcases h with _ | ⟨hx, _ | _⟩
  · cases hl
  · exact ⟨_, _, rfl, rfl, hx⟩
  · cases hl

theorem two_of_length (h : List.Forall₂ S as bs) (hl : as.length = 2) :
    ∃ x x' y y', as = [x, x'] ∧ bs = [y, y'] ∧ S x y ∧ S x' y' := by
  rcases h with _ | ⟨hx, h⟩
  · cases hl
  · obtain ⟨x', y', rfl, rfl, hx'⟩ := one_of_length h (by simpa using hl)
    exact ⟨_, _, _, _, rfl, rfl, hx, hx'⟩

theorem three_of_length (h : List.Forall₂ S as bs) (hl : as.length = 3) :
    ∃ x x' x'' y y' y'', as = [x, x', x''] ∧ bs = [y, y', y''] ∧ S x y ∧ S x' y' ∧ S x'' y'' := by
  rcases h with _ | ⟨hx, h⟩
  · cases hl
  · obtain ⟨x', x'', y', y'', rfl, rfl, hx', hx''⟩ := two_of_length h (by simpa using hl)
    exact ⟨_, _, _, _, _, _, rfl, rfl, hx, hx', hx''⟩

end Lengths

end Builtin

end PanelCalc
