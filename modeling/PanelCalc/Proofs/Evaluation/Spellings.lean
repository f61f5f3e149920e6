import PanelCalc.Proofs.Evaluation.Invariants
import PanelCalc.Proofs.Formula.TreeValues
import PanelCalc.Proofs.Vocabulary.Spellings

/-! # Evaluating in lower case

A built-in function does the same under either of its names, and so does an
operator. What they do depends on numbers and panels only: of a function among
their arguments they see no more than that it is one. So a tree with its built-in
names in lower case has the value it had before, in which a function may go by
its other name, and fails where it failed before. An error tells the name of a
function only if the number of its arguments is wrong. -/
namespace PanelCalc

open Vocabulary

variable {H : Type}

/-- A value and what it is in lower case: the same one, but for the names of functions. -/
inductive Value.Respelled : Value H → Value H → Prop
  | scalar (x) : Respelled (.scalar x) (.scalar x)
  | panel (p) : Respelled (.panel p) (.panel p)
  | text (s) : Respelled (.text s) (.text s)
  | list {xs ys} : List.Forall₂ Respelled xs ys → Respelled (.list xs) (.list ys)
  | function (f : Builtin) :
      Respelled (.function (builtinEntry .upper f)) (.function (builtinEntry .lower f))

/-- What an error is in lower case. -/
def EvalError.respell : EvalError → EvalError
  | invalidArity name expected actual => invalidArity (lowerName name) expected actual
  | other => other

/-- Two answers: related results, or an error and what it is in lower case. -/
abbrev Respells {α β : Type} (R : α → β → Prop) (x : Except EvalError α) (y : Except EvalError β) :
    Prop :=
  Alike R (x.mapError EvalError.respell) y

namespace Respells

variable {α β α' β' : Type} {R : α → β → Prop} {S : α' → β' → Prop}

theorem bind {x : Except EvalError α} {y : Except EvalError β} {f : α → Except EvalError α'}
    {g : β → Except EvalError β'} (h : Respells R x y) (hf : ∀ a b, R a b → Respells S (f a) (g b)) :
    Respells S (x >>= f) (y >>= g) := by
  have hbind : (x >>= f).mapError EvalError.respell =
      x.mapError EvalError.respell >>= fun a => (f a).mapError EvalError.respell := by
    cases x <;> rfl
  rw [Respells, hbind]
  exact Follows.bind h hf

/-- After the same result only the rest matters. -/
theorem bind_eq {x y : Except EvalError α} {f : α → Except EvalError α'}
    {g : α → Except EvalError β'} (h : Respells Eq x y) (hf : ∀ a, Respells S (f a) (g a)) :
    Respells S (x >>= f) (y >>= g) :=
  bind h fun a _ hab => hab ▸ hf a

theorem mapM {f : α → Except EvalError α'} {g : β → Except EvalError α'} {xs : List α}
    {ys : List β} (h : List.Forall₂ R xs ys) (hf : ∀ a b, R a b → Respells Eq (f a) (g b)) :
    Respells Eq (xs.mapM f) (ys.mapM g) := by
  induction h with
  | nil => exact .ok rfl
  | cons h _ ih =>
    rw [List.mapM_cons, List.mapM_cons]
    exact (hf _ _ h).bind_eq fun a => ih.bind_eq fun as => .ok rfl

/-- Errors about shapes name no function. -/
theorem shape (x : Except ShapeError α) :
    Respells Eq (x.mapError EvalError.shape) (x.mapError EvalError.shape) := by
  cases x with
  | ok a => exact .ok rfl
  | error e => exact .error

theorem conform {a : Alignment} {reference : Panel} (x : Operand) :
    Respells Eq (x.conform a reference) (x.conform a reference) := by
  cases x with
  | scalar x => exact .ok rfl
  | panel p => exact shape _

end Respells

/-! ## Arguments -/

namespace Value.Respelled

variable {x y : Value H}

theorem arguments (h : Respelled x y) : List.Forall₂ Respelled x.arguments y.arguments := by
  cases h with
  | list h => exact h
  | scalar x => exact .cons (.scalar x) .nil
  | panel p => exact .cons (.panel p) .nil
  | text s => exact .cons (.text s) .nil
  | function f => exact .cons (.function f) .nil

theorem append {x' y' : Value H} (h : Respelled x y) (h' : Respelled x' y') :
    Respelled (x.append x') (y.append y') :=
  .list (List.rel_append h.arguments (.cons h' .nil))

theorem toScalar (h : Respelled x y) (name : String) :
    Respells Eq (x.toScalar name) (y.toScalar name) := by
  cases h with
  | scalar x => exact .ok rfl
  | _ => exact .error

theorem toPanel (h : Respelled x y) (name : String) :
    Respells Eq (x.toPanel name) (y.toPanel name) := by
  cases h with
  | panel p => exact .ok rfl
  | _ => exact .error

theorem toWindow (h : Respelled x y) (name : String) :
    Respells Eq (x.toWindow name) (y.toWindow name) := by
  refine (h.toScalar name).bind_eq fun length => ?_
  split
  · exact .ok rfl
  · exact .error

theorem toShift (h : Respelled x y) (name : String) :
    Respells Eq (x.toShift name) (y.toShift name) := by
  refine (h.toScalar name).bind_eq fun distance => ?_
  split
  · exact .ok rfl
  · exact .error

theorem ofValue {a : Alignment} (h : Respelled x y) (name : String) :
    Respells Eq (Operand.ofValue a name x) (Operand.ofValue a name y) := by
  cases h with
  | scalar x => exact .ok rfl
  | panel p => exact Respells.shape _
  | _ => exact .error

end Value.Respelled

/-! ## Operators and functions -/

variable {a : Alignment}

theorem cellwise_respelled (name : String) {xs ys : List (Value H)} (f : List Float → Float)
    (h : List.Forall₂ Value.Respelled xs ys) :
    Respells Value.Respelled (cellwise a name xs f) (cellwise a name ys f) := by
  unfold cellwise
  refine (Respells.mapM h fun x y hxy => hxy.ofValue name).bind_eq fun operands => ?_
  split
  · exact .ok (.scalar _)
  · refine Respells.bind_eq (Respells.mapM (List.forall₂_same.mpr fun _ _ => rfl) ?_) fun _ => ?_
    · rintro x _ rfl
      exact Respells.conform x
    · exact .ok (.panel _)

theorem Vocabulary.cellUnary_respelled (name : String) (f : Float → Float) {x y : Value H}
    (h : x.Respelled y) : Respells Value.Respelled (cellUnary name f a x) (cellUnary name f a y) :=
  cellwise_respelled _ _ (.cons h .nil)

theorem Vocabulary.cellBinary_respelled (name : String) (f : Float → Float → Float)
    {x x' y y' : Value H} (h : x.Respelled y) (h' : x'.Respelled y') :
    Respells Value.Respelled (cellBinary name f a x x') (cellBinary name f a y y') :=
  cellwise_respelled _ _ (.cons h (.cons h' .nil))

/-- A built-in function answers the same to arguments that differ in names, if it takes as many. -/
theorem Builtin.call_respelled (f : Builtin) {xs ys : List (Value H)}
    (h : List.Forall₂ Value.Respelled xs ys) (hl : xs.length = f.argumentCount) :
    Respells Value.Respelled (f.call a xs) (f.call a ys) := by
  have rebased (p : Panel) : Respells Eq (rebased a p) (rebased a p) := .shape _
  cases f with
  | cellwise g =>
    have hl : xs.length = g.argumentCount := hl
    simp only [call]
    rw [if_pos hl, if_pos (h.length_eq.symm.trans hl)]
    exact cellwise_respelled _ _ h
  | rolling g =>
    obtain ⟨x, n, y, m, rfl, rfl, hx, hn⟩ := two_of_length h hl
    exact (hn.toWindow _).bind_eq fun _ => (hx.toPanel _).bind_eq fun _ => .ok (.panel _)
  | rollingPair g =>
    obtain ⟨x, x', n, y, y', m, rfl, rfl, hx, hx', hn⟩ := three_of_length h hl
    refine (hn.toWindow _).bind_eq fun _ => (hx.toPanel _).bind_eq fun p => ?_
    exact (hx'.toPanel _).bind_eq fun q => (Respells.shape _).bind_eq fun _ => .ok (.panel _)
  | shifted g =>
    obtain ⟨x, n, y, m, rfl, rfl, hx, hn⟩ := two_of_length h hl
    exact (hn.toShift _).bind_eq fun _ => (hx.toPanel _).bind_eq fun _ => .ok (.panel _)
  | exponentialDecay =>
    obtain ⟨x, factor, n, y, factor', m, rfl, rfl, hx, hf, hn⟩ := three_of_length h hl
    refine (hn.toWindow _).bind_eq fun _ => (hf.toScalar _).bind_eq fun _ => ?_
    exact (hx.toPanel _).bind_eq fun _ => .ok (.panel _)
  | step =>
    obtain ⟨x, n, y, m, rfl, rfl, hx, hn⟩ := two_of_length h hl
    exact (hn.toScalar _).bind_eq fun _ => (hx.toPanel _).bind_eq fun _ => .ok (.panel _)
  | rank =>
    obtain ⟨x, y, rfl, rfl, hx⟩ := one_of_length h hl
    exact (hx.toPanel _).bind_eq fun p => (rebased p).bind_eq fun _ => .ok (.panel _)
  | groupRank | conditionRank =>
    obtain ⟨x, x', y, y', rfl, rfl, hx, hx'⟩ := two_of_length h hl
    refine (hx.toPanel _).bind_eq fun p => (rebased p).bind_eq fun _ => ?_
    exact (hx'.toPanel _).bind_eq fun q => (Respells.shape _).bind_eq fun _ => .ok (.panel _)

/-! ## Trees -/

/-- What the step names is built in, in capitals, or it is not built in under any spelling. -/
def Step.Named : Step → Prop
  | var name => (∃ f : Builtin, f.name = name) ∨ Foreign name
  | unary symbol => symbol = "-" ∨ ∃ f ∈ namedUnaryFunctions, f.1 = symbol
  | literal _ | binary _ | call => True

/-- Bindings that give no value to a built-in name in either spelling. -/
def Bindings.Clear (b : Bindings H) : Prop :=
  ∀ style : CaseStyle, ∀ n ∈ builtinNames, b.get? (style.spell n) = none

theorem Literal.value_respelled (l : Literal) : (l.value : Value H).Respelled l.value := by
  cases l with
  | number x => exact .scalar x
  | text s => exact .text s
  | noArguments => exact .list .nil

namespace Vocabulary

variable {b : Bindings H} {name symbol : String} {x y : Value H}

theorem resolve_respelled (hb : b.Over fun _ => True) (hclear : b.Clear)
    (hn : (Step.var name).Named) :
    Respells Value.Respelled ((builtin .upper).resolve b name)
      ((builtin .lower).resolve b (lowerName name)) := by
  rcases hn with ⟨f, rfl⟩ | hforeign
  · have hm := mem_builtinNames_of_function f
    have hupper : (builtin .upper).resolve b f.name = .ok (.function (builtinEntry .upper f)) := by
      have hfree : b.get? f.name = none := hclear .upper _ hm
      have hentry : (builtin .upper : Vocabulary H).function? f.name =
          some (builtinEntry .upper f) :=
        function?_builtin .upper f
      simp only [resolve, hfree, hentry]
    have hlower : (builtin .lower).resolve b (lowerName f.name) =
        .ok (.function (builtinEntry .lower f)) := by
      simp only [resolve, lowerName_of_mem hm, hclear .lower _ hm, function?_builtin]
    rw [hupper, hlower]
    exact .ok (.function f)
  · rw [lowerName_of_foreign hforeign]
    simp only [resolve, hforeign.function?]
    cases hv : b.get? name with
    | none => exact .error
    | some value =>
      rcases hb name value hv with ⟨x, rfl⟩ | ⟨p, rfl, -⟩
      · exact .ok (.scalar x)
      · exact .ok (.panel p)

theorem applyUnary_builtin (style : CaseStyle) {f : String × (Float → Float)}
    (hf : f ∈ namedUnaryFunctions) (x : Value H) :
    (builtin style).applyUnary a (style.spell f.1) x = cellUnary f.1 f.2 a x := by
  simp only [applyUnary, unary?_builtin style hf]

theorem applyUnary_respelled (hs : (Step.unary symbol).Named) (h : x.Respelled y) :
    Respells Value.Respelled ((builtin .upper).applyUnary a symbol x)
      ((builtin .lower).applyUnary a (lowerName symbol) y) := by
  rcases hs with rfl | ⟨f, hf, rfl⟩
  · rw [show lowerName "-" = "-" from renames_lowerName (H := H).sign]
    exact cellUnary_respelled "-" (- ·) h
  · have hupper : (builtin .upper).applyUnary a f.1 x = cellUnary f.1 f.2 a x :=
      applyUnary_builtin .upper hf x
    rw [hupper, lowerName_of_mem (mem_builtinNames_of_unary hf), applyUnary_builtin .lower hf]
    exact cellUnary_respelled f.1 f.2 h

theorem applyBinary_respelled {x' y' : Value H} (h : x.Respelled y) (h' : x'.Respelled y') :
    Respells Value.Respelled ((builtin .upper).applyBinary a symbol x x')
      ((builtin .lower).applyBinary a symbol y y') := by
  unfold applyBinary
  rw [binary?_lower]
  cases hs : (builtin .upper : Vocabulary H).binary? symbol with
  | none => exact .error
  | some e =>
    rcases apply_of_mem_binary (List.mem_of_find?_eq_some hs) with rfl | ⟨name, f, he⟩
    · exact .ok (h.append h')
    · simp only [he]
      exact cellBinary_respelled name f h h'

end Vocabulary

section Calls

variable [HostFunctions H]

theorem FunctionEntry.invoke_builtinEntry (style : CaseStyle) (f : Builtin) (xs : List (Value H)) :
    (builtinEntry style f).invoke a xs = if xs.length = f.argumentCount then f.call a xs else
      .error (.invalidArity (style.spell f.name) (.exact f.argumentCount) xs.length) := by
  by_cases hl : xs.length = f.argumentCount
  · exact (if_pos (beq_iff_eq.mpr hl)).trans (if_pos hl).symm
  · exact (if_neg (mt beq_iff_eq.mp hl)).trans (if_neg hl).symm

theorem FunctionEntry.invoke_respelled (f : Builtin) {xs ys : List (Value H)}
    (h : List.Forall₂ Value.Respelled xs ys) :
    Respells Value.Respelled ((builtinEntry .upper f).invoke a xs)
      ((builtinEntry .lower f).invoke a ys) := by
  rw [invoke_builtinEntry, invoke_builtinEntry, ← h.length_eq,
    ← lowerName_of_mem (mem_builtinNames_of_function f)]
  split
  · exact f.call_respelled h ‹_›
  · exact .error

theorem Value.call_respelled {callee callee' x y : Value H} (hc : callee.Respelled callee')
    (h : x.Respelled y) :
    Respells Value.Respelled (callee.call x a) (callee'.call y a) := by
  cases hc with
  | function f => exact FunctionEntry.invoke_respelled f h.arguments
  | _ => exact .error

/-- **A tree in lower case** has the value of the tree, or its error, in lower case. -/
theorem Tree.evaluate_rename {b : Bindings H} (hb : b.Over fun _ => True) (hclear : b.Clear)
    (t : Tree) (ht : ∀ step ∈ t.postorder, step.Named) :
    Respells Value.Respelled (t.evaluate (builtin .upper) b a)
      ((t.rename lowerName).evaluate (builtin .lower) b a) := by
  induction t with
  | literal value => exact .ok value.value_respelled
  | name n => exact resolve_respelled hb hclear (ht _ (.head _))
  | unary s x ih =>
    simp only [postorder, List.forall_mem_append, List.forall_mem_singleton] at ht
    exact (ih ht.1).bind fun _ _ => applyUnary_respelled ht.2
  | binary s x y ihx ihy =>
    simp only [postorder, List.forall_mem_append] at ht
    refine (ihx ht.1.1).bind fun _ _ hx => (ihy ht.1.2).bind fun _ _ hy => ?_
    exact applyBinary_respelled hx hy
  | call callee x ihc ihx =>
    simp only [postorder, List.forall_mem_append] at ht
    refine (ihc ht.1.1).bind fun _ _ hc => (ihx ht.1.2).bind fun _ _ hx => ?_
    exact Value.call_respelled hc hx

end Calls

end PanelCalc
