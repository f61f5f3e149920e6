import PanelCalc.Proofs.Formula.TreeValues
import PanelCalc.Proofs.Syntax.Term
import PanelCalc.Proofs.Vocabulary.BuiltinOperators

/-! # Values of terms

A call in a term passes all of its arguments to the function at once. In the
program of the term they are appended one by one to a list, which only the call
takes apart again. The values are the same, errors included. What sets the two
apart is a first argument that is a list by itself: the others are appended to
its items. -/
namespace PanelCalc

variable {H : Type}

/-- What a call passes on: a list in the first place makes way for its items. -/
def Value.spread : List (Value H) → List (Value H)
  | .list items :: values => items ++ values
  | values => values

theorem Value.spread_cons (x : Value H) (xs : List (Value H)) :
    spread (x :: xs) = x.arguments ++ xs := by
  cases x <;> rfl

/-- Appending one by one. -/
theorem Value.arguments_foldl_append (x : Value H) (xs : List (Value H)) :
    (xs.foldl append x).arguments = spread (x :: xs) := by
  rw [spread_cons]
  induction xs generalizing x with
  | nil => exact (List.append_nil _).symm
  | cons y ys ih => rw [List.foldl_cons, ih, append, arguments, List.append_assoc]; rfl

theorem Vocabulary.applyBinary_comma {v : Vocabulary H} (hc : v.binary? "," = some commaEntry)
    (a : Alignment) (x y : Value H) : v.applyBinary a "," x y = pure (x.append y) := by
  rw [applyBinary, hc]
  rfl

variable [HostFunctions H]

/-- The answer of a called value to its arguments, the number of which is checked first. -/
def Value.answer (callee : Value H) (a : Alignment) (arguments : List (Value H)) :
    Except EvalError (Value H) :=
  match callee with
  | function entry =>
    if entry.arity.accepts arguments.length then entry.body.call a arguments
    else .error (.invalidArity entry.name entry.arity arguments.length)
  | other => .error (.notCallable other.kind.name)

theorem Value.call_eq_answer (callee x : Value H) (a : Alignment) :
    callee.call x a = callee.answer a x.arguments := by
  cases callee <;> rfl

/-- The value of a term. Operands are evaluated from left to right, a callee before
its arguments, and the first that has no value decides on the error. -/
def Term.evaluate (v : Vocabulary H) (b : Bindings H) (a : Alignment) :
    Term → Except EvalError (Value H)
  | number x => .ok (.scalar x)
  | text s => .ok (.text s)
  | name n =>
    match b.get? n with
    | some value => .ok value
    | none =>
      match v.function? n with
      | some entry => .ok (.function entry)
      | none => .error (.undefinedVariable n)
  | unary s x => do
    let x ← x.evaluate v b a
    v.applyUnary a s x
  | binary s x y => do
    let x ← x.evaluate v b a
    let y ← y.evaluate v b a
    v.applyBinary a s x y
  | call callee ts => do
    let callee ← callee.evaluate v b a
    let values ← values ts
    callee.answer a (Value.spread values)
where values : List Term → Except EvalError (List (Value H))
  | [] => .ok []
  | t :: ts => do
    let x ← t.evaluate v b a
    let xs ← values ts
    return x :: xs

variable {v : Vocabulary H} {b : Bindings H} {a : Alignment}

/-- Commas append the values of what stands between them. -/
theorem Tree.evaluate_foldl_comma (hc : v.binary? "," = some Vocabulary.commaEntry) (t : Tree)
    (ts : List Tree) : (ts.foldl (.binary ",") t).evaluate v b a = do
      let x ← t.evaluate v b a
      let xs ← ts.mapM (evaluate v b a)
      return xs.foldl Value.append x := by
  induction ts generalizing t with
  | nil => simp
  | cons u us ih =>
    simp only [List.foldl_cons, ih, evaluate, Vocabulary.applyBinary_comma hc a, List.mapM_cons,
      bind_assoc, pure_bind]

/-- The values of the arguments of a call, as the function gets them. -/
theorem Tree.evaluate_arguments (hc : v.binary? "," = some Vocabulary.commaEntry)
    (ts : List Tree) : Value.arguments <$> (arguments ts).evaluate v b a =
      Value.spread <$> ts.mapM (evaluate v b a) := by
  cases ts with
  | nil => rfl
  | cons t ts =>
    simp only [arguments, evaluate_foldl_comma hc, List.mapM_cons, map_bind, map_pure,
      Value.arguments_foldl_append]

namespace Term

theorem mapM_evaluate_trees {ts : List Term}
    (h : ∀ t ∈ ts, t.tree.evaluate v b a = t.evaluate v b a) :
    (tree.trees ts).mapM (Tree.evaluate v b a) = evaluate.values v b a ts := by
  induction ts with
  | nil => rfl
  | cons t ts ih =>
    obtain ⟨ht, hts⟩ := List.forall_mem_cons.mp h
    rw [tree.trees, List.mapM_cons, ht, ih hts, evaluate.values]

theorem evaluate_tree (hc : v.binary? "," = some Vocabulary.commaEntry) (t : Term) :
    t.tree.evaluate v b a = t.evaluate v b a := by
  induction t with
  | number | text => rfl
  | name n =>
    rw [tree, Tree.evaluate, evaluate, Vocabulary.resolve]
    cases b.get? n <;> cases v.function? n <;> rfl
  | unary s x ih => rw [tree, Tree.evaluate, ih, evaluate]
  | binary s x y ihx ihy => rw [tree, Tree.evaluate, ihx, ihy, evaluate]
  | call callee ts ihc iht =>
    have harguments := Tree.evaluate_arguments (a := a) (b := b) hc (tree.trees ts)
    rw [mapM_evaluate_trees iht] at harguments
    rw [tree, Tree.evaluate, ihc, evaluate]
    -- a callee looks only at what the list passes on, which is where the two sides agree
    refine bind_congr fun callee => ?_
    simp only [Value.call_eq_answer]
    rw [← bind_map_left Value.arguments, harguments, bind_map_left]

end Term

/-- **Compiling and running is evaluating.** Whatever was registered, running the
program of a term comes to the value of the term, or to the same error; and the
program is what the builder emits for the term, if its operators are in the tables
and it nests no deeper than priorities fit. -/
theorem Formula.evaluate_term {caseStyle : CaseStyle}
    (hv : (Vocabulary.builtin caseStyle).Reachable v) (t : Term) :
    (t.Over v.grammar → Lexeme.nesting t.source ≤ Priority.deepest →
        Builder.start.run v.grammar t.source = .ok t.program) ∧
      ∀ b a, Formula.evaluate ⟨t.program, v⟩ b a = t.evaluate v b a := by
  have hw := hv.wellFormed (Vocabulary.wellFormed_builtin caseStyle)
  refine ⟨fun ht hn => ht.run_source hw.sound hn, fun b a => ?_⟩
  rw [Term.program, evaluate_postorder,
    Term.evaluate_tree (hv.binary? (Vocabulary.binary?_comma caseStyle))]

/-- What `If(x, Max(3, 4))` says. -/
def selectFromX : Term :=
  .call (.name "If") [.name "x", .call (.name "Max") [.number 3, .number 4]]

/-- Two of three arguments come from the list that a name is bound to. -/
theorem Formula.evaluate_term_selectFromX :
    Builder.start.run (Vocabulary.builtin .upper : Vocabulary Empty).grammar selectFromX.source =
        .ok [.var "If", .var "x", .var "Max", .literal (.number 3), .literal (.number 4),
          .binary ",", .call, .binary ",", .call] ∧
      Formula.evaluate (H := Empty) ⟨selectFromX.program, .builtin .upper⟩
        ⟨[("x", .list [.scalar 1, .scalar 2])]⟩ .never = .ok (.scalar 2) := by
  have hv : (Vocabulary.builtin .upper : Vocabulary Empty).Reachable (.builtin .upper) := .start
  obtain ⟨hrun, hvalue⟩ := evaluate_term hv selectFromX
  have hover : selectFromX.Over (Vocabulary.builtin .upper : Vocabulary Empty).grammar :=
    .call (.name _) (by simp [Term.Over.name, Term.Over.number, Term.Over.call])
  have hselect : Cell.select 1 2 4 = 2 := by decide
  refine ⟨hrun hover (by decide), (hvalue _ _).trans ?_⟩
  rw [← hselect]
  rfl

end PanelCalc
