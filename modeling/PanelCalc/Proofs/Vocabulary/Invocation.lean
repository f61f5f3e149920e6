import PanelCalc.Proofs.Formula.TermValues
import PanelCalc.Proofs.Lexeme.Scanning

/-! # Calls of functions by their names

The text of a call lists names between parentheses, with a comma between two of
them. It is read as a call of the function of its name, whatever the number of
arguments and whether or not the vocabulary has a comma. Evaluating it needs the
comma as soon as there are two arguments. -/
namespace PanelCalc

variable {H : Type} {v : Vocabulary H} {name x : String} {arguments : List String}

namespace Vocabulary

/-- A call as it is written: `f(x,y,z)`. -/
def invocation (name : String) (arguments : List String) : String :=
  name ++ "(" ++ ",".intercalate arguments ++ ")"

/-- The lexemes between the parentheses of a call. -/
def argumentLexemes : List String → List Lexeme
  | [] => []
  | x :: xs => .identifier x :: Term.source.others (xs.map .name)

/-- The tree of a call. -/
def invocationTree (name : String) (arguments : List String) : Tree :=
  .call (.name name) (.arguments (arguments.map .name))

theorem spellings_argumentLexemes (arguments : List String) :
    (argumentLexemes arguments).flatMap Lexeme.spelling = (",".intercalate arguments).toList := by
  cases arguments with
  | nil => rfl
  | cons x xs =>
    induction xs generalizing x with
    | nil => simp [argumentLexemes, Term.source.others, Lexeme.spelling]
    | cons y ys ih =>
      rw [String.intercalate_cons_cons, String.toList_append, String.toList_append, ← ih]
      simp [argumentLexemes, Term.source.others, Term.source, Lexeme.spelling]

theorem spells_argumentLexemes (ha : ∀ x ∈ arguments, v.Knows (.identifier x)) :
    ∀ l ∈ argumentLexemes arguments, v.Spells l := by
  cases arguments with
  | nil => simp [argumentLexemes]
  | cons x xs =>
    obtain ⟨hx, hxs⟩ := List.forall_mem_cons.mp ha
    refine List.forall_mem_cons.mpr ⟨⟨hx, trivial⟩, ?_⟩
    clear ha hx
    induction xs with
    | nil => simp [Term.source.others]
    | cons y ys ih =>
      obtain ⟨hy, hys⟩ := List.forall_mem_cons.mp hxs
      simp only [List.map_cons, Term.source.others, Term.source, List.cons_append, List.nil_append,
        List.forall_mem_cons]
      exact ⟨⟨trivial, trivial⟩, ⟨hy, trivial⟩, ih hys⟩

/-- The arguments open no parentheses. -/
theorem ne_openParen_of_mem_argumentLexemes :
    ∀ l ∈ argumentLexemes arguments, l ≠ .openParen := by
  cases arguments with
  | nil => simp [argumentLexemes]
  | cons x xs =>
    refine List.forall_mem_cons.mpr ⟨by simp, ?_⟩
    induction xs with
    | nil => simp [Term.source.others]
    | cons y ys ih =>
      simp only [List.map_cons, Term.source.others, Term.source, List.cons_append, List.nil_append,
        List.forall_mem_cons]
      exact ⟨by simp, by simp, ih⟩

/-- Names end before a comma and before the closing parenthesis. -/
theorem isChain_argumentLexemes (arguments : List String) :
    (argumentLexemes arguments ++ [Lexeme.closeParen]).IsChain Lexeme.Apart := by
  have apart (x : String) {l : Lexeme} (hl : l = .comma ∨ l = .closeParen) :
      (Lexeme.identifier x).Apart l := by
    intro c hc
    rcases hl with rfl | rfl
    all_goals
      cases hc
      rfl
  cases arguments with
  | nil => exact .singleton _
  | cons x xs =>
    induction xs generalizing x with
    | nil => exact .cons_cons (apart x (.inr rfl)) (.singleton _)
    | cons y ys ih => exact .cons_cons (apart x (.inl rfl)) (.cons_cons (fun _ _ => rfl) (ih y))

theorem reads_argumentLexemes {g : Grammar} (arguments : List String) (callee : Tree) :
    Reads g (.calls callee) (.openParen :: (argumentLexemes arguments ++ [.closeParen]))
      (.call callee (.arguments (arguments.map .name))) [] := by
  cases arguments with
  | nil => exact .emptyCall (.called (by simp))
  | cons x xs =>
    have readsAs : ∀ t ∈ (x :: xs).map Term.name, ReadsAs g t.source t.tree := by
      intro t ht
      obtain ⟨y, -, rfl⟩ := List.mem_map.mp ht
      exact fun _ hr => .identifier (.called hr)
    have list : Reads g .list _ _ [.closeParen] := Term.list_others readsAs
    rw [← List.map_cons, List.map_map] at list
    exact .call list (.called (by simp))

/-- **A call is read as such**, whatever the number of its arguments. -/
theorem read_invocation (hv : v.WellFormed) (hn : v.Knows (.identifier name))
    (ha : ∀ x ∈ arguments, v.Knows (.identifier x)) :
    v.grammar.read (invocation name arguments) = .ok (invocationTree name arguments).postorder := by
  have hspells : ∀ l ∈ Lexeme.identifier name :: .openParen ::
      (argumentLexemes arguments ++ [.closeParen]), v.Spells l := by
    simp only [List.forall_mem_cons, List.forall_mem_append]
    exact ⟨⟨hn, trivial⟩, ⟨trivial, trivial⟩, spells_argumentLexemes ha, ⟨trivial, trivial⟩,
      by simp⟩
  have hchain : (Lexeme.identifier name :: .openParen ::
      (argumentLexemes arguments ++ [.closeParen])).IsChain Lexeme.Apart := by
    have hopen : (Lexeme.identifier name).Apart .openParen := by
      intro c hc
      cases hc
      rfl
    have hrest := isChain_argumentLexemes arguments
    exact .cons_cons hopen (List.isChain_cons.mpr ⟨fun _ _ _ _ => rfl, hrest⟩)
  have htext : (invocation name arguments).toList = (Lexeme.identifier name :: .openParen ::
      (argumentLexemes arguments ++ [.closeParen])).flatMap Lexeme.spelling := by
    rw [invocation, String.toList_append, String.toList_append, String.toList_append,
      ← spellings_argumentLexemes]
    simp [Lexeme.spelling]
  have hnesting : Lexeme.nesting (.identifier name :: .openParen ::
      (argumentLexemes arguments ++ [.closeParen])) ≤ Priority.deepest := by
    have hflat : ∀ l ∈ argumentLexemes arguments ++ [.closeParen], l ≠ .openParen :=
      List.forall_mem_append.mpr ⟨ne_openParen_of_mem_argumentLexemes, by simp⟩
    have hone := Lexeme.nestingFrom_le_of_flat hflat (0 + 1)
    simp only [Lexeme.nesting, Lexeme.nestingFrom, Lexeme.depthAfter, Priority.deepest]
    omega
  refine Grammar.read_eq_ok.mpr ⟨_, ?_, Reads.run_start hv.sound hnesting
    (.chain (.identifier (reads_argumentLexemes arguments _)) (.joined (by simp [Stops])))⟩
  rw [Text.Cursor.start, htext]
  exact (lexes_spellings hspells hchain 0).mpr rfl

end Vocabulary

/-! ## Evaluating calls -/

variable [HostFunctions H] {b : Bindings H} {a : Alignment} {values : List (Value H)}

/-- Names that are bound to values. -/
abbrev Bindings.Give (b : Bindings H) : List String → List (Value H) → Prop :=
  List.Forall₂ fun x value => b.get? x = some value

namespace Tree

theorem evaluate_name {value : Value H} (h : b.get? x = some value) :
    (Tree.name x).evaluate v b a = .ok value := by
  simp only [evaluate, Vocabulary.resolve, h]

theorem mapM_evaluate_names (h : b.Give arguments values) :
    (arguments.map .name).mapM (evaluate v b a) = .ok values := by
  induction h with
  | nil => rfl
  | cons hx _ ih =>
    rw [List.map_cons, List.mapM_cons, evaluate_name hx, ih]
    rfl

/-- The first of several commas fails, if the vocabulary has none. -/
theorem evaluate_foldl_of_error {e : EvalError} {t : Tree} (h : t.evaluate v b a = .error e)
    (ts : List Tree) : (ts.foldl (.binary ",") t).evaluate v b a = .error e := by
  induction ts generalizing t with
  | nil => exact h
  | cons u us ih =>
    refine ih ?_
    rw [evaluate, h]
    rfl

/-- A function is given nothing else than the values, if there is a comma or no need of one. -/
theorem evaluate_names (hg : b.Give arguments values) (hs : ∀ x ∈ values, x.arguments = [x])
    (hc : v.binary? "," = some Vocabulary.commaEntry ∨ values.length ≤ 1) :
    ∃ z, (Tree.arguments (arguments.map .name)).evaluate v b a = .ok z ∧ z.arguments = values := by
  rcases hc with hc | hl
  · have harguments := evaluate_arguments (a := a) (b := b) hc (arguments.map .name)
    rw [mapM_evaluate_names hg] at harguments
    have hspread : Value.spread values = values := by
      cases values with
      | nil => rfl
      | cons x xs => rw [Value.spread_cons, hs x (by simp)]; rfl
    cases hz : (Tree.arguments (arguments.map .name)).evaluate v b a with
    | error e => rw [hz] at harguments; cases harguments
    | ok z =>
      rw [hz] at harguments
      exact ⟨z, rfl, (Except.ok.inj harguments).trans hspread⟩
  · cases hg with
    | nil => exact ⟨.list [], rfl, rfl⟩
    | cons hx hxs =>
      cases hxs with
      | nil => exact ⟨_, evaluate_name hx, hs _ (by simp)⟩
      | cons _ _ => simp at hl

theorem evaluate_names_of_none (hg : b.Give arguments values) (hc : v.binary? "," = none)
    (hl : 1 < values.length) :
    (Tree.arguments (arguments.map .name)).evaluate v b a = .error (.unknownOperator ",") := by
  rcases hg with _ | @⟨x, _, _, _, hx, _ | @⟨y, _, _, _, hy, -⟩⟩
  · simp at hl
  · simp at hl
  · have hfirst : (binary "," (.name x) (.name y)).evaluate v b a =
        .error (.unknownOperator ",") := by
      rw [evaluate, evaluate_name hx, evaluate_name hy]
      simp only [bind, Except.bind, Vocabulary.applyBinary, hc]
    exact evaluate_foldl_of_error hfirst _

end Tree

/-- **A call asks the function**, unless it has several arguments and the vocabulary no comma. -/
theorem Formula.evaluate_invocation {entry : FunctionEntry H} (he : v.function? name = some entry)
    (hfree : b.get? name = none) (hg : b.Give arguments values)
    (hs : ∀ x ∈ values, x.arguments = [x])
    (hc : v.binary? "," = some Vocabulary.commaEntry ∨ v.binary? "," = none) :
    evaluate ⟨(Vocabulary.invocationTree name arguments).postorder, v⟩ b a =
      if (v.binary? ",").isNone ∧ 1 < values.length then .error (.unknownOperator ",")
      else entry.invoke a values := by
  have hname : (Tree.name name).evaluate v b a = .ok (.function entry) := by
    simp only [Tree.evaluate, Vocabulary.resolve, hfree, he]
  rw [evaluate_postorder, Vocabulary.invocationTree, Tree.evaluate, hname]
  split
  · rename_i hmissing
    rw [Tree.evaluate_names_of_none hg (Option.isNone_iff_eq_none.mp hmissing.1) hmissing.2]
    rfl
  · rename_i hpresent
    have hneeded : v.binary? "," = some Vocabulary.commaEntry ∨ values.length ≤ 1 := by
      refine hc.imp_right fun hnone => ?_
      rw [hnone] at hpresent
      simpa using hpresent
    obtain ⟨z, hz, hvalues⟩ := Tree.evaluate_names (v := v) (a := a) hg hs hneeded
    rw [hz]
    exact congrArg (entry.invoke a) hvalues

end PanelCalc
