import PanelCalc.Proofs.Printing.Brackets
import PanelCalc.Proofs.Syntax.Equivalence

/-! # Terms

A term has its calls as one writes them, with any number of arguments. Programs
know no such calls: the commas between the arguments become operators, of which
the last is at the top, and a call without arguments gets a literal of its own.
What is written with parentheses around every operator reads as the tree of its
term. -/
namespace PanelCalc

/-- What a formula says, calls having as many arguments as they are written with. -/
inductive Term where
  | number (x : Float)
  | text (s : String)
  | name (name : String)
  | unary (symbol : String) (operand : Term)
  | binary (symbol : String) (left right : Term)
  | call (callee : Term) (arguments : List Term)

/-- The tree of an argument list. -/
def Tree.arguments : List Tree → Tree
  | [] => .literal .noArguments
  | t :: ts => ts.foldl (.binary ",") t

/-- The lexeme of an operator between its operands. -/
def joinLexeme (s : String) : Lexeme := if s = "," then .comma else .operator s

namespace Term

/-- Induction on terms, with a hypothesis for each argument of a call. -/
@[induction_eliminator]
theorem induction {motive : Term → Prop} (number : ∀ x, motive (.number x))
    (text : ∀ s, motive (.text s)) (name : ∀ n, motive (.name n))
    (unary : ∀ s x, motive x → motive (.unary s x))
    (binary : ∀ s x y, motive x → motive y → motive (.binary s x y))
    (call : ∀ callee ts, motive callee → (∀ t ∈ ts, motive t) → motive (.call callee ts))
    (t : Term) : motive t :=
  @Term.rec motive (fun ts => ∀ t ∈ ts, motive t) number text name unary binary call
    (fun _ h => nomatch h)
    (fun _ _ head tail => List.forall_mem_cons.mpr ⟨head, tail⟩) t

/-- The tree that a term is read as. -/
def tree : Term → Tree
  | number x => .literal (.number x)
  | text s => .literal (.text s)
  | name n => .name n
  | unary s x => .unary s x.tree
  | binary s x y => .binary s x.tree y.tree
  | call callee ts => .call callee.tree (.arguments (trees ts))
where trees : List Term → List Tree
  | [] => []
  | t :: ts => t.tree :: trees ts

/-- The program of a term. -/
def program (t : Term) : Program := t.tree.postorder

/-- The lexemes of a term, with parentheses around every operator and every callee. -/
def source : Term → List Lexeme
  | number x => [.number x]
  | text s => [.text s]
  | name n => [.identifier n]
  | unary s x => enclosed (unaryLexeme s :: enclosed x.source)
  | binary s x y => enclosed (x.source ++ joinLexeme s :: y.source)
  | call callee [] => enclosed callee.source ++ enclosed []
  | call callee (t :: ts) => enclosed callee.source ++ enclosed (t.source ++ others ts)
where others : List Term → List Lexeme
  | [] => []
  | t :: ts => .comma :: (t.source ++ others ts)

/-- A term whose operators are in the tables. -/
inductive Over (g : Grammar) : Term → Prop
  | number (x : Float) : Over g (.number x)
  | text (s : String) : Over g (.text s)
  | name (n : String) : Over g (.name n)
  | unary {s x} : (g.unaryPriority? s).isSome → Over g x → Over g (.unary s x)
  | binary {s x y} : s = "," ∨ (g.binaryPriority? s).isSome → Over g x → Over g y →
      Over g (.binary s x y)
  | call {callee ts} : Over g callee → (∀ t ∈ ts, Over g t) → Over g (.call callee ts)

theorem trees_eq_map (ts : List Term) : tree.trees ts = ts.map tree := by
  induction ts with
  | nil => rfl
  | cons t ts ih => rw [tree.trees, ih, List.map_cons]

end Term

/-! ## The lexemes of a term read as its tree -/

/-- Lexemes that read as a tree in front of whatever is no call. -/
def ReadsAs (g : Grammar) (ls : List Lexeme) (t : Tree) : Prop :=
  ∀ rest, rest.head? ≠ some .openParen → Reads g .operand (ls ++ rest) t rest

namespace ReadsAs

variable {g : Grammar} {ls ls' rest : List Lexeme} {t u : Tree}

theorem chain (h : ReadsAs g ls t) {least : Int} (hr : rest.head? ≠ some .openParen)
    (hs : ∀ s ls, rest ≠ .operator s :: ls) : Reads g (.chain least) (ls ++ rest) t rest :=
  .chain (h rest hr) (.joined (Reads.stops_of_ne hs))

theorem list (h : ReadsAs g ls t) :
    Reads g .list (ls ++ .closeParen :: rest) t (.closeParen :: rest) :=
  Reads.close_of_operand (h _ (by simp))

/-- Parentheses make an operand of a list. -/
theorem of_list (h : ∀ rest, Reads g .list (ls ++ .closeParen :: rest) t (.closeParen :: rest)) :
    ReadsAs g (enclosed ls) t :=
  fun rest hr => .of_group (h rest) (.called hr)

theorem unary (h : ReadsAs g ls t) {s : String} (hs : (g.unaryPriority? s).isSome) :
    ReadsAs g (enclosed (unaryLexeme s :: enclosed ls)) (.unary s t) := by
  obtain ⟨p, hp⟩ := Option.isSome_iff_exists.mp hs
  refine of_list fun rest => Reads.close_of_operand ?_
  have operand : Reads g (.chain (p + 1)) (enclosed ls ++ .closeParen :: rest) t
      (.closeParen :: rest) := (of_list fun _ => h.list).chain (by simp) (by simp)
  unfold unaryLexeme
  split
  · rename_i hm
    subst hm
    exact .minus hp operand
  · exact .named hp operand

theorem binary (hx : ReadsAs g ls t) (hy : ReadsAs g ls' u) (hg : g.Sound) {s : String}
    (hne : s ≠ ",") (hs : (g.binaryPriority? s).isSome) :
    ReadsAs g (enclosed (ls ++ .operator s :: ls')) (.binary s t u) := by
  obtain ⟨p, hp⟩ := Option.isSome_iff_exists.mp hs
  refine of_list fun rest => ?_
  rw [List.append_assoc]
  exact Reads.list_of_binary (hx _ (by simp)) hp (hg.binary s p hne hp).1 (hy _ (by simp))

theorem comma (hx : ReadsAs g ls t) (hy : ReadsAs g ls' u) :
    ReadsAs g (enclosed (ls ++ .comma :: ls')) (.binary "," t u) := by
  refine of_list fun rest => ?_
  rw [List.append_assoc]
  exact Reads.list_of_operand (hx _ (by simp)) (by simp)
    (.item (hy.chain (by simp) (by simp)) (.listed (by simp)))

end ReadsAs

namespace Term

variable {g : Grammar} {t : Term} {ts : List Term} {rest : List Lexeme}

/-- An argument ends at a comma or at the closing parenthesis. -/
theorem chain_others (h : ReadsAs g t.source t.tree) :
    Reads g (.chain 0) (t.source ++ (source.others ts ++ .closeParen :: rest)) t.tree
      (source.others ts ++ .closeParen :: rest) := by
  cases ts <;> exact h.chain (by simp [source.others]) (by simp [source.others])

theorem items_others (h : ∀ t ∈ ts, ReadsAs g t.source t.tree) (first : Tree) :
    Reads g (.items first) (source.others ts ++ .closeParen :: rest)
      ((ts.map tree).foldl (.binary ",") first) (.closeParen :: rest) := by
  induction ts generalizing first with
  | nil => exact .listed (by simp [source.others])
  | cons t ts ih =>
    obtain ⟨ht, hts⟩ := List.forall_mem_cons.mp h
    rw [source.others, List.cons_append, List.append_assoc]
    exact .item (chain_others ht) (ih hts _)

theorem list_others (h : ∀ u ∈ t :: ts, ReadsAs g u.source u.tree) :
    Reads g .list (t.source ++ source.others ts ++ .closeParen :: rest)
      (.arguments ((t :: ts).map tree)) (.closeParen :: rest) := by
  obtain ⟨ht, hts⟩ := List.forall_mem_cons.mp h
  rw [List.append_assoc]
  exact .list (chain_others ht) (items_others hts _)

theorem Over.readsAs (hg : g.Sound) (h : t.Over g) : ReadsAs g t.source t.tree := by
  induction h with
  | number | text => exact fun _ _ => by constructor
  | name => exact fun _ hr => .identifier (.called hr)
  | unary hs _ ih => exact ih.unary hs
  | @binary s x y hs _ _ ihx ihy =>
    rw [source, joinLexeme]
    split
    · rename_i hc
      subst hc
      exact ihx.comma ihy
    · exact ihx.binary ihy hg ‹_› (hs.resolve_left ‹_›)
  | @call callee ts _ _ ihc iht =>
    -- the callee is read as a group, and its call is what the group is followed by
    intro rest hr
    rw [tree, trees_eq_map]
    cases ts with
    | nil =>
      rw [source, List.append_assoc]
      exact .of_group ihc.list (.emptyCall (.called hr))
    | cons t ts =>
      rw [source, List.append_assoc]
      exact .of_group ihc.list
        (by simpa [enclosed] using Reads.call (list_others iht) (.called hr))

/-- **The builder emits the program of a term** for the lexemes of the term. -/
theorem Over.run_source (hg : g.Sound) (hn : Lexeme.nesting t.source ≤ Priority.deepest)
    (h : t.Over g) : Builder.start.run g t.source = .ok t.program := by
  have hr : Reads g (.chain 0) (t.source ++ []) t.tree [] :=
    (h.readsAs hg).chain (by simp) (by simp)
  rw [List.append_nil] at hr
  exact hr.run_start hg hn

end Term

end PanelCalc
