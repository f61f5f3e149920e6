import PanelCalc.Proofs.Lexeme.Scanning
import PanelCalc.Proofs.Syntax.Origin

/-! # Programs in place of names

A formula takes the program of another one in place of a name. The program is
the one that the lexemes of both texts make when every occurrence of the name
gives way to the other text in parentheses: whatever stands around a parenthesis,
what it holds is read as one operand and its steps stay together. -/
namespace PanelCalc

/-- The tree with another one in place of a name. -/
def Tree.splice (name : String) (u : Tree) : Tree → Tree
  | .literal value => .literal value
  | .name n => if n = name then u else .name n
  | .unary symbol x => .unary symbol (splice name u x)
  | .binary symbol x y => .binary symbol (splice name u x) (splice name u y)
  | .call callee x => .call (splice name u callee) (splice name u x)

/-- The lexemes with others, in parentheses, in place of a name. -/
def Lexeme.splice (name : String) (inner ls : List Lexeme) : List Lexeme :=
  ls.flatMap fun l => if l = .identifier name then enclosed inner else [l]

/-- The goal with another tree in place of a name. -/
def Goal.splice (name : String) (u : Tree) : Goal → Goal
  | .operand => .operand
  | .calls callee => .calls (Tree.splice name u callee)
  | .chain least => .chain least
  | .joins least left => .joins least (Tree.splice name u left)
  | .list => .list
  | .items first => .items (Tree.splice name u first)

/-- The steps of a spliced tree. -/
theorem Tree.postorder_splice (name : String) (u t : Tree) :
    (splice name u t).postorder =
      t.postorder.flatMap fun step => if step = .var name then u.postorder else [step] := by
  induction t with
  | literal value => simp [splice, postorder]
  | name n =>
    by_cases hn : n = name
    · simp [splice, postorder, hn]
    · simp [splice, postorder, hn]
  | unary symbol x ih => simp [splice, postorder, ih]
  | binary symbol x y ihx ihy => simp [splice, postorder, ihx, ihy]
  | call callee x ihc ihx => simp [splice, postorder, ihc, ihx]

namespace Lexeme

variable {name : String} {inner ls : List Lexeme} {l : Lexeme}

theorem splice_cons_name :
    splice name inner (.identifier name :: ls) = enclosed inner ++ splice name inner ls := by
  simp [splice]

theorem splice_cons_of_ne (h : l ≠ .identifier name) :
    splice name inner (l :: ls) = l :: splice name inner ls := by
  simp [splice, h]

/-- Only a name can give way to a parenthesis. -/
theorem head?_splice (h : ls.head? ≠ some (.identifier name)) :
    (splice name inner ls).head? = ls.head? := by
  cases ls with
  | nil => rfl
  | cons l ls =>
    rw [splice_cons_of_ne (by simpa using h)]
    rfl

end Lexeme

namespace Reads

variable {g : Grammar} {goal : Goal} {ls rest : List Lexeme} {t : Tree}

/-- What comes to its end is read alike before a closing parenthesis. -/
theorem append_close (h : Reads g goal ls t rest) (after : List Lexeme) :
    Reads g goal (ls ++ .closeParen :: after) t (rest ++ .closeParen :: after) := by
  have head (l : Lexeme) (hl : l ≠ .closeParen) (ls : List Lexeme) (h : ls.head? ≠ some l) :
      (ls ++ .closeParen :: after).head? ≠ some l := by
    cases ls with
    | nil => simpa using hl.symm
    | cons _ _ => simpa using h
  induction h with
  | plus _ ih => exact .plus ih
  | minus hu _ ih => exact .minus hu ih
  | named hu _ ih => exact .named hu ih
  | number => exact .number
  | constant => exact .constant
  | text => exact .text
  | identifier _ ih => exact .identifier ih
  | group _ _ ih ih' => exact .group ih ih'
  | called h => exact .called (head _ (by simp) _ h)
  | emptyCall _ ih => exact .emptyCall ih
  | call _ _ ih ih' => exact .call ih ih'
  | chain _ _ ih ih' => exact .chain ih ih'
  | joined h =>
    refine .joined ?_
    intro s p others hs hp
    rename_i ls
    cases ls with
    | nil => cases hs
    | cons l ls =>
      cases hs
      exact h s p ls rfl hp
  | join hp hle _ _ ih ih' => exact .join hp hle ih ih'
  | list _ _ ih ih' => exact .list ih ih'
  | listed h => exact .listed (head _ (by simp) _ h)
  | item _ _ ih ih' => exact .item ih ih'

/-- What can follow a value does not begin with a name. -/
theorem head?_ne_identifier {name : String} (h : Reads g goal ls t rest)
    (consumes : goal.consumes = false) (hr : rest.head? ≠ some (.identifier name)) :
    ls.head? ≠ some (.identifier name) := by
  cases h with
  | called _ | joined _ | listed _ => exact hr
  | emptyCall _ | call _ _ | join _ _ _ _ | item _ _ => simp
  | _ => cases consumes

/-- **Lexemes in parentheses read as their tree.** Where a name is read as itself
and gives way to lexemes in parentheses, these are read as their tree, and all
around them is read as before. -/
theorem splice {name : String} {inner : List Lexeme} {u : Tree}
    (hu : Reads g (.chain 0) inner u []) (h : Reads g goal ls t rest)
    (hr : rest.head? ≠ some (.identifier name)) :
    Reads g (goal.splice name u) (Lexeme.splice name inner ls) (Tree.splice name u t)
      (Lexeme.splice name inner rest) := by
  have close (ls : List Lexeme) : (Lexeme.closeParen :: ls).head? ≠ some (.identifier name) := by
    simp
  induction h with
  | plus _ ih =>
    rw [Lexeme.splice_cons_of_ne (by simp)]
    exact .plus (ih hr)
  | minus hp _ ih =>
    rw [Lexeme.splice_cons_of_ne (by simp)]
    exact .minus hp (ih hr)
  | named hp _ ih =>
    have := ih hr
    rw [Lexeme.splice_cons_of_ne (by simp)] at this
    rw [Lexeme.splice_cons_of_ne (by simp), Lexeme.splice_cons_of_ne (by simp)]
    exact .named hp this
  | number | constant | text =>
    rw [Lexeme.splice_cons_of_ne (by simp)]
    constructor
  | @identifier n after _ _ _ ih =>
    by_cases hn : n = name
    · -- the parenthesis holds the whole tree, and what calls the name calls the tree
      subst hn
      have hlist := Reads.list (hu.append_close (Lexeme.splice n inner after)) (.listed (by simp))
      have hcalls := ih hr
      rw [Lexeme.splice_cons_name]
      simp only [Goal.splice, Tree.splice, if_pos] at hcalls
      exact .of_group hlist hcalls
    · have := ih hr
      simp only [Goal.splice, Tree.splice, if_neg hn] at this
      rw [Lexeme.splice_cons_of_ne (by simpa using hn)]
      exact .identifier this
  | group _ _ ih ih' =>
    have := ih (close _)
    rw [Lexeme.splice_cons_of_ne (by simp)] at this ⊢
    exact .group this (ih' hr)
  | called h => exact .called (by rwa [Lexeme.head?_splice hr])
  | emptyCall _ ih =>
    rw [Lexeme.splice_cons_of_ne (by simp), Lexeme.splice_cons_of_ne (by simp)]
    exact .emptyCall (ih hr)
  | call _ _ ih ih' =>
    have := ih (close _)
    rw [Lexeme.splice_cons_of_ne (by simp)] at this ⊢
    exact .call this (ih' hr)
  | chain _ h ih ih' => exact .chain (ih (h.head?_ne_identifier rfl hr)) (ih' hr)
  | joined h =>
    refine .joined ?_
    intro s p others hs hp
    rename_i ls
    cases ls with
    | nil => cases hs
    | cons l ls =>
      rw [Lexeme.splice_cons_of_ne (by simpa using hr)] at hs
      cases hs
      exact h s p ls rfl hp
  | join hp hle _ h ih ih' =>
    rw [Lexeme.splice_cons_of_ne (by simp)]
    exact .join hp hle (ih (h.head?_ne_identifier rfl hr)) (ih' hr)
  | list _ h ih ih' => exact .list (ih (h.head?_ne_identifier rfl hr)) (ih' hr)
  | listed h => exact .listed (by rwa [Lexeme.head?_splice hr])
  | item _ h ih ih' =>
    rw [Lexeme.splice_cons_of_ne (by simp)]
    exact .item (ih (h.head?_ne_identifier rfl hr)) (ih' hr)

end Reads

namespace Formula

variable {H : Type} {v : Vocabulary H}

end Formula

end PanelCalc
