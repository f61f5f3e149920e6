import PanelCalc.Proofs.Printing.Text

/-! # Trees with all their parentheses

The canonical text puts parentheses around operators, but neither around a list
nor around what is called. A tree is bracketed if nothing of it needs the
parentheses that are left out; the lexemes of its text then read back as the
tree, with the quotient that stands for an infinite number in its place. -/
namespace PanelCalc

namespace Tree

/-- Whether the tree is a list of several values. -/
def isList : Tree → Bool
  | binary s _ _ => s == ","
  | _ => false

/-- Whether a parenthesis after the text calls what the text stands for. -/
def isCallable : Tree → Bool
  | name _ | call _ _ => true
  | literal (.number x) => x.isInf
  | literal _ => false
  | unary s _ => !Text.hasLetter s
  | binary s _ _ => s != ","

/-- An operator after the text does not belong to the operand of one that the
text begins with. -/
def Precedes (g : Grammar) (q : Int) : Tree → Prop
  | unary s _ => Text.hasLetter s = true → ∀ p ∈ g.unaryPriority? s, q ≤ p
  | _ => True

/-- No parenthesis that is left out is needed. -/
def Bracketed (g : Grammar) : Tree → Prop
  | literal _ | name _ => True
  | unary s x => x.Bracketed g ∧ (Text.hasLetter s = false →
      x.isList = false ∧ (s ≠ "-" → x.lexemes.head? = some .openParen))
  | binary s x y => x.Bracketed g ∧ y.Bracketed g ∧ y.isList = false ∧
      (s ≠ "," → x.isList = false ∧ ∀ q ∈ g.binaryPriority? s, x.Precedes g q)
  | call callee x => callee.Bracketed g ∧ callee.isCallable = true ∧ x.Bracketed g

instance (g : Grammar) (q : Int) : (t : Tree) → Decidable (t.Precedes g q)
  | unary s _ =>
    inferInstanceAs (Decidable (Text.hasLetter s = true → ∀ p ∈ g.unaryPriority? s, q ≤ p))
  | literal _ | name _ | binary _ _ _ | call _ _ => .isTrue trivial

instance decidableBracketed (g : Grammar) : (t : Tree) → Decidable (t.Bracketed g)
  | literal _ | name _ => .isTrue trivial
  | unary s x =>
    have := decidableBracketed g x
    inferInstanceAs (Decidable (x.Bracketed g ∧ (Text.hasLetter s = false →
      x.isList = false ∧ (s ≠ "-" → x.lexemes.head? = some .openParen))))
  | binary s x y =>
    have := decidableBracketed g x
    have := decidableBracketed g y
    inferInstanceAs (Decidable (x.Bracketed g ∧ y.Bracketed g ∧ y.isList = false ∧
      (s ≠ "," → x.isList = false ∧ ∀ q ∈ g.binaryPriority? s, x.Precedes g q)))
  | call callee x =>
    have := decidableBracketed g callee
    have := decidableBracketed g x
    inferInstanceAs (Decidable (callee.Bracketed g ∧ callee.isCallable = true ∧ x.Bracketed g))

/-- The tree with infinite numbers as the quotients they are written as. -/
def spelledOut : Tree → Tree
  | literal (.number x) =>
    if x.isInf then binary "/" (literal (.number 1)) (literal (.number 0)) else literal (.number x)
  | literal value => literal value
  | name n => name n
  | unary s x => unary s x.spelledOut
  | binary s x y => binary s x.spelledOut y.spelledOut
  | call callee x => call callee.spelledOut x.spelledOut

end Tree

namespace Reads

variable {g : Grammar} {ls mid rest : List Lexeme} {t u : Tree} {least : Int}

/-- Nothing that comes next binds tightly, since no operator comes next. -/
theorem stops_of_ne (h : ∀ s ls, rest ≠ .operator s :: ls) : Stops g least rest :=
  fun s _ ls hs _ => absurd hs (h s ls)

/-- A single value is a list. -/
theorem list_of_operand (h : Reads g .operand ls t mid) (hmid : ∀ s ls, mid ≠ .operator s :: ls)
    (h' : Reads g (.items t) mid u rest) : Reads g .list ls u rest :=
  .list (.chain h (.joined (stops_of_ne hmid))) h'

/-- Two operands with an operator between them. -/
theorem list_of_binary {ls' : List Lexeme} {s : String} {q : Int}
    (h : Reads g .operand ls t (.operator s :: ls')) (hq : g.binaryPriority? s = some q)
    (h0 : 0 ≤ q) (h' : Reads g .operand ls' u (.closeParen :: rest)) :
    Reads g .list ls (.binary s t u) (.closeParen :: rest) := by
  refine .list (.chain h (.join hq h0 (.chain h' (.joined ?_)) (.joined ?_))) (.listed (by simp))
  · exact stops_of_ne (by simp)
  · exact stops_of_ne (by simp)

theorem close_of_operand (h : Reads g .operand ls t (.closeParen :: rest)) :
    Reads g .list ls t (.closeParen :: rest) :=
  list_of_operand h (by simp) (.listed (by simp))

end Reads

namespace Tree

variable {H : Type} {v : Vocabulary H} {t : Tree}

/-- How the lexemes of a tree read back. -/
structure ReadsBack (g : Grammar) (t : Tree) : Prop where
  called : t.isCallable = true → ∀ {mid u rest}, Reads g (.calls t.spelledOut) mid u rest →
    Reads g .operand (t.lexemes ++ mid) u rest
  operand : t.isList = false → ∀ {rest}, rest.head? ≠ some .openParen →
    (∀ s q ls, rest = .operator s :: ls → g.binaryPriority? s = some q → t.Precedes g q) →
    Reads g .operand (t.lexemes ++ rest) t.spelledOut rest
  list : ∀ {mid u rest}, mid.head? ≠ some .openParen → (∀ s ls, mid ≠ .operator s :: ls) →
    Reads g (.items t.spelledOut) mid u rest → Reads g .list (t.lexemes ++ mid) u rest

namespace ReadsBack

variable {g : Grammar}

/-- An operand that stands before anything but an operator or a call. -/
theorem operand_of_ne (h : t.ReadsBack g) (hl : t.isList = false) {rest : List Lexeme}
    (ho : rest.head? ≠ some .openParen) (hs : ∀ s ls, rest ≠ .operator s :: ls) :
    Reads g .operand (t.lexemes ++ rest) t.spelledOut rest :=
  h.operand hl ho fun s _ ls hr _ => absurd hr (hs s ls)

theorem of_operand
    (hc : t.isCallable = true → ∀ {mid u rest}, Reads g (.calls t.spelledOut) mid u rest →
      Reads g .operand (t.lexemes ++ mid) u rest)
    (ho : ∀ {rest}, rest.head? ≠ some .openParen →
      (∀ s q ls, rest = .operator s :: ls → g.binaryPriority? s = some q → t.Precedes g q) →
      Reads g .operand (t.lexemes ++ rest) t.spelledOut rest) : t.ReadsBack g where
  called := hc
  operand _ := ho
  list hmid hs h := Reads.list_of_operand (ho hmid fun s _ ls hr _ => absurd hr (hs s ls)) hs h

/-- What may be called is an operand on its own. -/
theorem of_callable (hc : ∀ {mid u rest}, Reads g (.calls t.spelledOut) mid u rest →
      Reads g .operand (t.lexemes ++ mid) u rest) : t.ReadsBack g :=
  .of_operand (fun _ => hc) fun ho _ => hc (.called ho)

/-- A text in parentheses. -/
theorem of_enclosed {inner : List Lexeme} (ht : t.lexemes = enclosed inner)
    (h : ∀ {rest},
      Reads g .list (inner ++ .closeParen :: rest) t.spelledOut (.closeParen :: rest)) :
    t.ReadsBack g :=
  .of_callable fun hc => by
    rw [ht]
    exact Reads.of_group h hc

variable {s : String} {x y callee : Tree} {p q : Int}

/-- An infinite number is a quotient in parentheses. -/
theorem infinite {x : Float} (hi : x.isInf = true) (hq : g.binaryPriority? "/" = some q)
    (h0 : 0 ≤ q) : (literal (.number x)).ReadsBack g := by
  refine .of_enclosed (lexemes_infinite hi) fun {rest} => ?_
  simp only [spelledOut, hi, if_true]
  exact Reads.list_of_binary .number hq h0 .number

/-- Any other number is an operand, and cannot be called. -/
theorem finite {x : Float} (hi : x.isInf = false) : (literal (.number x)).ReadsBack g := by
  refine .of_operand (fun hc => ?_) fun _ _ => ?_
  · simp [isCallable, hi] at hc
  · simp only [lexemes_finite hi, spelledOut, hi, Bool.false_eq_true, if_false]
    exact .number

/-- An operator with letters and the parentheses of its operand. -/
theorem named (hs : Text.hasLetter s = true) (hp : g.unaryPriority? s = some p)
    (hx : x.ReadsBack g) : (unary s x).ReadsBack g := by
  refine .of_operand (fun hc => ?_) fun {rest} ho hprec => ?_
  · simp [isCallable, hs] at hc
  have hinside : Reads g .list (x.lexemes ++ .closeParen :: rest) x.spelledOut
      (.closeParen :: rest) := hx.list (by simp) (by simp) (.listed (by simp))
  have hgroup : Reads g .operand (enclosed x.lexemes ++ rest) x.spelledOut rest :=
    Reads.of_group hinside (.called ho)
  rw [lexemes_named hs, unaryLexeme_of_hasLetter hs]
  refine .named hp (.chain hgroup (.joined fun s' q ls hr hq => ?_))
  have := hprec s' q ls hr hq hs p hp
  omega

/-- An operator before its operand, up to the closing parenthesis. -/
theorem operator_operand {rest : List Lexeme} (hp : g.unaryPriority? s = some p)
    (hl : x.isList = false) (ho : s ≠ "-" → x.lexemes.head? = some .openParen)
    (hx : x.ReadsBack g) :
    Reads g .operand (unaryLexeme s :: (x.lexemes ++ .closeParen :: rest)) (.unary s x.spelledOut)
      (.closeParen :: rest) := by
  have hchain : Reads g (.chain (p + 1)) (x.lexemes ++ .closeParen :: rest) x.spelledOut
      (.closeParen :: rest) :=
    .chain (hx.operand_of_ne hl (by simp) (by simp)) (.joined (Reads.stops_of_ne (by simp)))
  unfold unaryLexeme
  by_cases hs : s = "-"
  · rw [if_pos hs]
    subst hs
    exact .minus hp hchain
  · rw [if_neg hs]
    obtain ⟨others, ho⟩ := List.head?_eq_some_iff.mp (ho hs)
    rw [ho] at hchain ⊢
    exact .named hp hchain

/-- An operator without letters and its operand in parentheses. -/
theorem signed (hs : Text.hasLetter s = false) (hp : g.unaryPriority? s = some p)
    (hl : x.isList = false) (ho : s ≠ "-" → x.lexemes.head? = some .openParen)
    (hx : x.ReadsBack g) : (unary s x).ReadsBack g :=
  .of_enclosed (lexemes_signed hs) (Reads.close_of_operand (hx.operator_operand hp hl ho))

/-- Two operands with an operator between them in parentheses. -/
theorem joined (hs : s ≠ ",") (hq : g.binaryPriority? s = some q) (h0 : 0 ≤ q)
    (hlx : x.isList = false) (hly : y.isList = false) (hprec : x.Precedes g q)
    (hx : x.ReadsBack g) (hy : y.ReadsBack g) : (binary s x y).ReadsBack g := by
  refine .of_enclosed (lexemes_joined hs) fun {rest} => ?_
  have hleft : Reads g .operand
      (x.lexemes ++ .operator s :: (y.lexemes ++ .closeParen :: rest)) x.spelledOut
      (.operator s :: (y.lexemes ++ .closeParen :: rest)) := by
    refine hx.operand hlx (by simp) ?_
    intro s' q' ls hr hq'
    cases hr
    cases hq.symm.trans hq'
    exact hprec
  have hright : Reads g .operand (y.lexemes ++ .closeParen :: rest) y.spelledOut
      (.closeParen :: rest) := hy.operand_of_ne hly (by simp) (by simp)
  simpa [spelledOut] using Reads.list_of_binary hleft hq h0 hright

/-- Two values with a comma between them. -/
theorem listed (hly : y.isList = false) (hx : x.ReadsBack g) (hy : y.ReadsBack g) :
    (binary "," x y).ReadsBack g := by
  refine ⟨by simp [isCallable], by simp [isList], fun {mid u rest} hmid hne h => ?_⟩
  have hlast : Reads g (.chain 0) (y.lexemes ++ mid) y.spelledOut mid :=
    .chain (hy.operand_of_ne hly hmid hne) (.joined (Reads.stops_of_ne hne))
  have hlist : Reads g .list (x.lexemes ++ .comma :: (y.lexemes ++ mid)) u rest :=
    hx.list (by simp) (by simp) (.item hlast h)
  simpa [lexemes] using hlist

/-- A value and the arguments that it is called with. -/
theorem applied (hc : callee.isCallable = true) (hcallee : callee.ReadsBack g)
    (hx : x = .literal .noArguments ∨ x.ReadsBack g) : (call callee x).ReadsBack g := by
  refine .of_callable fun {mid u rest} h => ?_
  rw [lexemes_call_append]
  refine hcallee.called hc ?_
  rcases hx with rfl | hx
  · exact .emptyCall h
  · exact .call (hx.list (by simp) (by simp) (.listed (by simp))) h

end ReadsBack

/-- **A bracketed tree reads back** from the lexemes of its text. -/
theorem readsBack (hg : v.grammar.Sound) (hq : (v.grammar.binaryPriority? "/").isSome)
    (hs : t.Spellable v) (hb : t.Bracketed v.grammar) : t.ReadsBack v.grammar := by
  induction t with
  | literal value =>
    cases value with
    | number x =>
      obtain ⟨q, hq⟩ := Option.isSome_iff_exists.mp hq
      cases hi : x.isInf with
      | true => exact .infinite hi hq (hg.binary _ _ (by decide) hq).1
      | false => exact .finite hi
    | text s => exact .of_operand (by simp [isCallable]) fun _ _ => .text
    | noArguments => exact absurd hs id
  | name n => exact .of_callable .identifier
  | unary s x ih =>
    obtain ⟨-, hp, hx⟩ := hs
    obtain ⟨p, hp⟩ := Option.isSome_iff_exists.mp hp
    have ih := ih hx hb.1
    cases hletter : Text.hasLetter s with
    | true => exact .named hletter hp ih
    | false =>
      obtain ⟨hl, ho⟩ := hb.2 hletter
      exact .signed hletter hp hl ho ih
  | binary s x y ihx ihy =>
    obtain ⟨hs, hx, hy⟩ := hs
    obtain ⟨hbx, hby, hly, hcomma⟩ := hb
    by_cases hc : s = ","
    · subst hc
      exact .listed hly (ihx hx hbx) (ihy hy hby)
    · obtain ⟨hlx, hprec⟩ := hcomma hc
      obtain ⟨q, hq⟩ := Option.isSome_iff_exists.mp (hs.resolve_left hc).2.2
      exact .joined hc hq (hg.binary _ _ hc hq).1 hlx hly (hprec q hq) (ihx hx hbx) (ihy hy hby)
  | call callee x ihc ihx =>
    obtain ⟨hc, hx⟩ := hs
    obtain ⟨hbc, hcall, hbx⟩ := hb
    exact .applied hcall (ihc hc hbc) (hx.imp_right fun hx => ihx hx hbx)

/-- A bracketed tree is what the lexemes of its text are read as. -/
theorem reads_lexemes (hg : v.grammar.Sound) (hq : (v.grammar.binaryPriority? "/").isSome)
    (hs : t.Spellable v) (hl : t.isList = false) (hb : t.Bracketed v.grammar) :
    Reads v.grammar (.chain 0) t.lexemes t.spelledOut [] := by
  have h : Reads v.grammar .operand (t.lexemes ++ []) t.spelledOut [] :=
    (readsBack hg hq hs hb).operand_of_ne hl (by simp) (by simp)
  rw [List.append_nil] at h
  exact .chain h (.joined (Reads.stops_of_ne (by simp)))

end Tree

end PanelCalc
