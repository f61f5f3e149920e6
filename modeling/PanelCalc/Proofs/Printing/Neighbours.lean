import PanelCalc.Proofs.Printing.Text

/-! # What stands next to each other in a text

The text of a tree begins with a lexeme that an operand may begin with, and only
operators and parentheses come after it. So nothing but a word can run into what
comes next. -/
namespace PanelCalc

variable {H : Type} {v : Vocabulary H} {l : Lexeme} {s : String} {x : Float}

namespace Lexeme

/-- Whether the text of a tree may begin with the lexeme. -/
def begins : Lexeme → Bool
  | operator _ | closeParen | comma => false
  | _ => true

/-- Whether the lexeme may come after the text of a tree. -/
def follows : Lexeme → Bool
  | operator _ | openParen | closeParen | comma => true
  | _ => false

/-- Whether the lexeme is spelled as a word. -/
def isWord : Lexeme → Bool
  | identifier _ | namedUnary _ => true
  | operator s => Text.isIdentifier s
  | _ => false

/-- Two lexemes that are spelled apart, unless the first one is a word. -/
def Neighbours (l l' : Lexeme) : Prop := l.isWord = true ∨ l.Apart l'

theorem opensWord_of_isWord {chars : List Char} (h : IsWord chars) :
    ∀ c ∈ chars.head?, Text.opensWord c = true := by
  obtain ⟨c, taken, rfl, hc, -⟩ := h
  intro d hd
  cases hd
  exact hc

end Lexeme

namespace Vocabulary

open Lexeme (Neighbours)

/-- A number ends before whatever may come after it. -/
theorem neighbours_number (hl : v.Spells l) (hf : l.follows = true) :
    Neighbours (.number x) l := by
  refine .inr ?_
  intro c hc
  have hdigit : c.isDigit = false ∧ c ≠ '.' := by
    cases l with
    | operator s =>
      by_cases hletter : Text.hasLetter s = true
      · simp only [Lexeme.spelling, hletter, if_true] at hc
        cases hc
        decide
      simp only [Lexeme.spelling, hletter] at hc
      rcases hl.1 with hs | hs
      · have symbols : ∀ symbol ∈ operatorSymbols,
            symbol.name.toList.head?.all (fun c => !c.isDigit && c != '.') = true := by
          decide
        have hfirst := Lexeme.of_isOperatorSymbol
          (p := fun s => s.toList.head?.all (fun c => !c.isDigit && c != '.') = true) hs symbols
        simpa using (Option.all_eq_true _ _).mp hfirst c hc
      · have ho := Lexeme.opensWord_of_isWord (isWord_of_isIdentifier hs.1) c hc
        refine ⟨?_, Text.ne_of_kind Text.opensWord ho (by decide)⟩
        rw [Bool.eq_false_iff]
        intro hd
        rw [Text.not_opensWord_of_isDigit hd] at ho
        cases ho
    | openParen | closeParen | comma =>
      cases hc
      decide
    | _ => cases hf
  simp [Lexeme.endsBefore, hdigit]

/-- An operator ends before whatever an operand begins with. -/
theorem neighbours_operator (hl : v.Spells l) (hb : l.begins = true) :
    Neighbours (.operator s) l := by
  by_cases hs : Text.isIdentifier s = true
  · exact .inl hs
  refine .inr ?_
  intro c hc
  have hword {chars : List Char} (hw : Lexeme.IsWord chars) (hc : c ∈ chars.head?) :
      c ≠ '=' ∧ c ≠ '*' := by
    have ho := Lexeme.opensWord_of_isWord hw c hc
    exact ⟨Text.ne_of_kind Text.opensWord ho (by decide),
      Text.ne_of_kind Text.opensWord ho (by decide)⟩
  have hne : c ≠ '=' ∧ c ≠ '*' := by
    cases l with
    | number x =>
      obtain ⟨d, taken, hx, hd, -⟩ := Lexeme.isNumeral_plain hl.1 hl.2.1
      rw [Lexeme.spelling, hx] at hc
      cases hc
      exact ⟨Text.ne_of_kind Char.isDigit hd (by decide),
        Text.ne_of_kind Char.isDigit hd (by decide)⟩
    | text t =>
      simp only [Lexeme.spelling, Text.Quoted.quote, String.toList_ofList] at hc
      cases hc
      decide
    | constant x => exact absurd hl.2 id
    | namedUnary name => exact hword (isWord_of_isIdentifier hl.1.1) hc
    | identifier name => exact hword hl.1.1 hc
    | openParen =>
      cases hc
      decide
    | _ => cases hb
  simp [Lexeme.endsBefore, hs, hne]

/-- Lexemes that may come after the text of a tree. -/
structure Following (v : Vocabulary H) (rest : List Lexeme) : Prop where
  chain : rest.IsChain Neighbours
  head : ∀ l ∈ rest.head?, v.Spells l ∧ l.follows = true

namespace Following

variable {rest : List Lexeme}

theorem nil : v.Following [] := ⟨.nil, by simp⟩

theorem cons (hl : v.Spells l) (hf : l.follows = true) (h : (l :: rest).IsChain Neighbours) :
    v.Following (l :: rest) := by
  refine ⟨h, fun l' hl' => ?_⟩
  cases hl'
  exact ⟨hl, hf⟩

theorem close (h : v.Following rest) : v.Following (.closeParen :: rest) :=
  .cons ⟨trivial, trivial⟩ rfl (List.isChain_cons.mpr ⟨fun _ _ => .inr fun _ _ => rfl, h.chain⟩)

end Following

end Vocabulary

namespace Tree

open Lexeme (Neighbours)

/-- The text of a tree begins with what an operand begins with. -/
theorem exists_begins {t : Tree} (ht : t.Spellable v) :
    ∃ l ls, t.lexemes = l :: ls ∧ l.begins = true := by
  induction t with
  | literal value =>
    cases value with
    | number x =>
      simp only [lexemes, numberLexemes]
      split
      · exact ⟨_, _, rfl, rfl⟩
      · exact ⟨_, _, rfl, rfl⟩
    | text s => exact ⟨_, _, rfl, rfl⟩
    | noArguments => exact absurd ht id
  | name n => exact ⟨_, _, rfl, rfl⟩
  | unary s x _ =>
    unfold lexemes
    split
    · exact ⟨_, _, rfl, by rw [unaryLexeme_of_hasLetter ‹_›]; rfl⟩
    · exact ⟨_, _, rfl, rfl⟩
  | binary s x y ihx _ =>
    unfold lexemes
    split
    · obtain ⟨l, ls, hx, hl⟩ := ihx ht.2.1
      exact ⟨l, ls ++ .comma :: y.lexemes, by rw [hx]; rfl, hl⟩
    · exact ⟨_, _, rfl, rfl⟩
  | call callee x ihc _ =>
    obtain ⟨l, ls, hc, hl⟩ := ihc ht.1
    exact ⟨l, ls ++ enclosed x.lexemes, by rw [lexemes, hc]; rfl, hl⟩

theorem isChain_enclosed {ls rest : List Lexeme}
    (h : (ls ++ .closeParen :: rest).IsChain Neighbours) :
    (enclosed ls ++ rest).IsChain Neighbours := by
  have : (.openParen :: (ls ++ .closeParen :: rest)).IsChain Neighbours :=
    List.isChain_cons.mpr ⟨fun _ _ => .inr fun _ _ => rfl, h⟩
  simpa [enclosed] using this

/-- A lexeme in front of the text of a tree. -/
theorem isChain_cons_lexemes {t : Tree} (ht : t.Spellable v) (hl : ∀ l ∈ t.lexemes, v.Spells l)
    {rest : List Lexeme} (h : (t.lexemes ++ rest).IsChain Neighbours)
    (hb : ∀ l', v.Spells l' → l'.begins = true → Neighbours l l') :
    (l :: (t.lexemes ++ rest)).IsChain Neighbours := by
  refine List.isChain_cons.mpr ⟨fun l' hl' => ?_, h⟩
  obtain ⟨first, others, heq, hfirst⟩ := exists_begins ht
  rw [heq] at hl' hl
  cases hl'
  exact hb _ (hl _ List.mem_cons_self) hfirst

/-- A number of the text, in front of what may come after a tree. -/
theorem isChain_numberLexemes {rest : List Lexeme} (h : v.Following rest) :
    (numberLexemes x ++ rest).IsChain Neighbours := by
  unfold numberLexemes
  split
  · have quotient : Neighbours (.number 1) (.operator "/") := .inr (by decide)
    have divisor : Neighbours (.operator "/") (.number 0) := .inr (by decide)
    have close : Neighbours (.number 0) .closeParen := .inr (by decide)
    exact isChain_enclosed (.cons_cons quotient (.cons_cons divisor (.cons_cons close h.close.chain)))
  · refine List.isChain_cons.mpr ⟨fun l hl => ?_, h.chain⟩
    exact Vocabulary.neighbours_number (h.head l hl).1 (h.head l hl).2

/-- **Only words run into what comes next** in the text of a tree. -/
theorem isChain_neighbours {t : Tree} (ht : t.Spellable v) (hl : ∀ l ∈ t.lexemes, v.Spells l)
    {rest : List Lexeme} (hr : v.Following rest) : (t.lexemes ++ rest).IsChain Neighbours := by
  induction t generalizing rest with
  | literal value =>
    cases value with
    | number x => exact isChain_numberLexemes hr
    | text s => exact List.isChain_cons.mpr ⟨fun _ _ => .inr fun _ _ => rfl, hr.chain⟩
    | noArguments => exact absurd ht id
  | name n => exact List.isChain_cons.mpr ⟨fun _ _ => .inl rfl, hr.chain⟩
  | unary s x ih =>
    unfold lexemes at hl ⊢
    split at hl
    · have hx := ih ht.2.2 (fun l h => hl l (by simp [enclosed, h])) hr.close
      rw [if_pos ‹_›, unaryLexeme_of_hasLetter ‹_›]
      exact List.isChain_cons.mpr ⟨fun _ _ => .inl rfl, isChain_enclosed hx⟩
    · have hlx : ∀ l ∈ x.lexemes, v.Spells l := fun l h => hl l (by simp [enclosed, h])
      have hx := ih ht.2.2 hlx hr.close
      rw [if_neg ‹_›]
      refine isChain_enclosed (isChain_cons_lexemes ht.2.2 hlx hx fun l' h hb => ?_)
      unfold unaryLexeme
      split
      · exact Vocabulary.neighbours_operator h hb
      · exact .inl rfl
  | binary s x y ihx ihy =>
    unfold lexemes at hl ⊢
    split at hl
    · have hly : ∀ l ∈ y.lexemes, v.Spells l := fun l h => hl l (by simp [h])
      have hcomma : (.comma :: (y.lexemes ++ rest)).IsChain Neighbours :=
        isChain_cons_lexemes ht.2.2 hly (ihy ht.2.2 hly hr) fun _ _ _ => .inr fun _ _ => rfl
      have hx := ihx ht.2.1 (fun l h => hl l (by simp [h]))
        (.cons (l := .comma) ⟨trivial, trivial⟩ rfl hcomma)
      rw [if_pos ‹_›]
      simpa using hx
    · have hly : ∀ l ∈ y.lexemes, v.Spells l := fun l h => hl l (by simp [enclosed, h])
      have hoperator : (.operator s :: (y.lexemes ++ .closeParen :: rest)).IsChain Neighbours :=
        isChain_cons_lexemes ht.2.2 hly (ihy ht.2.2 hly hr.close) fun _ =>
          Vocabulary.neighbours_operator
      have hx := ihx ht.2.1 (fun l h => hl l (by simp [enclosed, h]))
        (.cons (hl _ (by simp [enclosed])) rfl hoperator)
      rw [if_neg ‹_›]
      exact isChain_enclosed (by simpa using hx)
  | call callee x ihc ihx =>
    have hx : (x.lexemes ++ .closeParen :: rest).IsChain Neighbours := by
      rcases ht.2 with rfl | hx
      · exact hr.close.chain
      · exact ihx hx (fun l h => hl l (by simp [lexemes, enclosed, h])) hr.close
    have hcalled : v.Following (enclosed x.lexemes ++ rest) :=
      .cons (l := .openParen) ⟨trivial, trivial⟩ rfl (isChain_enclosed hx)
    have hc := ihc ht.1 (fun l h => hl l (by simp [lexemes, h])) hcalled
    simpa only [lexemes, List.append_assoc] using hc

end Tree

end PanelCalc
