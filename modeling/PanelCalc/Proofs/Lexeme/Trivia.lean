import Mathlib.Data.List.Infix
import PanelCalc.Proofs.Lexeme.Next

/-! # What stands between lexemes

Blanks and closed comments, in any order. A comment goes on up to the first place
where it is closed. Scanning skips just these characters, up to the first that a
lexeme may begin with. -/
namespace PanelCalc.Lexeme

open Text (Cursor)

/-- The characters that close a comment. -/
def closing : List Char := ['*', '/']

/-- Blanks and comments that are closed. -/
inductive Trivia : List Char → Prop
  | nil : Trivia []
  | blank {c rest} : Text.isBlank c = true → Trivia rest → Trivia (c :: rest)
  | comment {body rest} : ¬ closing <:+: body → Trivia rest →
      Trivia ('/' :: '*' :: (body ++ closing ++ rest))

variable {column : Nat} {c : Char} {chars rest body gap : List Char} {next place : Cursor}

namespace Trivia

theorem append (h : Trivia gap) (hr : Trivia rest) : Trivia (gap ++ rest) := by
  induction h with
  | nil => exact hr
  | blank hb _ ih => exact .blank hb ih
  | comment hbody _ ih =>
    simp only [List.cons_append, List.append_assoc]
    rw [← List.append_assoc]
    exact .comment hbody ih

/-- They begin with a blank or with a slash. -/
theorem head (h : Trivia gap) (hc : c ∈ gap.head?) : Text.isBlank c = true ∨ c = '/' := by
  cases h with
  | nil => cases hc
  | blank hb => cases hc; exact .inl hb
  | comment => cases hc; exact .inr rfl

end Trivia

/-! ## Comments -/

/-- Characters are inside of a comment unless they close it. -/
theorem not_closing_cons (rest : List Char) (h : ¬ closing <:+: c :: body) :
    (c = '*' → (body ++ closing ++ rest).head? ≠ some '/') ∧ ¬ closing <:+: body := by
  refine ⟨fun hc hhead => h ?_, fun hbody => h (hbody.trans (List.suffix_cons c body).isInfix)⟩
  cases body with
  | nil => cases hhead
  | cons d body =>
    cases hhead
    exact ⟨[], body, by rw [hc]; rfl⟩

/-- A comment is closed at the first place where it can be. -/
theorem closeComment?_body (h : ¬ closing <:+: body) :
    closeComment? column (body ++ closing ++ rest) = some ⟨column + body.length + 2, rest⟩ := by
  induction body generalizing column with
  | nil => rfl
  | cons c body ih =>
    obtain ⟨hc, hbody⟩ := not_closing_cons rest h
    rw [List.cons_append, List.cons_append, closeComment?_cons hc, ih hbody, List.length_cons,
      Nat.add_right_comm column 1, Nat.add_assoc column]

/-- Where a comment is closed there has been no earlier place to close it. -/
theorem exists_body (h : closeComment? column chars = some next) :
    ∃ body, chars = body ++ closing ++ next.rest ∧ ¬ closing <:+: body ∧
      next.column = column + body.length + 2 := by
  fun_induction closeComment? column chars with
  | case1 column rest =>
    cases h
    exact ⟨[], rfl, fun hi => List.cons_ne_nil _ _ (List.infix_nil.mp hi), rfl⟩
  | case2 column c chars hnot ih =>
    obtain ⟨body, rfl, hbody, hcolumn⟩ := ih h
    refine ⟨c :: body, rfl, fun hi => ?_, ?_⟩
    · rcases List.infix_cons_iff.mp hi with hp | hi
      · -- then it would have been closed here
        obtain ⟨others, ho⟩ := hp
        cases ho
        exact hnot _ rfl rfl
      · exact hbody hi
    · rw [hcolumn, List.length_cons]
      omega
  | case3 => cases h

/-! ## Skipping -/

/-- Blanks and comments are skipped, whatever comes after them. -/
theorem skipTrivia_of_trivia (h : Trivia gap) (column : Nat) (rest : List Char) :
    skipTrivia column (gap ++ rest) = skipTrivia (column + gap.length) rest := by
  induction h generalizing column with
  | nil => rfl
  | blank hb _ ih =>
    rw [List.cons_append, skipTrivia_blank hb, ih, List.length_cons]
    congr 1
    omega
  | @comment body others hbody _ ih =>
    have hclosed : closeComment? (column + 2) (body ++ closing ++ (others ++ rest)) = _ :=
      closeComment?_body hbody
    rw [← List.append_assoc] at hclosed
    rw [List.cons_append, List.cons_append, skipTrivia_comment hclosed, ih]
    congr 1
    simp [closing]
    omega

/-- What is skipped are blanks and comments. -/
theorem exists_trivia (h : skipTrivia column chars = .ok place) :
    ∃ gap, chars = gap ++ place.rest ∧ Trivia gap ∧ place.column = column + gap.length := by
  fun_induction skipTrivia column chars with
  | case1 column chars next closed ih =>
    obtain ⟨body, rfl, hbody, hnext⟩ := exists_body closed
    obtain ⟨gap, hrest, hgap, hcolumn⟩ := ih h
    refine ⟨_, ?_, .comment hbody hgap, ?_⟩
    · simp [hrest]
    · rw [hcolumn, hnext]
      simp [closing]
      omega
  | case2 => cases h
  | case3 column c rest _ hb ih =>
    obtain ⟨gap, rfl, hgap, hcolumn⟩ := ih h
    refine ⟨c :: gap, rfl, .blank hb hgap, ?_⟩
    rw [hcolumn, List.length_cons]
    omega
  | case4 | case5 =>
    cases h
    exact ⟨[], rfl, .nil, rfl⟩

variable {classify : String → Lexeme}

theorem next?_of_trivia_append (h : Trivia gap) (column : Nat) (rest : List Char) :
    next? classify ⟨column, gap ++ rest⟩ = next? classify ⟨column + gap.length, rest⟩ := by
  simp only [next?, skipTrivia_of_trivia h]

/-- Where nothing but blanks and comments is left, the text ends. -/
theorem next?_of_trivia (h : Trivia gap) (column : Nat) :
    next? classify ⟨column, gap⟩ = .ok none := by
  have hend : next? classify ⟨column, gap ++ []⟩ = _ := next?_of_trivia_append h column []
  rw [List.append_nil] at hend
  rw [hend, next?, skipTrivia_nil]
  rfl

theorem trivia_of_next? (h : next? classify place = .ok none) :
    Trivia place.rest := by
  obtain ⟨column, hskip⟩ := next?_none h
  obtain ⟨gap, hrest, hgap, -⟩ := exists_trivia hskip
  rwa [hrest, List.append_nil]

end PanelCalc.Lexeme
