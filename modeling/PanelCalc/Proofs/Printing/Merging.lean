import PanelCalc.Proofs.Printing.Inorder
import PanelCalc.Proofs.Printing.Neighbours

/-! # Words that run together

Where a word of a text runs into what comes next, scanning finds a longer word
in its place. What is read then has another word at this place than the tree
that the text was written for. -/
namespace PanelCalc

open Lexeme (Lexes Neighbours IsWord)

variable {H : Type} {v : Vocabulary H} {l : Lexeme} {ls all : List Lexeme} {column : Nat}

namespace Vocabulary

/-- A word that does not end before a character goes on with it. -/
theorem exists_word_of_endsBefore (hl : v.Spells l) (hw : l.isWord = true) {c : Char}
    (hc : l.endsBefore c = false) : ∃ n : String, l = v.classify n ∧ l.spelling = n.toList ∧
      IsWord n.toList ∧ Text.continuesWord c = true := by
  cases l with
  | operator s =>
    have hs : Text.isIdentifier s = true := hw
    simp only [Lexeme.endsBefore, hs, if_true, Bool.or_eq_false_iff, Bool.not_eq_false'] at hc
    rcases hl.1.operator_cases with ⟨-, hno, -⟩ | ⟨-, hclass⟩
    · rw [hs] at hno
      cases hno
    · exact ⟨s, hclass.symm, by simp [Lexeme.spelling, hc.1], isWord_of_isIdentifier hs, hc.2⟩
  | namedUnary name =>
    have hcont : Text.continuesWord c = true := by simpa [Lexeme.endsBefore] using hc
    exact ⟨name, hl.1.2.symm, rfl, isWord_of_isIdentifier hl.1.1, hcont⟩
  | identifier name =>
    have hcont : Text.continuesWord c = true := by simpa [Lexeme.endsBefore] using hc
    exact ⟨name, hl.1.2.symm, rfl, hl.1.1, hcont⟩
  | _ => cases hw

/-- **The first word that runs into the next lexeme is found as a longer one.** -/
theorem exists_longer (hl : ∀ l ∈ ls, v.Spells l) (hc : ls.IsChain Neighbours)
    (hn : ¬ ls.IsChain Lexeme.Apart) (h : Lexes v.classify ⟨column, spellings ls⟩ all) :
    ∃ pre n post w post', ls = pre ++ v.classify n :: post ∧ all = pre ++ v.classify w :: post' ∧
      IsWord n.toList ∧ IsWord w.toList ∧ w ≠ n := by
  induction ls generalizing column all with
  | nil => exact absurd .nil hn
  | cons l ls ih =>
    have hls : ∀ l' ∈ ls, v.Spells l' := fun l' h => hl l' (List.mem_cons_of_mem _ h)
    rw [List.isChain_cons] at hc hn
    rw [spellings_cons] at h
    by_cases hap : ∀ l' ∈ ls.head?, l.Apart l'
    · have hends := endsBefore_of_apart hls hap
      obtain ⟨column', hscan⟩ := Lexeme.lexes_of_scans
        (scans_spelling (hl l List.mem_cons_self) hends .done) column
      obtain ⟨all, rfl, hall⟩ := (hscan _).mp h
      obtain ⟨pre, n, post, w, post', rfl, rfl, hwords⟩ :=
        ih hls hc.2 (fun hchain => hn ⟨hap, hchain⟩) hall
      exact ⟨l :: pre, n, post, w, post', rfl, rfl, hwords⟩
    · push Not at hap
      obtain ⟨l', hhead, hap⟩ := hap
      obtain ⟨ls, rfl⟩ := List.head?_eq_some_iff.mp hhead
      unfold Lexeme.Apart at hap
      push Not at hap
      obtain ⟨c, hcl, hends⟩ := hap
      obtain ⟨n, rfl, hspell, hword, hcont⟩ := exists_word_of_endsBefore (hl l List.mem_cons_self)
        ((hc.1 l' rfl).resolve_right fun h => hends (h c hcl)) (by simpa using hends)
      obtain ⟨others, hl'⟩ := List.head?_eq_some_iff.mp hcl
      have hnext : ∃ c ∈ (spellings (l' :: ls)).head?, Text.continuesWord c = true := by
        refine ⟨c, ?_, hcont⟩
        rw [spellings_cons, hl']
        rfl
      rw [hspell] at h
      cases h with
      | done hdone => exact absurd hdone (Lexeme.next?_ne_none_of_isWord hword)
      | next hfound _ =>
        obtain ⟨w, hw, hne, hlexeme⟩ := Lexeme.next?_longer hword hnext hfound
        rw [hlexeme]
        exact ⟨[], n, _, w, _, rfl, rfl, hword, hw, hne⟩

/-- What a word is kept as. -/
theorem kept_classify {w : String} (hw : IsWord w.toList) : (∃ x, v.classify w = .constant x) ∨
    (v.classify w).kept = [.operator w] ∨ (v.classify w).kept = [.identifier w] := by
  have hplus : w ≠ "+" := by
    rintro rfl
    have := Lexeme.opensWord_of_isWord hw '+' (by decide)
    revert this
    decide
  have hmeans := v.means_classify w
  generalize v.classify w = l at hmeans ⊢
  cases hmeans with
  | constant => exact .inl ⟨_, rfl⟩
  | operator | namedUnary => exact .inr (.inl (if_neg hplus))
  | identifier => exact .inr (.inr rfl)

/-- A word that is spelled is kept as no other word is. -/
theorem word_eq_of_kept {n w : String} (hn : IsWord n.toList) (hw : IsWord w.toList)
    (hs : v.Spells (v.classify n)) {post post' : List Lexeme}
    (h : (v.classify n).kept ++ post = (v.classify w).kept ++ post') : w = n := by
  rcases kept_classify hn with ⟨x, hx⟩ | hkept
  · rw [hx] at hs
    exact absurd hs.2 id
  rcases kept_classify hw with ⟨y, hy⟩ | hkept'
  · rw [hy] at h
    rcases hkept with hkept | hkept
    all_goals
      rw [hkept] at h
      cases h
  · have hwords : ∀ a b : Lexeme, (v.classify n).kept = [a] → (v.classify w).kept = [b] → a = b :=
      fun a b ha hb => List.head_eq_of_cons_eq (ha ▸ hb ▸ h)
    rcases hkept with hkept | hkept <;> rcases hkept' with hkept' | hkept'
    · exact (Lexeme.operator.inj (hwords _ _ hkept hkept')).symm
    · cases hwords _ _ hkept hkept'
    · cases hwords _ _ hkept hkept'
    · exact (Lexeme.identifier.inj (hwords _ _ hkept hkept')).symm

end Vocabulary

/-- **Only a text in which nothing runs together reads back.** -/
theorem Tree.isChain_of_reads {t : Tree} (ht : t.Spellable v) (hl : ∀ l ∈ t.lexemes, v.Spells l)
    (hall : Lexes v.classify ⟨column, spellings t.lexemes⟩ all)
    (h : Reads v.grammar (.chain 0) all t.spelledOut []) : t.lexemes.IsChain Lexeme.Apart := by
  by_contra hn
  have hc : t.lexemes.IsChain Neighbours := by
    have := isChain_neighbours ht hl .nil
    rwa [List.append_nil] at this
  obtain ⟨pre, n, post, w, post', hls, rfl, hword, hword', hne⟩ :=
    Vocabulary.exists_longer hl hc hn hall
  have hkept : t.lexemes.flatMap Lexeme.kept =
      (pre ++ v.classify w :: post').flatMap Lexeme.kept := by
    rw [t.kept_lexemes]
    simpa [Goal.kept, Goal.given] using h.kept
  have hspells : v.Spells (v.classify n) := hl _ (by simp [hls])
  rw [hls] at hkept
  simp only [List.flatMap_append, List.flatMap_cons, List.append_cancel_left_eq] at hkept
  exact hne (Vocabulary.word_eq_of_kept hword hword' hspells hkept)

end PanelCalc
