import PanelCalc.Formula.Basic
import PanelCalc.Proofs.Lexeme.Spelling
import PanelCalc.Proofs.Syntax.Equivalence

/-! # Reading what has been scanned

Reading a text succeeds with a program if and only if scanning finds lexemes in
it, up to its end, of which a builder makes this program. -/
namespace PanelCalc

open Text (Cursor opensWord)

namespace Lexeme

/-- The lexemes from a place to the end of the text. -/
inductive Lexes (classify : String → Lexeme) : Cursor → List Lexeme → Prop
  | done {cursor} : next? classify cursor = .ok none → Lexes classify cursor []
  | next {cursor located after ls} : next? classify cursor = .ok (some (located, after)) →
      Lexes classify after ls → Lexes classify cursor (located.lexeme :: ls)

variable {classify : String → Lexeme} {column : Nat} {chars : List Char}

theorem next?_nil : next? classify ⟨column, []⟩ = .ok none := by
  simp [next?, skipTrivia, bind, Except.bind, pure, Except.pure]

theorem next?_blank {c : Char} (hb : Text.isBlank c = true) :
    next? classify ⟨column, c :: chars⟩ = next? classify ⟨column + 1, chars⟩ := by
  simp only [next?, skipTrivia_blank hb]

variable {σ : Type} {take : σ → Located → Except CompileError σ} {state : σ} {cursor : Cursor}

theorem fold_of_none (h : next? classify cursor = .ok none) :
    fold classify take state cursor = .ok state := by
  rw [fold]
  split <;> simp_all

theorem fold_of_error {e : CompileError} (h : next? classify cursor = .error e) :
    fold classify take state cursor = .error e := by
  rw [fold]
  split <;> simp_all

theorem fold_of_some {located : Located} {next : Cursor}
    (h : next? classify cursor = .ok (some (located, next))) :
    fold classify take state cursor =
      take state located >>= fun state => fold classify take state next := by
  rw [fold]
  split
  · simp_all
  · simp_all
  · rename_i heq
    rw [h] at heq
    cases heq
    cases take state located <;> rfl

theorem lexes_of_next? {located : Located} {next : Cursor} {ls : List Lexeme}
    (h : next? classify cursor = .ok (some (located, next))) :
    Lexes classify cursor ls ↔ ∃ ls', ls = located.lexeme :: ls' ∧ Lexes classify next ls' := by
  constructor
  · intro hl
    cases hl with
    | done hn =>
      rw [h] at hn
      cases hn
    | next hn hl =>
      rw [h] at hn
      cases hn
      exact ⟨_, rfl, hl⟩
  · intro hl
    obtain ⟨ls', rfl, hl⟩ := hl
    exact .next h hl

/-- A text has one list of lexemes. -/
theorem Lexes.unique {ls ls' : List Lexeme} (h : Lexes classify cursor ls)
    (h' : Lexes classify cursor ls') : ls = ls' := by
  induction h generalizing ls' with
  | done hn =>
    cases h' with
    | done => rfl
    | next hn' =>
      rw [hn] at hn'
      cases hn'
  | next hn _ ih =>
    obtain ⟨others, rfl, hothers⟩ := (lexes_of_next? hn).mp h'
    rw [ih hothers]

theorem lexes_blank {ls : List Lexeme} : Lexes classify ⟨column, ' ' :: chars⟩ ls ↔
    Lexes classify ⟨column + 1, chars⟩ ls := by
  have hn : next? classify ⟨column, ' ' :: chars⟩ = next? classify ⟨column + 1, chars⟩ :=
    next?_blank (by decide)
  refine ⟨fun h => ?_, fun h => ?_⟩
  · cases h with
    | done h => exact .done (hn ▸ h)
    | next h hl => exact .next (hn ▸ h) hl
  · cases h with
    | done h => exact .done (hn.trans h)
    | next h hl => exact .next (hn.trans h) hl

/-- Whatever comes after scanned characters is scanned as it is on its own. -/
theorem lexes_of_scans {ls : List Lexeme} {rest : List Char} (h : Scans classify chars ls rest)
    (column : Nat) : ∃ column', ∀ all, Lexes classify ⟨column, chars⟩ all ↔
      ∃ ls', all = ls ++ ls' ∧ Lexes classify ⟨column', rest⟩ ls' := by
  induction h generalizing column with
  | done => exact ⟨column, fun all => by simp⟩
  | blank _ ih =>
    obtain ⟨column', h⟩ := ih (column + 1)
    exact ⟨column', fun all => lexes_blank.trans (h all)⟩
  | next hn _ ih =>
    obtain ⟨column', hn⟩ := hn column
    obtain ⟨column'', h⟩ := ih column'
    refine ⟨column'', fun all => ?_⟩
    rw [lexes_of_next? hn]
    simp [h]

/-- Where scanning finds lexemes up to the end, they are those of the text. -/
theorem Lexes.ofText {text : String} {ls : List Lexeme}
    (h : Lexes classify (.start text) ls) :
    ∃ located, Lexeme.ofText classify text = .ok located ∧ located.map (·.lexeme) = ls := by
  suffices hf : ∀ found : List Located, ∃ located : List Located,
      fold classify (fun found located => .ok (located :: found)) found (.start text) =
        .ok (located.reverse ++ found) ∧ located.map (·.lexeme) = ls by
    obtain ⟨located, hl, hls⟩ := hf []
    exact ⟨located, by simp [Lexeme.ofText, hl, Except.map], hls⟩
  generalize Cursor.start text = cursor at h ⊢
  induction h with
  | done hn => exact fun found => ⟨[], fold_of_none hn, rfl⟩
  | @next _ first _ _ hn _ ih =>
    intro found
    obtain ⟨located, hl, hls⟩ := ih (first :: found)
    refine ⟨first :: located, ?_, by simp [hls]⟩
    rw [fold_of_some hn]
    simpa [bind, Except.bind] using hl

end Lexeme

open Lexeme (Lexes)

namespace Grammar

variable {g : Grammar} {b : Builder} {cursor : Cursor} {program : Program}

theorem take_eq_ok {located : Located} {b' : Builder} :
    g.take b located = .ok b' ↔ b.accept g located.lexeme = .ok b' := by
  unfold take
  cases b.accept g located.lexeme <;> simp [Except.mapError]

theorem take_eq_error {located : Located} {e : CompileError} : g.take b located = .error e ↔
    ∃ fault, b.accept g located.lexeme = .error fault ∧
      e = ⟨located.column, .structural fault⟩ := by
  unfold take
  cases b.accept g located.lexeme <;> simp [Except.mapError, eq_comm]

/-- What a builder makes of a text it makes of the lexemes of the text. -/
theorem fold_eq_ok : (∃ built, Lexeme.fold g.classify g.take b cursor = .ok built ∧
    built.finish = .ok program) ↔ ∃ ls, Lexes g.classify cursor ls ∧ b.run g ls = .ok program := by
  constructor
  · intro h
    obtain ⟨built, hf, hp⟩ := h
    fun_induction Lexeme.fold g.classify g.take b cursor with
    | case1 => cases hf
    | case2 b cursor hn =>
      cases hf
      exact ⟨[], .done hn, hp⟩
    | case3 => cases hf
    | case4 b cursor located next hn b' hb ih =>
      obtain ⟨ls, hl, hr⟩ := ih hf
      exact ⟨located.lexeme :: ls, .next hn hl, (Builder.run_cons_ok (take_eq_ok.mp hb)).trans hr⟩
  · intro h
    obtain ⟨ls, hl, hr⟩ := h
    induction hl generalizing b with
    | done hn => exact ⟨b, Lexeme.fold_of_none hn, hr⟩
    | @next _ located _ _ hn _ ih =>
      rw [Lexeme.fold_of_some hn]
      cases ha : b.accept g located.lexeme with
      | error e => rw [Builder.run_cons_error ha] at hr; cases hr
      | ok b' =>
        rw [Builder.run_cons_ok ha] at hr
        rw [take_eq_ok.mpr ha]
        exact ih hr

theorem read_eq_ok {text : String} : g.read text = .ok program ↔
    ∃ ls, Lexes g.classify (.start text) ls ∧ Builder.start.run g ls = .ok program := by
  rw [← fold_eq_ok]
  unfold read
  cases h : Lexeme.fold g.classify g.take .start (Cursor.start text) with
  | error e => simp [bind, Except.bind]
  | ok built =>
    simp only [bind, Except.bind, Except.ok.injEq, exists_eq_left']
    cases built.finish <;> simp [Except.mapError]

end Grammar

namespace Vocabulary

variable {H : Type} {v : Vocabulary H} {ls all : List Lexeme}

theorem produces_of_lexes {cursor : Cursor} (h : Lexes v.classify cursor ls) :
    ∀ l ∈ ls, v.Produces l := by
  induction h with
  | done _ => simp
  | next hn _ ih =>
    intro l hl
    rcases List.mem_cons.mp hl with rfl | hl
    · exact ⟨_, _, _, hn, rfl⟩
    · exact ih l hl

/-- The lexemes of a text that spells lexemes apart are these. -/
theorem lexes_spellings (hl : ∀ l ∈ ls, v.Spells l) (hc : ls.IsChain Lexeme.Apart) (column : Nat) :
    Lexes v.classify ⟨column, ls.flatMap Lexeme.spelling⟩ all ↔ all = ls := by
  obtain ⟨column', hscan⟩ := Lexeme.lexes_of_scans (scans_spellings hl hc) column
  rw [hscan]
  constructor
  · intro h
    obtain ⟨rest, hall, hrest⟩ := h
    cases hrest with
    | done _ => simpa using hall
    | next hn _ =>
      rw [Lexeme.next?_nil] at hn
      cases hn
  · intro h
    exact ⟨[], by simpa using h, .done Lexeme.next?_nil⟩

/-- How deep the parentheses of a text nest, if it can be scanned. -/
def nesting (v : Vocabulary H) (text : String) : Nat :=
  match Lexeme.ofText v.classify text with
  | .ok ls => Lexeme.nesting (ls.map (·.lexeme))
  | .error _ => 0

theorem nesting_of_lexes {text : String} (h : Lexes v.classify (.start text) ls) :
    v.nesting text = Lexeme.nesting ls := by
  obtain ⟨located, hl, rfl⟩ := h.ofText
  rw [nesting, hl]

end Vocabulary

section Formula

variable {H : Type} {v : Vocabulary H}

/-- What a builder makes of scanned lexemes is the postorder of the tree that they
read as, if they do not nest too deep. -/
theorem Vocabulary.WellFormed.exists_reads (hv : v.WellFormed) {cursor : Cursor} {ls : List Lexeme}
    {program : Program} (hls : Lexes v.classify cursor ls)
    (hn : Lexeme.nesting ls ≤ Priority.deepest)
    (h : Builder.start.run v.grammar ls = .ok program) :
    ∃ t : Tree, program = t.postorder ∧ Reads v.grammar (.chain 0) ls t [] := by
  have hcomma : .operator "," ∉ ls := fun hc =>
    Produces.ne_comma (produces_of_lexes hls _ hc) rfl
  obtain ⟨t, ht⟩ := Goal.complete_start hv.sound hn hcomma h
  exact ⟨t, Except.ok.inj (h.symm.trans (ht.run_start hv.sound hn)), ht⟩

/-- A formula that has been read is the postorder of the tree that its lexemes
read as, if it does not nest too deep. -/
theorem Formula.exists_reads (hv : v.WellFormed) {source : String} {f : Formula H}
    (hn : v.nesting source ≤ Priority.deepest) (h : Formula.parse v source = .ok f) :
    ∃ (t : Tree) (ls : List Lexeme), f = ⟨t.postorder, v⟩ ∧
      Lexeme.Lexes v.classify (.start source) ls ∧ Reads v.grammar (.chain 0) ls t [] := by
  obtain ⟨program, hr, rfl⟩ := Formula.parse_eq_ok.mp h
  obtain ⟨ls, hls, hrun⟩ := Grammar.read_eq_ok.mp hr
  obtain ⟨t, rfl, ht⟩ := hv.exists_reads hls (Vocabulary.nesting_of_lexes hls ▸ hn) hrun
  exact ⟨t, ls, rfl, hls, ht⟩

theorem Formula.parse_of_reads (hv : v.WellFormed) {source : String} {t : Tree} {ls : List Lexeme}
    (hls : Lexeme.Lexes v.classify (.start source) ls) (hn : Lexeme.nesting ls ≤ Priority.deepest)
    (h : Reads v.grammar (.chain 0) ls t []) :
    Formula.parse v source = .ok ⟨t.postorder, v⟩ := by
  rw [Formula.parse, Grammar.read_eq_ok.mpr ⟨ls, hls, h.run_start hv.sound hn⟩]
  rfl

end Formula

end PanelCalc
