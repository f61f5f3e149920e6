import PanelCalc.Proofs.Lexeme.Known
import PanelCalc.Proofs.Syntax.Acceptance
import PanelCalc.Proofs.Syntax.Completeness
import PanelCalc.Proofs.Vocabulary.Reachable

/-! # Builders and the grammar of formulas agree

A builder that knows parentheses only as an amount added to priorities accepts
the expressions of the grammar and nothing else, and what it makes of them is
the postorder of the tree that precedence climbing reads. This is so as long as
the amounts fit; one level further in a parenthesis is no barrier any more, which
`Grammar.Sound.run_too_deep` shows. -/
namespace PanelCalc

variable {H : Type}

namespace Vocabulary

variable {v : Vocabulary H}

theorem mem_unary_of_unary? {s : String} {e : UnaryEntry H} (h : v.unary? s = some e) :
    e ∈ v.unary ∧ e.symbol = s :=
  ⟨List.mem_of_find?_eq_some h, by simpa using List.find?_some h⟩

theorem mem_binary_of_binary? {s : String} {e : BinaryEntry H} (h : v.binary? s = some e) :
    e ∈ v.binary ∧ e.symbol = s :=
  ⟨List.mem_of_find?_eq_some h, by simpa using List.find?_some h⟩

/-- Only the comma that is built in is called a comma. -/
theorem WellFormed.comma (hv : v.WellFormed) {e : BinaryEntry H} (h : v.binary? "," = some e) :
    e = commaEntry := by
  obtain ⟨hm, hs⟩ := mem_binary_of_binary? h
  refine (hv.binary e hm).resolve_left ?_
  intro he
  have := he.lexable
  rw [hs] at this
  exact absurd this (by decide)

theorem WellFormed.sound (hv : v.WellFormed) : v.grammar.Sound where
  unary s p h := by
    obtain ⟨e, he, rfl⟩ := Option.map_eq_some_iff.mp h
    exact (hv.unary e (mem_unary_of_unary? he).1).priority
  binary s p hs h := by
    obtain ⟨e, he, rfl⟩ := Option.map_eq_some_iff.mp h
    obtain ⟨hm, rfl⟩ := mem_binary_of_binary? he
    refine ((hv.binary e hm).resolve_right ?_).priority
    rintro rfl
    exact hs rfl
  comma := by
    show (((v.binary? ",").map (·.priority)).getD Priority.comma) = Priority.comma
    cases h : v.binary? "," with
    | none => rfl
    | some e => rw [hv.comma h]; rfl

end Vocabulary

open Builder

theorem Goal.ready_start {least : Int} : (Goal.chain least).Ready start 0 :=
  ⟨.start, fun _ => rfl, by simp [Builder.Clear, start], by simp [Goal.Low, Builder.Clear, start]⟩

/-- What a reading of all lexemes makes. -/
theorem Reads.run_start {g : Grammar} (hg : g.Sound) {ls : List Lexeme} {t : Tree}
    (hn : Lexeme.nesting ls ≤ Priority.deepest) (h : Reads g (.chain 0) ls t []) :
    start.run g ls = .ok t.postorder := by
  refine (h.run hg start 0 Goal.ready_start hn).trans
    (finish_eq_ok.mpr ⟨rfl, by simp [put, start], rfl, ?_, ?_⟩)
  · have := t.operands_eq
    simp only [put, start]
    omega
  · simp [put, start]

/-- Where a builder succeeds, all lexemes can be read. -/
theorem Goal.complete_start {g : Grammar} (hg : g.Sound) {ls : List Lexeme} {program : Program}
    (hn : Lexeme.nesting ls ≤ Priority.deepest) (hcomma : .operator "," ∉ ls)
    (h : start.run g ls = .ok program) : ∃ t, Reads g (.chain 0) ls t [] := by
  obtain ⟨t, rest, hr⟩ := Goal.complete hg ls (.chain 0) start 0
    ⟨Goal.ready_start, hn, (fun _ h => by cases h), hcomma, program, h⟩
  rw [show start.run g ls = _ from hr.run hg start 0 Goal.ready_start hn] at h
  rcases next_of_run hg .start hr.ends (fun hc => hcomma (hr.suffix.subset hc)) h with
    ⟨rfl, -⟩ | ⟨hd, -⟩
  · exact ⟨t, hr⟩
  · exact absurd rfl hd

end PanelCalc
