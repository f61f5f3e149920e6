import PanelCalc.Proofs.Lexeme.Renaming
import PanelCalc.Proofs.Lexeme.Scanning

/-! # The same program with other names

What a builder does depends on the priorities of operators and on no name. So
lexemes under new names make the same program under new names, if the operators
among them bind as before. -/
namespace PanelCalc

/-- The tree with every name and every operator before an operand under its new name. -/
def Tree.rename (ρ : String → String) : Tree → Tree
  | literal value => literal value
  | name n => name (ρ n)
  | unary symbol x => unary (ρ symbol) (x.rename ρ)
  | binary symbol x y => binary symbol (x.rename ρ) (y.rename ρ)
  | call callee x => call (callee.rename ρ) (x.rename ρ)

/-- The step under its new name. -/
def Step.rename (ρ : String → String) : Step → Step
  | var name => var (ρ name)
  | unary symbol => unary (ρ symbol)
  | other => other

/-- Operators bind under their new names as they did under the old ones. A sign has no name. -/
structure Grammar.Renames (ρ : String → String) (g g' : Grammar) : Prop where
  sign : ρ "-" = "-"
  unary {name : String} {p : Int} :
    g.unaryPriority? name = some p → g'.unaryPriority? (ρ name) = some p
  binary : g'.binaryPriority? = g.binaryPriority?

variable {ρ : String → String} {g g' : Grammar}

theorem Tree.postorder_rename (t : Tree) :
    (t.rename ρ).postorder = t.postorder.map (Step.rename ρ) := by
  induction t with
  | literal value => rfl
  | name n => rfl
  | unary symbol x ih => simp [rename, postorder, ih, Step.rename]
  | binary symbol x y ihx ihy => simp [rename, postorder, ihx, ihy, Step.rename]
  | call callee x ihc ihx => simp [rename, postorder, ihc, ihx, Step.rename]

/-- An operand is one under its new name. -/
theorem Lexeme.operand?_rename {l : Lexeme} {step : Step} {e : Expectation}
    (h : l.operand? = some (step, e)) : (l.rename ρ).operand? = some (step.rename ρ, e) := by
  cases l <;> cases h <;> rfl

namespace Builder

variable {b b' : Builder} {l : Lexeme} {ls : List Lexeme}

/-- Waiting operators under their new names. -/
def renameWaiting (ρ : String → String) : List (Step × Int32) → List (Step × Int32) :=
  List.map fun entry => (entry.1.rename ρ, entry.2)

/-- The builder with all steps under their new names. -/
def rename (ρ : String → String) (b : Builder) : Builder :=
  { b with output := b.output.map (Step.rename ρ), waiting := renameWaiting ρ b.waiting }

/-- What leaves is a matter of priorities. -/
theorem settle_rename (p : Int32) (w : List (Step × Int32)) (output : List Step) :
    settle p (renameWaiting ρ w) (output.map (Step.rename ρ)) =
      (renameWaiting ρ (settle p w output).1, (settle p w output).2.map (Step.rename ρ)) := by
  fun_induction settle p w output with
  | case1 output => rfl
  | case2 output step top w h => rw [renameWaiting, List.map_cons, settle, if_pos h]
  | case3 output step top w h ih => rwa [renameWaiting, List.map_cons, settle, if_neg h]

theorem join_rename (b : Builder) (step : Step) (p : Int) (e : Expectation) :
    (b.rename ρ).join (step.rename ρ) p e = (b.join step p e).rename ρ := by
  simp only [join, rename, settle_rename]
  rfl

/-- A lexeme under its new name does what it did. -/
theorem Accepts.rename (hg : g.Renames ρ g') (h : Accepts g b l b') :
    Accepts g' (b.rename ρ) (l.rename ρ) (b'.rename ρ) := by
  cases h with
  | operand begins hl => exact .operand begins (Lexeme.operand?_rename hl)
  | plus begins => exact .plus begins
  | @minus p begins hp =>
    have hp := hg.unary hp
    rw [hg.sign] at hp
    have hopener : Builder.rename ρ ({ b with started := true }.opener "-" p .operand) =
        { b.rename ρ with started := true }.opener "-" p .operand := by
      simp [Builder.rename, opener, renameWaiting, Step.rename, hg.sign]
    exact hopener ▸ .minus begins hp
  | named begins hp => exact .named begins (hg.unary hp)
  | operator ends hp =>
    rw [← join_rename]
    exact .operator ends (hg.binary ▸ hp)
  | comma ends hd =>
    rw [← join_rename, ← hg.binary]
    exact .comma ends hd
  | call hx =>
    rw [← join_rename]
    exact .call hx
  | opened hx => exact .opened hx
  | emptyCall hx => exact .emptyCall hx
  | closed ends hd => exact .closed ends hd

/-- **Lexemes under new names** make their program under new names. -/
theorem run_rename (hg : g.Renames ρ g') {program : Program} (h : b.run g ls = .ok program) :
    (b.rename ρ).run g' (ls.map (Lexeme.rename ρ)) = .ok (program.map (Step.rename ρ)) := by
  induction ls generalizing b with
  | nil =>
    obtain ⟨started, closed, ends, balance, rfl⟩ := finish_eq_ok.mp h
    refine finish_eq_ok.mpr ⟨started, closed, ends, balance, ?_⟩
    simp [rename, renameWaiting, Function.comp_def]
  | cons l ls ih =>
    obtain ⟨next, ha, h⟩ := run_cons_eq_ok.mp h
    exact (run_cons_ok ((accept_eq_ok.mp ha).rename hg).accept).trans (ih h)

end Builder

/-- A text with every name replaced by its new one. -/
def Lexeme.respellText (classify : String → Lexeme) (ρ : String → String) (text : String) :
    String :=
  .ofList (respell classify ρ (.start text))

/-- **A text with new names** has the program of the old text under these names. -/
theorem Formula.parse_respellText {H : Type} {v v' : Vocabulary H}
    (hg : v.grammar.Renames ρ v'.grammar) {text : String} {f : Formula H}
    (hf : parse v text = .ok f) (hl : ∀ l, Lexeme.Found v.classify (.start text) l →
      Lexeme.Carries v.classify v'.classify ρ l) :
    parse v' (Lexeme.respellText v.classify ρ text) =
      .ok ⟨f.program.map (Step.rename ρ), v'⟩ := by
  obtain ⟨program, hread, rfl⟩ := parse_eq_ok.mp hf
  obtain ⟨ls, hls, hrun⟩ := Grammar.read_eq_ok.mp hread
  have hlexes := hls.respell (fun l hm => hl l (hls.found_iff.mpr hm)) 0
  have hrun' : Builder.start.run v'.grammar (ls.map (Lexeme.rename ρ)) =
      .ok (program.map (Step.rename ρ)) := Builder.run_rename hg hrun
  refine parse_eq_ok.mpr ⟨_, Grammar.read_eq_ok.mpr ⟨_, ?_, hrun'⟩, rfl⟩
  rw [Lexeme.respellText, Text.Cursor.start, String.toList_ofList]
  exact hlexes

end PanelCalc
