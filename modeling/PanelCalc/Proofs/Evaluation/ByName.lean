import PanelCalc.Proofs.Evaluation.SideBySide
import PanelCalc.Proofs.Panel.Names

/-! # Securities go by their names

The order in which panels list their securities has no part in what a formula
makes of them. Any panel may be put in an order of its own: the formula fails as
before or gives what reads the same by date and security. -/
namespace PanelCalc

open Panel (Rearranged)

/-- Every ranking ranks cells among those that it chooses by the entries of another row. -/
theorem RowRanking.eq_rankBy {allowed : Builtin → Prop} {f : List Float → List Float → List Float}
    (h : RowRanking allowed f) :
    ∃ chosen, ∀ keys cells : List Float, keys.length = cells.length →
      f keys cells = (cells.zip keys).map (Ranking.rankBy chosen (cells.zip keys)) := by
  cases h with
  | byGroup _ => exact ⟨_, fun _ _ => Ranking.byGroup_eq_map⟩
  | byCondition _ => exact ⟨_, fun keys cells _ => Ranking.byCondition_eq_map keys cells⟩

/-- **Rearranging panels is a simulation**, as far as there are results. -/
theorem Simulation.rearranged (a : Alignment) :
    Simulation False (fun _ => True) Rearranged a a := by
  have rebase {p q : Panel} (h : p.Rearranged q) :
      Follows False Rearranged (a.rebase p) (a.rebase q) :=
    Alignment.rebase_follows h h.dates fun c _ _ => h.align c.announcements c.tradeDates
  refine {
    shorter := fun h h' => by rw [h.rows, h'.rows]
    prepare := fun h => Alignment.prepare_follows h (rebase h)
    conform := ?_
    rebase := fun _ _ h => rebase h
    cells := ?_
    histories := fun _ h => h.mapColumns fun _ _ _ hs hs' => by rw [h.coincide.colCells hs hs']
    pairs := ?_
    ranks := ?_
    ranksBy := ?_ }
  · intro reference reference' p q hr h
    refine Alignment.conform_follows ?_ fun x y hxy => hxy.inOrder hr.symbols hr.nodup
    exact Alignment.conformDates_follows h h.dates hr.dates fun c _ _ =>
      hr.dates ▸ h.align c.announcements reference.dates
  · intro p q xs ys f h hs
    refine h.remap fun row col col' symbol hr hcol hcol' => ?_
    refine congrArg f (Operand.map_cell_congr hs fun p' q' hpq => ?_)
    exact hpq.related.cells (by rwa [hpq.left.symbols]) (by rwa [hpq.right.symbols])
  · intro n p q p' q' reduce _ h h' hi hi'
    refine h.mapColumns fun col col' symbol hs hs' => ?_
    rw [h.coincide.colCells hs hs',
      h'.coincide.colCells (by rwa [hi.symbols]) (by rwa [hi'.symbols])]
  · intro p q _ h _ _
    exact h.mapRows_rankBy h rfl rfl (fun _ => Ranking.all_eq_map _) fun _ => Ranking.all_eq_map _
  · intro f p q p' q' hf h _ _ h'
    obtain ⟨chosen, hf⟩ := hf.eq_rankBy
    have length {p p' : Panel} (hi : p'.IndexedAs p) (row : Nat) :
        (p'.rowCells row).length = (p.rowCells row).length := by
      rw [Panel.length_rowCells, Panel.length_rowCells, Panel.cols, hi.symbols, Panel.cols]
    exact h.mapRows_rankBy h'.related h'.left.symbols h'.right.symbols
      (fun row => hf _ _ (length h'.left row)) fun row => hf _ _ (length h'.right row)

variable {H : Type} {b b' : Bindings H}

/-- The same scalar, or a panel and the same panel with its columns permuted. -/
inductive Value.Permuted : Value H → Value H → Prop
  | scalar (x) : Permuted (.scalar x) (.scalar x)
  | panel {p} (valid : p.Valid) (σ : Equiv.Perm (Fin p.cols)) :
    Permuted (.panel p) (.panel (p.permute σ))

/-- Two bindings of the same names to values that differ in the order of columns only. -/
def Bindings.Permuted (b b' : Bindings H) : Prop :=
  ∀ name, Option.Rel Value.Permuted (b.get? name) (b'.get? name)

theorem Value.Permuted.rearranged {x y : Value H} (h : x.Permuted y) :
    Value.Alike Rearranged x y ∧ Value.Alike Rearranged y x := by
  cases h with
  | scalar x => exact ⟨.scalar x, .scalar x⟩
  | panel valid σ =>
    have h := Panel.rearranged_permute valid.symbols σ
    exact ⟨.panel h, .panel h.symm⟩

theorem Bindings.Permuted.rearranged (h : b.Permuted b') :
    b.Alike Rearranged b' ∧ b'.Alike Rearranged b := by
  refine forall_and.mp fun name => ?_
  have h := h name
  generalize b.get? name = bound, b'.get? name = bound' at h ⊢
  cases h with
  | none => exact ⟨.none, .none⟩
  | some h => exact ⟨.some h.rearranged.1, .some h.rearranged.2⟩

/-- **Securities go by their names.** Over scalars and valid panels, whatever the
columns of each panel are permuted by, a formula fails as before or gives a value
in which all panels read the same by date and security. -/
theorem Formula.evaluate_permuted [HostFunctions H] {caseStyle : CaseStyle} (program : Program)
    (a : Alignment) (hb : b.Permuted b') :
    ((∃ x, evaluate ⟨program, Vocabulary.builtin caseStyle⟩ b a = .ok x) ↔
      ∃ y, evaluate ⟨program, Vocabulary.builtin caseStyle⟩ b' a = .ok y) ∧
    ∀ x y, evaluate ⟨program, Vocabulary.builtin caseStyle⟩ b a = .ok x →
      evaluate ⟨program, Vocabulary.builtin caseStyle⟩ b' a = .ok y →
        Value.Alike Panel.ReadsAs x y := by
  obtain ⟨hb, hb'⟩ := hb.rearranged
  have forth : Follows False (Value.Alike Rearranged)
      (evaluate ⟨program, Vocabulary.builtin caseStyle⟩ b a)
      (evaluate ⟨program, Vocabulary.builtin caseStyle⟩ b' a) :=
    evaluate_follows (Simulation.rearranged a) hb fun _ _ => trivial
  have back : Follows False (Value.Alike Rearranged)
      (evaluate ⟨program, Vocabulary.builtin caseStyle⟩ b' a)
      (evaluate ⟨program, Vocabulary.builtin caseStyle⟩ b a) :=
    evaluate_follows (Simulation.rearranged a) hb' fun _ _ => trivial
  refine ⟨⟨?_, ?_⟩, ?_⟩
  · rintro ⟨x, hx⟩
    obtain ⟨y, hy, -⟩ := forth.exists_ok hx
    exact ⟨y, hy⟩
  · rintro ⟨y, hy⟩
    obtain ⟨x, hx, -⟩ := back.exists_ok hy
    exact ⟨x, hx⟩
  · intro x y hx hy
    obtain ⟨z, hz, hxz⟩ := forth.exists_ok hx
    cases hy.symm.trans hz
    exact hxz.imp fun _ _ h => h.readsAs

/-! ## Two panels, one of them the other way round -/

namespace Swapped

def days : List Date := [⟨2021, 1, 4, by decide⟩, ⟨2021, 1, 5, by decide⟩]

def close : Panel := ⟨days, ["A", "B"], #[1, 2, 4, 3], rfl⟩

def volume : Panel := ⟨days, ["B", "A"], #[10, 20, 30, 40], rfl⟩

/-- `Rank(close) * volume` -/
def weighted : Program :=
  [.var "Rank", .var "close", .call, .var "volume", .binary "*"]

def bindings : Bindings Empty := ⟨[("close", .panel close), ("volume", .panel volume)]⟩

/-- The columns of one panel swapped, those of the other one left as they are. -/
def swapped : Bindings Empty :=
  ⟨[("close", .panel (close.permute (Equiv.swap ⟨0, by decide⟩ ⟨1, by decide⟩))),
    ("volume", .panel (volume.permute 1))]⟩

theorem bindings_permuted : bindings.Permuted swapped := by
  intro name
  simp only [Bindings.get?, bindings, swapped, List.lookup_cons, List.lookup_nil]
  split
  · exact .some (.panel ⟨by decide, by decide⟩ _)
  split
  · exact .some (.panel ⟨by decide, by decide⟩ _)
  · exact .none

end Swapped

open Swapped in
/-- Swapping the columns of one panel swaps those of the product. -/
theorem Formula.evaluate_permuted_swapped : bindings.Permuted swapped ∧ ∃ p q,
    evaluate ⟨weighted, Vocabulary.builtin .upper⟩ bindings .never = .ok (.panel p) ∧
      evaluate ⟨weighted, Vocabulary.builtin .upper⟩ swapped .never = .ok (.panel q) ∧
      p.symbols = ["A", "B"] ∧ q.symbols = ["B", "A"] ∧ p.ReadsAs q := by
  obtain ⟨p, hp, hps⟩ : ∃ p, evaluate ⟨weighted, Vocabulary.builtin .upper⟩ bindings .never =
      .ok (.panel p) ∧ p.symbols = ["A", "B"] := ⟨_, rfl, rfl⟩
  obtain ⟨q, hq, hqs⟩ : ∃ q, evaluate ⟨weighted, Vocabulary.builtin .upper⟩ swapped .never =
      .ok (.panel q) ∧ q.symbols = ["B", "A"] := ⟨_, rfl, rfl⟩
  refine ⟨bindings_permuted, p, q, hp, hq, hps, hqs, ?_⟩
  cases (evaluate_permuted weighted .never bindings_permuted).2 _ _ hp hq with
  | panel h => exact h

end PanelCalc
