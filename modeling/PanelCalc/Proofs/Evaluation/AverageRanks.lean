import PanelCalc.Proofs.Evaluation.Contexts
import PanelCalc.Proofs.Evaluation.Operands
import PanelCalc.Proofs.Evaluation.RankedPairs
import PanelCalc.Proofs.Panel.Counting
import PanelCalc.Proofs.Panel.Mapped
import PanelCalc.Proofs.Storage.Ties
import PanelCalc.Proofs.Vocabulary.BuiltinOperators

/-! # Ranks are average ranks

The functions that rank securities rank the cells of every row by counting. How
this is found, by going through the sorted cells from run to run of equal ones,
and from group to group, makes no difference; neither does the order of the
groups, so that a group is ranked as if it were chosen by a condition. -/
namespace PanelCalc

open Panel

variable {H : Type} {a : Alignment} {p x x' k k' c c' : Panel} {g : Float}

/-! ## Choosing a group -/

namespace Cell

/-- Whether a cell is the same as a number, as a condition. -/
def equals (g x : Float) : Float := compare (fun a b => a == b) x g

theorem equals_missing (g : Float) : equals g missing = missing := by
  rw [equals, compare, ifKnown, isNaN_missing]
  rfl

/-- The condition chooses the cells that are the same. -/
theorem isTrue_equals (g x : Float) : (isTrue (equals g x) && !(equals g x).isNaN) = (x == g) := by
  rw [equals, compare, ifKnown]
  by_cases hn : x.isNaN = true ∨ g.isNaN = true
  · have hne : (x == g) = false := by
      refine Bool.eq_false_iff.mpr fun heq => ?_
      obtain ⟨hx, hg⟩ := Double.not_isNaN_of_beq heq
      exact hn.elim hx hg
    rw [if_pos ((Bool.or_eq_true ..).mpr hn), isNaN_missing, hne, Bool.not_true, Bool.and_false]
  · rw [if_neg (mt (Bool.or_eq_true ..).mp hn)]
    cases x == g with
    | true => rfl
    | false => rfl

end Cell

theorem Vocabulary.binary?_equals (caseStyle : CaseStyle) :
    (builtin caseStyle : Vocabulary H).binary? "==" =
      some ⟨"==", 1, cellBinary "==" (Cell.compare fun a b => a == b)⟩ := by
  cases caseStyle <;> rfl

/-- Comparing a panel with a number compares its cells. -/
theorem Vocabulary.applyBinary_equals (caseStyle : CaseStyle) (h : a.prepare p = .ok x) (g : Float) :
    (builtin caseStyle : Vocabulary H).applyBinary a "==" (.panel p) (.scalar g) =
      .ok (.panel (x.map (Cell.equals g))) := by
  have hlongest : longest? ([Operand.panel x, .scalar g].filterMap Operand.panel?) = some x := rfl
  rw [applyBinary, binary?_equals]
  simp only [cellBinary, cellwise, List.mapM_cons, List.mapM_nil, Operand.ofValue, h, bind,
    Except.bind, pure, Except.pure, Except.map, Except.mapError, hlongest, Operand.conform,
    Alignment.conform_self ⟨rfl, rfl⟩]
  rfl

/-- What conforms to a panel that is ranked may be prepared for an operator before. -/
theorem Alignment.prepare_of_conform (hx : a.rebase x = .ok x') (hk : a.conform x' k = .ok k') :
    ∃ prepared, a.prepare k = .ok prepared ∧ a.conform x' prepared = .ok k' := by
  cases a with
  | never => exact ⟨k, rfl, hk⟩
  | whenNeeded calendar => exact ⟨k, rfl, hk⟩
  | always calendar =>
    have hdates : x'.dates = calendar.tradeDates := rebase_ok rfl hx
    by_cases hd : k.dates = calendar.tradeDates
    · exact ⟨k, if_pos hd, hk⟩
    · rw [conform_eq] at hk
      obtain ⟨aligned, haligned, hordered⟩ := bind_ok hk
      obtain ⟨hsame, -⟩ | ⟨-, _, hc, halign⟩ := conformDates_eq_ok.mp haligned
      · exact absurd (hsame.trans hdates) hd
      · cases hc
        refine ⟨aligned, (if_neg hd).trans (hdates ▸ halign), ?_⟩
        rw [conform_eq, conformDates_self (conformDates_ok haligned)]
        exact hordered

/-! ## Functions that rank -/

/-- The ranks of the cells of every row that are selected by their places, as they are scanned. -/
def Panel.ScannedBy (x : Panel) (included : Nat → Nat → Storage.Checked EvalError Bool)
    (q : Panel) : Prop :=
  ∀ row < x.rows, ∀ ranks : Array Float, ranks.size = x.cols →
    Storage.scanRow (x.rowCells row) (included row) ranks = .ok (q.rowCells row).toArray

theorem Panel.length_rowCells_of_indexedAs (h : k.IndexedAs x) (row : Nat) :
    (k.rowCells row).length = x.cols := by
  rw [length_rowCells, cols, h.symbols, cols]

theorem Panel.scannedBy_mapRows {included : Nat → Nat → Storage.Checked EvalError Bool}
    {flags : Nat → List Bool} {f : Nat → List Float → List Float}
    (hf : ∀ row, f row (x.rowCells row) = Ranking.selected (flags row) (x.rowCells row))
    (hl : ∀ row, (flags row).length = x.cols)
    (h : ∀ row i flag, (flags row)[i]? = some flag → included row i = .ok flag) :
    x.ScannedBy included (x.mapRows f) := by
  intro row hr ranks hranks
  have hflags : (flags row).length = (x.rowCells row).length := by rw [hl, length_rowCells]
  have hlength : (f row (x.rowCells row)).length = x.cols := by
    rw [hf, Storage.length_selected hflags, length_rowCells]
  rw [rowCells_mapRows hr hlength, hf]
  exact Storage.scanRow_eq hflags (h row) (by rw [hranks, length_rowCells])

theorem Panel.scannedBy_all (x : Panel) :
    x.ScannedBy (fun _ _ => return true) (x.mapRows fun _ => Ranking.all) :=
  scannedBy_mapRows (fun _ => rfl) (fun row => by rw [List.length_map, length_rowCells])
    fun row => Storage.included_all (x.rowCells row)

theorem Panel.scannedBy_byCondition (h : c.IndexedAs x) :
    x.ScannedBy (fun row i => do
      let condition ← Storage.read (c.rowCells row).toArray i
      return Cell.isTrue condition && !condition.isNaN)
      (x.mapRows fun row => Ranking.byCondition (c.rowCells row)) :=
  scannedBy_mapRows (fun _ => rfl)
    (fun row => by rw [List.length_map, length_rowCells_of_indexedAs h])
    fun _ => Storage.included_map fun key => Cell.isTrue key && !key.isNaN

theorem Panel.scanGroups_rowCells (h : k.IndexedAs x) {row : Nat} (hr : row < x.rows) :
    Storage.scanGroups (k.rowCells row) (x.rowCells row) =
      (.ok ((x.mapRows fun row => Ranking.byGroup (k.rowCells row)).rowCells row) :
        Storage.Checked EvalError _) := by
  have hkeys := length_rowCells_of_indexedAs h row
  rw [Storage.scanGroups_eq (by rw [hkeys, length_rowCells]), rowCells_mapRows hr]
  simpa [Ranking.byGroup] using hkeys

theorem Panel.rankedBy_byCondition (h : c.IndexedAs x) :
    x.RankedBy (fun row _ other => Cell.isTrue (c.cell row other) && !(c.cell row other).isNaN)
      (x.mapRows fun row => Ranking.byCondition (c.rowCells row)) :=
  rankedBy_mapRows h _ fun _ => Ranking.byCondition_eq_map ..

theorem Panel.rankedBy_byGroup (h : k.IndexedAs x) :
    x.RankedBy (fun row col other => k.cell row other == k.cell row col)
      (x.mapRows fun row => Ranking.byGroup (k.rowCells row)) :=
  rankedBy_mapRows h (fun key other => other == key) fun row =>
    Ranking.byGroup_eq_map (by rw [length_rowCells_of_indexedAs h, length_rowCells])

namespace Builtin

/-- **Ranks are average ranks by counting**, ties, infinities and signed zeros included. However a
panel is brought onto the trading dates and the conditions or the groups onto its index, each known
cell of a row has the average rank among all known cells, among those whose condition is known and
true, or among those of its own group; every other cell is missing. Scanning the sorted row from run
to run and the groups one after the other finds the same ranks, and on the cells of any group they
are the ranks under the condition that the group is the same. -/
theorem call_ranks_average (caseStyle : CaseStyle) (hx : a.rebase x = .ok x')
    (hc : a.conform x' c = .ok c') (hk : a.conform x' k = .ok k') :
    (∃ q, call a rank [(.panel x : Value H)] = .ok (.panel q) ∧
      x'.AverageRanks (fun _ _ _ => true) q ∧ x'.ScannedBy (fun _ _ => return true) q) ∧
    (∃ q, call a conditionRank [(.panel x : Value H), .panel c] = .ok (.panel q) ∧
      x'.AverageRanks (fun row _ other =>
        Cell.isTrue (c'.cell row other) && !(c'.cell row other).isNaN) q ∧
      x'.ScannedBy (fun row i => do
        let condition ← Storage.read (c'.rowCells row).toArray i
        return Cell.isTrue condition && !condition.isNaN) q) ∧
    ∃ q, call a groupRank [(.panel x : Value H), .panel k] = .ok (.panel q) ∧
      x'.AverageRanks (fun row col other => k'.cell row other == k'.cell row col) q ∧
      (∀ row < x'.rows, Storage.scanGroups (k'.rowCells row) (x'.rowCells row) =
        (.ok (q.rowCells row) : Storage.Checked EvalError _)) ∧
      ∀ g : Float, ∃ chosen q',
        (Vocabulary.builtin caseStyle : Vocabulary H).applyBinary a "==" (.panel k) (.scalar g) =
          .ok (.panel chosen) ∧
        call a conditionRank [(.panel x : Value H), .panel chosen] = .ok (.panel q') ∧
        ∀ row col, row < x'.rows → col < x'.cols → (k'.cell row col == g) = true →
          q.cell row col = q'.cell row col := by
  have hconditions := Alignment.conform_ok hc
  have hgroups := Alignment.conform_ok hk
  refine ⟨⟨_, call_rank hx, ?_, scannedBy_all x'⟩,
    ⟨_, RanksBy.condition.call_ok hx hc, (rankedBy_byCondition hconditions).average,
      scannedBy_byCondition hconditions⟩,
    _, RanksBy.group.call_ok hx hk, (rankedBy_byGroup hgroups).average,
    fun row hr => scanGroups_rowCells hgroups hr, fun g => ?_⟩
  · exact (rankedBy_mapRows ⟨rfl, rfl⟩ _ fun _ => Ranking.all_eq_map _).average
  · obtain ⟨prepared, hprepared, hconforms⟩ := Alignment.prepare_of_conform hx hk
    obtain ⟨_, hchosen, rfl⟩ :=
      (Alignment.conform_map (Cell.equals_missing g) a x' prepared).exists_ok hconforms
    refine ⟨_, _, Vocabulary.applyBinary_equals caseStyle hprepared g,
      RanksBy.condition.call_ok hx hchosen, fun row col hr hcol hg => ?_⟩
    -- the peers of the cell are chosen by its group value as they are by the number
    refine (rankedBy_byGroup hgroups).cell_congr
      (rankedBy_byCondition (Alignment.conform_ok hchosen)) hr hcol fun other _ => ?_
    rw [cell_map (Cell.equals_missing g), Cell.isTrue_equals, Double.beq_congr hg]

end Builtin

namespace Holding

def holdings (values : Array Float) (h : values.size = 5) : Panel where
  dates := [{ year := 2018, month := 9, day := 14 }]
  symbols := ["A", "B", "C", "D", "E"]
  values := values
  size_eq := h

/-- Two zeros in a tie behind an infinite loss. -/
def gains : Panel := holdings #[0, -1 / 0, -0.0, 1 / 0, 0 / 0] rfl

/-- The two zeros are one sector. -/
def sectors : Panel := holdings #[0, -0.0, 7, 0 / 0, 7] rfl

def conditions : Panel := holdings #[1, -0.0, 2, 0 / 0, 1] rfl

end Holding

open Holding in
/-- The first of three gains is in a tie for the second and the third place, the second in its
sector, and in a tie for the first and the second place among the chosen ones. -/
theorem Builtin.call_ranks_holdings : ∃ ranks chosen sectored : Panel,
    call .never rank [(.panel gains : Value Empty)] = .ok (.panel ranks) ∧
    Double.value? (ranks.cell 0 0) = some (5 / 2) ∧ (ranks.cell 0 4).isNaN = true ∧
    call .never conditionRank [(.panel gains : Value Empty), .panel conditions] =
      .ok (.panel chosen) ∧
    Double.value? (chosen.cell 0 0) = some (3 / 2) ∧ (chosen.cell 0 1).isNaN = true ∧
    call .never groupRank [(.panel gains : Value Empty), .panel sectors] = .ok (.panel sectored) ∧
    Double.value? (sectored.cell 0 0) = some 2 ∧ (sectored.cell 0 3).isNaN = true := by
  obtain ⟨⟨ranks, hall, hranks, -⟩, ⟨chosen, hconditions, hchosen, -⟩, sectored, hgroups,
    hsectored, -⟩ := call_ranks_average (H := Empty) .upper (a := .never) (x := gains)
      (c := conditions) (k := sectors) rfl rfl rfl
  have hrow : 0 < gains.rows := Nat.one_pos
  have hcols : gains.cols = 5 := rfl
  have hknown : (gains.cell 0 0).isNaN = false := rfl
  refine ⟨ranks, chosen, sectored, hall, ?_, ?_, hconditions, ?_, ?_, hgroups, ?_, ?_⟩
  · rw [hranks.value? (by omega) hrow (by omega) hknown rfl]
    decide +kernel
  · exact (hranks.isNaN_iff hrow (by omega)).mpr (.inl rfl)
  · rw [hchosen.value? (by omega) hrow (by omega) hknown rfl]
    decide +kernel
  · exact (hchosen.isNaN_iff hrow (by omega)).mpr (.inr rfl)
  · rw [hsectored.value? (by omega) hrow (by omega) hknown rfl]
    decide +kernel
  · exact (hsectored.isNaN_iff hrow (by omega)).mpr (.inr rfl)

end PanelCalc
