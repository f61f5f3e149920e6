import PanelCalc.Proofs.Double.Values
import PanelCalc.Proofs.Panel.Aligning
import PanelCalc.Proofs.Panel.Cells
import PanelCalc.Proofs.Panel.Ranks

/-! # Average ranks of the cells of a panel

A cell is ranked among the cells of its row that are its peers: those below it and
those at its level are counted, and the rank is the average of the places that the
cells of its level take. It is a half of a natural number, which a double holds
exactly unless rows are longer than any memory. -/
namespace PanelCalc

/-- The average of the places that some equal numbers take behind the lesser ones. -/
def averageRank (less ties : Nat) : ℚ := less + (ties + 1) / 2

/-- A cell that equals itself is exactly ranked. -/
theorem Ranking.value?_placeBehind {less ties : Nat} (hties : 0 < ties)
    (h : less + ties < 2 ^ 52) :
    Double.value? (placeBehind less ties) = some (averageRank less ties) := by
  rw [placeBehind, Double.value?_half (by omega) (by omega), averageRank]
  congr 1
  push_cast
  ring

namespace Panel

variable {x q : Panel} {row col : Nat} {peer peer' : Nat → Bool} {v : Float}

/-- The number of known cells of a row below a value, among some columns. -/
def below (x : Panel) (row : Nat) (peer : Nat → Bool) (v : Float) : Nat :=
  (List.range x.cols).countP fun col =>
    peer col && !(x.cell row col).isNaN && decide (x.cell row col < v)

/-- The number of known cells of a row at the level of a value, among some columns. -/
def level (x : Panel) (row : Nat) (peer : Nat → Bool) (v : Float) : Nat :=
  (List.range x.cols).countP fun col =>
    peer col && !(x.cell row col).isNaN && x.cell row col == v

/-- The ranks of the cells of a panel, each among its peers: whether the cell of another column is
a peer of a cell may depend on both columns, and a cell that is not its own peer has no rank. -/
structure RankedBy (x : Panel) (peer : Nat → Nat → Nat → Bool) (q : Panel) : Prop where
  index : q.IndexedAs x
  unranked : ∀ {row col}, row < x.rows → col < x.cols →
    (x.cell row col).isNaN = true ∨ peer row col col = false → q.cell row col = Cell.missing
  rank : ∀ {row col}, row < x.rows → col < x.cols →
    (x.cell row col).isNaN = false → peer row col col = true → q.cell row col =
      Ranking.placeBehind (x.below row (peer row col) (x.cell row col))
        (x.level row (peer row col) (x.cell row col))

/-- A panel of average ranks. They are doubles, which is to say exact numbers in every row that is
not longer than `2 ^ 52` cells. -/
structure AverageRanks (x : Panel) (peer : Nat → Nat → Nat → Bool) (q : Panel) : Prop where
  ranked : x.RankedBy peer q
  isNaN_iff : ∀ {row col}, row < x.rows → col < x.cols →
    ((q.cell row col).isNaN = true ↔ (x.cell row col).isNaN = true ∨ peer row col col = false)
  value? : ∀ {row col}, x.cols < 2 ^ 52 → row < x.rows → col < x.cols →
    (x.cell row col).isNaN = false → peer row col col = true →
      Double.value? (q.cell row col) =
        some (averageRank (x.below row (peer row col) (x.cell row col))
          (x.level row (peer row col) (x.cell row col)))

theorem below_congr (h : ∀ col < x.cols, peer col = peer' col) :
    x.below row peer v = x.below row peer' v :=
  List.countP_congr fun col hc => by rw [h col (List.mem_range.mp hc)]

theorem level_congr (h : ∀ col < x.cols, peer col = peer' col) :
    x.level row peer v = x.level row peer' v :=
  List.countP_congr fun col hc => by rw [h col (List.mem_range.mp hc)]

/-- No cell is below a value and at its level. -/
theorem below_add_level_le (hv : ¬ v.isNaN) : x.below row peer v + x.level row peer v ≤ x.cols := by
  have hdisjoint : x.level row peer v ≤ (List.range x.cols).countP fun col =>
      !(peer col && !(x.cell row col).isNaN && decide (x.cell row col < v)) := by
    refine List.countP_mono_left fun col _ hlevel => ?_
    rw [Bool.and_eq_true] at hlevel
    have hn := (Double.not_isNaN_of_beq hlevel.2).1
    have hlt : ¬ x.cell row col < v := by
      rw [Double.lt_iff_place hn hv, (Double.beq_iff_place hn hv).mp hlevel.2]
      exact lt_irrefl _
    simp [hlt]
  have htotal := List.length_eq_countP_add_countP (l := List.range x.cols) fun col =>
    peer col && !(x.cell row col).isNaN && decide (x.cell row col < v)
  rw [List.length_range] at htotal
  simp only [Bool.not_eq_true, Bool.decide_eq_false] at htotal
  rw [htotal]
  exact Nat.add_le_add_left hdisjoint _

theorem level_pos (hc : col < x.cols) (hn : (x.cell row col).isNaN = false)
    (hpeer : peer col = true) : 0 < x.level row peer (x.cell row col) := by
  refine List.countP_pos_iff.mpr ⟨col, List.mem_range.mpr hc, ?_⟩
  rw [hpeer, hn, Double.beq_self (Bool.eq_false_iff.mp hn)]
  rfl

namespace RankedBy

variable {peer : Nat → Nat → Nat → Bool}

/-- **Ranks by counting are average ranks**, and cells without one are missing. -/
theorem average (h : x.RankedBy peer q) : x.AverageRanks peer q where
  ranked := h
  isNaN_iff := by
    intro row col hr hc
    constructor
    · intro hq
      by_contra hranked
      rw [not_or, Bool.not_eq_true, Bool.not_eq_false] at hranked
      rw [h.rank hr hc hranked.1 hranked.2, Ranking.placeBehind, Double.isNaN_half] at hq
      cases hq
    · intro hunranked
      rw [h.unranked hr hc hunranked]
      exact Cell.isNaN_missing
  value? := by
    intro row col hcols hr hc hn hpeer
    rw [h.rank hr hc hn hpeer]
    have hle : x.below row (peer row col) (x.cell row col) +
        x.level row (peer row col) (x.cell row col) ≤ x.cols :=
      below_add_level_le (Bool.eq_false_iff.mp hn)
    exact Ranking.value?_placeBehind (level_pos hc hn hpeer) (hle.trans_lt hcols)

/-- Cells with the same peers have the same rank. -/
theorem cell_congr {peer' : Nat → Nat → Nat → Bool} {q' : Panel} (h : x.RankedBy peer q)
    (h' : x.RankedBy peer' q') (hr : row < x.rows) (hc : col < x.cols)
    (hpeer : ∀ other < x.cols, peer row col other = peer' row col other) :
    q.cell row col = q'.cell row col := by
  by_cases hunranked : (x.cell row col).isNaN = true ∨ peer row col col = false
  · rw [h.unranked hr hc hunranked, h'.unranked hr hc (by rwa [← hpeer col hc])]
  · rw [not_or, Bool.not_eq_true, Bool.not_eq_false] at hunranked
    rw [h.rank hr hc hunranked.1 hunranked.2,
      h'.rank hr hc hunranked.1 ((hpeer col hc).symm.trans hunranked.2), below_congr hpeer,
      level_congr hpeer]

end RankedBy

/-! ## Rows ranked by other rows -/

theorem countP_peers (cells : List (Float × Bool)) (p : Float → Bool) :
    (Ranking.peers cells).countP p =
      cells.countP fun cell => cell.2 && !cell.1.isNaN && p cell.1 := by
  induction cells with
  | nil => rfl
  | cons cell cells ih =>
    obtain ⟨x, isChosen⟩ := cell
    rw [List.countP_cons, ← ih, Ranking.peers, Ranking.peers, List.filterMap_cons]
    simp only
    cases isChosen && !x.isNaN with
    | true => rw [if_pos rfl, List.countP_cons, Bool.true_and]
    | false => rfl

/-- **Ranking the rows of a panel by those of another one** ranks each cell among its peers. -/
theorem rankedBy_mapRows {keys : Panel} (hkeys : keys.IndexedAs x) (chosen : Float → Float → Bool)
    {f : Nat → List Float → List Float}
    (hf : ∀ row, f row (x.rowCells row) = ((x.rowCells row).zip (keys.rowCells row)).map
      (Ranking.rankBy chosen ((x.rowCells row).zip (keys.rowCells row)))) :
    x.RankedBy (fun row col other => chosen (keys.cell row col) (keys.cell row other))
      (x.mapRows f) := by
  have hcols : keys.cols = x.cols := congrArg List.length hkeys.symbols
  have hrow (row : Nat) : (x.rowCells row).zip (keys.rowCells row) =
      (List.range x.cols).map fun col => (x.cell row col, keys.cell row col) := by
    rw [rowCells, rowCells, hcols, List.zip_map']
  have hcell {row col : Nat} (hr : row < x.rows) (hc : col < x.cols) :
      (x.mapRows f).cell row col = Ranking.rankIn ((List.range x.cols).map fun other =>
          (x.cell row other, chosen (keys.cell row col) (keys.cell row other)))
        (x.cell row col, chosen (keys.cell row col) (keys.cell row col)) := by
    rw [cell_mapRows f hr hc, hf, hrow, List.map_map, List.getElem?_map, List.getElem?_range hc]
    simp only [Option.map_some, Option.getD_some, Function.comp, Ranking.rankBy, List.map_map]
    rfl
  have hcount (row col : Nat) (p : Float → Bool) :
      (Ranking.peers ((List.range x.cols).map fun other =>
          (x.cell row other, chosen (keys.cell row col) (keys.cell row other)))).countP p =
        (List.range x.cols).countP fun other => chosen (keys.cell row col) (keys.cell row other) &&
          !(x.cell row other).isNaN && p (x.cell row other) := by
    rw [countP_peers, List.countP_map]
    rfl
  refine ⟨⟨rfl, rfl⟩, fun hr hc hunranked => ?_, fun hr hc hn hpeer => ?_⟩
  · rw [hcell hr hc, Ranking.rankIn, if_neg]
    rcases hunranked with hn | hpeer
    · simp only [hn, Bool.not_true, Bool.and_false, Bool.false_eq_true, not_false_eq_true]
    · simp only [hpeer, Bool.false_and, Bool.false_eq_true, not_false_eq_true]
  · rw [hcell hr hc, hpeer, Ranking.rankIn_eq (Bool.eq_false_iff.mp hn), hcount, hcount]
    rfl

end Panel

end PanelCalc
