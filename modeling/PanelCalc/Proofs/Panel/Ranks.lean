import Mathlib.Data.List.Perm.Basic
import PanelCalc.Proofs.Double.Order

/-! # Ranks by counting

The rank of a cell follows from two numbers: how many of the chosen cells are
below it and how many are equal to it. The order in which cells stand in their
row has no part in that. -/
namespace PanelCalc.Ranking

open Double

variable {x : Float}

theorem precedes_iff_place {a b : Float} : precedes a b = true ↔ place a ≤ place b := by
  unfold precedes
  rw [Bool.or_eq_true, decide_eq_true_iff]
  by_cases ha : a.isNaN
  · refine iff_of_true (.inl ha) ?_
    by_cases hb : b.isNaN
    · rw [place, place, unpack_of_isNaN ha, unpack_of_isNaN hb]
    · exact (place_lt_of_isNaN ha hb).le
  rw [or_iff_right ha]
  by_cases hb : b.isNaN
  · exact iff_of_false (not_le_of_isNaN hb) (place_lt_of_isNaN hb ha).not_ge
  · exact le_iff_place ha hb

/-- Sorting puts cells in the order of their places. -/
theorem pairwise_mergeSort (xs : List Float) :
    (xs.mergeSort precedes).Pairwise fun a b => place a ≤ place b := by
  refine (List.pairwise_mergeSort ?_ ?_ xs).imp precedes_iff_place.mp
  · intro a b c hab hbc
    rw [precedes_iff_place] at hab hbc ⊢
    exact hab.trans hbc
  · intro a b
    rw [Bool.or_eq_true, precedes_iff_place, precedes_iff_place]
    exact le_total _ _

section Front

variable {α : Type} {p : α → Bool} {xs : List α}

/-- Where those that pass a test stand in front, the first ones that pass it are all. -/
theorem takeWhile_eq_filter (h : xs.Pairwise fun a b => p b → p a) :
    xs.takeWhile p = xs.filter p := by
  induction xs with
  | nil => rfl
  | cons x xs ih =>
    obtain ⟨hx, hxs⟩ := List.pairwise_cons.mp h
    by_cases hp : p x
    · rw [List.takeWhile_cons_of_pos hp, List.filter_cons_of_pos hp, ih hxs]
    · have none : xs.filter p = [] := List.filter_eq_nil_iff.mpr fun y hy hpy => hp (hx y hy hpy)
      rw [List.takeWhile_cons_of_neg hp, List.filter_cons_of_neg hp, none]

/-- Behind them stand the others. -/
theorem drop_length_takeWhile_eq_filter (h : xs.Pairwise fun a b => p b → p a) :
    xs.drop (xs.takeWhile p).length = xs.filter (!p ·) := by
  induction xs with
  | nil => rfl
  | cons x xs ih =>
    obtain ⟨hx, hxs⟩ := List.pairwise_cons.mp h
    by_cases hp : p x
    · rw [List.takeWhile_cons_of_pos hp, List.length_cons, List.drop_succ_cons, ih hxs]
      simp [hp]
    · rw [List.takeWhile_cons_of_neg hp, List.length_nil, List.drop_zero, eq_comm,
        List.filter_eq_self]
      intro y hy
      rcases List.mem_cons.mp hy with rfl | hy
      · simpa using hp
      · simpa using fun hpy => hp (hx y hy hpy)

end Front

/-- The average of the places that equal cells take behind the lesser ones. -/
def placeBehind (less ties : Nat) : Float := Float.ofNat (less + 1 + (less + ties)) * 0.5

section Sorted

variable {sorted : List Float} (hs : sorted.Pairwise fun a b => place a ≤ place b)
  (hn : ∀ y ∈ sorted, ¬ y.isNaN) (hx : ¬ x.isNaN)

include hs hn hx

/-- The lesser cells stand in front. -/
theorem pairwise_lt : sorted.Pairwise fun a b => decide (b < x) → decide (a < x) := by
  refine hs.imp_of_mem fun {a b} ha hb hab => ?_
  rw [decide_eq_true_iff, decide_eq_true_iff, lt_iff_place (hn a ha) hx, lt_iff_place (hn b hb) hx]
  exact hab.trans_lt

/-- Among the others the equal ones stand in front. -/
theorem takeWhile_beq :
    (sorted.filter fun y => !decide (y < x)).takeWhile (· == x) = sorted.filter (· == x) := by
  have hties : (sorted.filter fun y => !decide (y < x)).Pairwise fun a b => b == x → a == x := by
    refine (hs.filter _).imp_of_mem fun {a b} ha hb hab => ?_
    obtain ⟨ha, hle⟩ := List.mem_filter.mp ha
    have hb := (List.mem_filter.mp hb).1
    rw [Bool.not_eq_true', decide_eq_false_iff_not, lt_iff_place (hn a ha) hx, not_lt] at hle
    rw [beq_iff_place (hn a ha) hx, beq_iff_place (hn b hb) hx]
    exact fun h => le_antisymm (h ▸ hab) hle
  rw [takeWhile_eq_filter hties, List.filter_filter]
  refine List.filter_congr fun y hy => ?_
  by_cases he : y == x
  · have hlt : ¬ y < x := by
      rw [lt_iff_place (hn y hy) hx, (beq_iff_place (hn y hy) hx).mp he]
      exact lt_irrefl _
    simp [he, hlt]
  · simp [he]

/-- **Places are a matter of counting.** -/
theorem averagePlace_eq :
    averagePlace sorted x = placeBehind (sorted.countP (· < x)) (sorted.countP (· == x)) := by
  have hless := pairwise_lt hs hn hx
  rw [averagePlace, drop_length_takeWhile_eq_filter hless, takeWhile_eq_filter hless,
    takeWhile_beq hs hn hx, ← List.countP_eq_length_filter, ← List.countP_eq_length_filter,
    placeBehind]

end Sorted

/-- The known ones among the chosen cells of a row. -/
def peers (row : List (Float × Bool)) : List Float :=
  row.filterMap fun (x, isChosen) => if isChosen && !x.isNaN then some x else none

theorem not_isNaN_of_mem_peers {row : List (Float × Bool)} {y : Float} (h : y ∈ peers row) :
    ¬ y.isNaN := by
  obtain ⟨⟨z, isChosen⟩, -, hz⟩ := List.mem_filterMap.mp h
  simp only at hz
  split at hz
  · rename_i hk
    rw [Bool.and_eq_true, Bool.not_eq_true'] at hk
    cases hz
    exact Bool.eq_false_iff.mp hk.2
  · cases hz

/-- The rank of a cell in a row of cells that are chosen or not. -/
def rankIn (row : List (Float × Bool)) (cell : Float × Bool) : Float :=
  if cell.2 && !cell.1.isNaN then averagePlace ((peers row).mergeSort precedes) cell.1
  else Cell.missing

theorem selected_eq_map (selection : List Bool) (cells : List Float) :
    selected selection cells = (cells.zip selection).map (rankIn (cells.zip selection)) := rfl

/-- **Ranks are a matter of counting**: how many chosen cells are less and how many equal. -/
theorem rankIn_eq {row : List (Float × Bool)} (hx : ¬ x.isNaN) :
    rankIn row (x, true) =
      placeBehind ((peers row).countP (· < x)) ((peers row).countP (· == x)) := by
  have hp := List.mergeSort_perm (peers row) precedes
  have hn : ∀ y ∈ (peers row).mergeSort precedes, ¬ y.isNaN :=
    fun y hy => not_isNaN_of_mem_peers (hp.mem_iff.mp hy)
  rw [rankIn, if_pos (by simpa using hx), averagePlace_eq (pairwise_mergeSort _) hn hx,
    hp.countP_eq, hp.countP_eq]

theorem rankIn_perm {row row' : List (Float × Bool)} (h : row.Perm row')
    (cell : Float × Bool) : rankIn row cell = rankIn row' cell := by
  obtain ⟨x, isChosen⟩ := cell
  by_cases hk : isChosen ∧ ¬ x.isNaN
  · obtain ⟨rfl, hx⟩ := hk
    have hp : (peers row).Perm (peers row') := h.filterMap _
    rw [rankIn_eq hx, rankIn_eq hx, hp.countP_eq, hp.countP_eq]
  · have hk : ¬ (isChosen && !x.isNaN) = true := by simpa using hk
    rw [rankIn, rankIn, if_neg hk, if_neg hk]

/-! ## Rows ranked by other rows -/

/-- The rank of a cell among those that are chosen for it, by its entry in another row and
theirs. -/
def rankBy (chosen : Float → Float → Bool) (row : List (Float × Float)) (cell : Float × Float) :
    Float :=
  rankIn (row.map fun (x, key) => (x, chosen cell.2 key)) (cell.1, chosen cell.2 cell.2)

theorem rankBy_perm {row row' : List (Float × Float)} (h : row.Perm row')
    (chosen : Float → Float → Bool) (cell : Float × Float) :
    rankBy chosen row cell = rankBy chosen row' cell :=
  rankIn_perm (h.map _) _

theorem selected_map (f : Float → Bool) (keys cells : List Float) :
    selected (keys.map f) cells = (cells.zip keys).map (rankBy (fun _ => f) (cells.zip keys)) := by
  rw [selected_eq_map, List.zip_map_right, List.map_map]
  rfl

theorem all_eq_map (cells : List Float) :
    all cells = (cells.zip cells).map (rankBy (fun _ _ => true) (cells.zip cells)) :=
  selected_map (fun _ => true) cells cells

theorem byCondition_eq_map (keys cells : List Float) :
    byCondition keys cells = (cells.zip keys).map
      (rankBy (fun _ key => Cell.isTrue key && !key.isNaN) (cells.zip keys)) :=
  selected_map (fun key => Cell.isTrue key && !key.isNaN) keys cells

theorem byGroup_eq_map {keys cells : List Float} (h : keys.length = cells.length) :
    byGroup keys cells =
      (cells.zip keys).map (rankBy (fun key other => other == key) (cells.zip keys)) := by
  refine List.ext_getElem? fun i => ?_
  rw [byGroup, List.getElem?_map, List.getElem?_map, List.getElem?_zipIdx]
  by_cases hi : i < keys.length
  · have hc : i < cells.length := h ▸ hi
    have hz : (cells.zip keys)[i]? = some (cells[i], keys[i]) := by
      rw [List.getElem?_zip_eq_some]
      exact ⟨List.getElem?_eq_getElem hc, List.getElem?_eq_getElem hi⟩
    rw [hz, List.getElem?_eq_getElem hi]
    simp only [Option.map_some, Nat.zero_add, selected_map, List.getD_eq_getElem?_getD,
      List.getElem?_map, hz, Option.getD_some]
    rfl
  · rw [List.getElem?_eq_none (by omega), List.getElem?_eq_none (by rw [List.length_zip]; omega)]
    rfl

end PanelCalc.Ranking
