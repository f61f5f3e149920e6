import PanelCalc.Proofs.Evaluation.Answers
import PanelCalc.Proofs.Panel.Cells

/-! # Tables that make panels

A panel is made of increasing dates, different securities and as many cells as
they call for, given in one list or row by row. Everything else is turned down,
and the error tells a fault that the table really has. -/
namespace PanelCalc.Panel

variable {dates : List Date} {symbols seen : List String} {symbol : String} {p q : Panel}
  {values : List Float} {cells : List (List Float)} {e : ShapeError} {row : Nat}

/-! ## Securities -/

theorem checkAfter_iff : checkSymbols.checkAfter seen symbols = .ok () ↔
    symbols.Nodup ∧ ∀ symbol ∈ symbols, symbol ∉ seen := by
  induction symbols generalizing seen with
  | nil => simp [checkSymbols.checkAfter]
  | cons symbol symbols ih =>
    rw [checkSymbols.checkAfter]
    split
    · rename_i hs
      refine iff_of_false nofun fun h => ?_
      exact h.2 symbol (List.mem_cons_self ..) (List.contains_iff_mem.mp hs)
    · rename_i hs
      rw [ih, List.nodup_cons, List.forall_mem_cons]
      have hs : symbol ∉ seen := fun hm => hs (List.contains_iff_mem.mpr hm)
      constructor
      · intro h
        obtain ⟨hn, hall⟩ := h
        exact ⟨⟨fun hm => hall symbol hm (List.mem_cons_self ..), hn⟩, hs,
          fun other hm hseen => hall other hm (List.mem_cons_of_mem _ hseen)⟩
      · intro h
        obtain ⟨⟨hnot, hn⟩, -, hall⟩ := h
        refine ⟨hn, fun other hm hseen => ?_⟩
        rcases List.mem_cons.mp hseen with rfl | hseen
        · exact hnot hm
        · exact hall other hm hseen

/-- Securities pass their check where they are different. -/
theorem checkSymbols_iff : checkSymbols symbols = .ok () ↔ symbols.Nodup := by
  rw [checkSymbols, checkAfter_iff]
  simp

/-- A security that is turned down is listed twice, or already seen. -/
theorem checkAfter_error (h : checkSymbols.checkAfter seen symbols = .error e) :
    ∃ symbol ∈ symbols, e = .duplicateSecurity symbol ∧
      (symbol ∈ seen ∨ 2 ≤ symbols.count symbol) := by
  induction symbols generalizing seen with
  | nil => cases h
  | cons first symbols ih =>
    rw [checkSymbols.checkAfter] at h
    split at h
    · rename_i hs
      cases h
      exact ⟨first, List.mem_cons_self .., rfl, .inl (List.contains_iff_mem.mp hs)⟩
    · obtain ⟨symbol, hm, he, hseen⟩ := ih h
      refine ⟨symbol, List.mem_cons_of_mem _ hm, he, ?_⟩
      rcases hseen with hseen | hcount
      · rcases List.mem_cons.mp hseen with rfl | hseen
        · have hone : 0 < symbols.count symbol := List.count_pos_iff.mpr hm
          exact .inr (by rw [List.count_cons_self]; omega)
        · exact .inl hseen
      · exact .inr (Nat.le_trans hcount List.count_le_count_cons)

/-! ## Dates -/

/-- A date that is turned down does not come after the one before it. -/
theorem checkFrom_error (h : checkDates.checkFrom row dates = .error e) :
    ∃ i earlier later, e = .unsortedDates (row + i) ∧ dates[i]? = some earlier ∧
      dates[i + 1]? = some later ∧ ¬ earlier < later := by
  induction dates generalizing row with
  | nil => cases h
  | cons first dates ih =>
    cases dates with
    | nil => cases h
    | cons second dates =>
      rw [checkDates.checkFrom] at h
      split at h
      · obtain ⟨i, earlier, later, he, hearlier, hlater, hlt⟩ := ih h
        exact ⟨i + 1, earlier, later, by rw [he, Nat.add_assoc, Nat.add_comm 1], hearlier, hlater,
          hlt⟩
      · rename_i hlt
        cases h
        exact ⟨0, first, second, rfl, rfl, rfl, hlt⟩

/-! ## Cells in one list -/

theorem ofValues_eq_ok : ofValues dates symbols values = .ok q ↔
    (dates.Pairwise (· < ·) ∧ symbols.Nodup) ∧
      q.dates = dates ∧ q.symbols = symbols ∧ q.values.toList = values := by
  unfold ofValues
  constructor
  · intro h
    obtain ⟨_, hd, h⟩ := bind_ok h
    obtain ⟨_, hs, h⟩ := bind_ok h
    split at h
    · cases h
      exact ⟨⟨checkDates_iff.mp hd, checkSymbols_iff.mp hs⟩, rfl, rfl, rfl⟩
    · cases h
  · rintro ⟨⟨hd, hs⟩, rfl, rfl, rfl⟩
    rw [checkDates_iff.mpr hd, checkSymbols_iff.mpr hs]
    exact dif_pos (by rw [Array.length_toList, q.size_eq])

/-- Cells that are as many as the index calls for can only fail for their index. -/
theorem ofValues_error (hl : values.length = dates.length * symbols.length)
    (h : ofValues dates symbols values = .error e) :
    checkDates dates = .error e ∨ checkSymbols symbols = .error e := by
  unfold ofValues at h
  rcases bind_error h with hd | ⟨_, -, h⟩
  · exact .inl hd
  rcases bind_error h with hs | ⟨_, -, h⟩
  · exact .inr hs
  · rw [dif_pos hl] at h
    cases h

/-! ## Cells row by row -/

/-- Rows of one length are found again in what they make up. -/
theorem getElem?_flatten_of_length {α : Type} {rows : List (List α)} {width : Nat}
    (h : ∀ row ∈ rows, row.length = width) {row col : Nat} (hc : col < width) :
    rows.flatten[row * width + col]? = rows[row]?.bind (·[col]?) := by
  induction rows generalizing row with
  | nil => simp
  | cons first rows ih =>
    obtain ⟨hfirst, hrows⟩ := List.forall_mem_cons.mp h
    rw [List.flatten_cons]
    cases row with
    | zero =>
      rw [Nat.zero_mul, Nat.zero_add, List.getElem?_append_left (hfirst ▸ hc)]
      rfl
    | succ row =>
      have hplace : (row + 1) * width + col = first.length + (row * width + col) := by
        rw [hfirst, Nat.succ_mul]
        omega
      rw [hplace, List.getElem?_append_right (Nat.le_add_right ..), Nat.add_sub_cancel_left,
        ih hrows]
      rfl

theorem length_flatten_of_length {α : Type} {rows : List (List α)} {width : Nat}
    (h : ∀ row ∈ rows, row.length = width) : rows.flatten.length = rows.length * width := by
  rw [List.length_flatten, List.map_congr_left h, List.map_const', List.sum_replicate_nat]

/-- The rows of a panel, one after the other, are its buffer. -/
theorem flatten_rowCells (p : Panel) :
    ((List.range p.rows).map p.rowCells).flatten = p.values.toList := by
  have hwidth : ∀ row ∈ (List.range p.rows).map p.rowCells, row.length = p.cols := by
    intro row hrow
    obtain ⟨i, -, rfl⟩ := List.mem_map.mp hrow
    exact length_rowCells p i
  refine List.ext_getElem? fun i => ?_
  by_cases hi : i < p.rows * p.cols
  · have hcols : 0 < p.cols := by
      refine Nat.pos_of_ne_zero fun hzero => ?_
      rw [hzero, Nat.mul_zero] at hi
      exact Nat.not_lt_zero i hi
    have hrow : i / p.cols < p.rows := (Nat.div_lt_iff_lt_mul hcols).mpr hi
    have hcol : i % p.cols < p.cols := Nat.mod_lt i hcols
    have hplace : i / p.cols * p.cols + i % p.cols = i := by
      rw [Nat.mul_comm]
      exact Nat.div_add_mod i p.cols
    have hsize : i < p.values.size := by rw [p.size_eq]; exact hi
    conv_lhs => rw [← hplace]
    rw [getElem?_flatten_of_length hwidth hcol, List.getElem?_map, List.getElem?_range hrow]
    simp [rowCells, cell, hcol, hplace, hsize]
  · have hlength := length_flatten_of_length hwidth
    rw [List.length_map, List.length_range] at hlength
    rw [List.getElem?_eq_none (by omega), List.getElem?_eq_none]
    rw [Array.length_toList, p.size_eq]
    exact Nat.le_of_not_lt hi

/-- **Rows make a panel** where all of them are as wide as the index, and as many. -/
theorem ofRows_eq_ok : ofRows dates symbols cells = .ok q ↔
    ((∀ row ∈ cells, row.length = symbols.length) ∧ cells.length = dates.length ∧
      dates.Pairwise (· < ·) ∧ symbols.Nodup) ∧
      q.dates = dates ∧ q.symbols = symbols ∧ q.values.toList = cells.flatten := by
  unfold ofRows
  cases hf : cells.find? (·.length != symbols.length) with
  | some row =>
    refine iff_of_false nofun fun h => ?_
    have hwidth := List.find?_some hf
    simp [h.1.1 row (List.mem_of_find?_eq_some hf)] at hwidth
  | none =>
    have hwidth : ∀ row ∈ cells, row.length = symbols.length := by
      simpa [List.find?_eq_none] using hf
    by_cases hr : cells.length = dates.length
    · simp only [if_pos hr, ofValues_eq_ok]
      simp only [hr, true_and]
      exact ⟨fun h => ⟨⟨hwidth, h.1⟩, h.2⟩, fun h => ⟨h.1.2, h.2⟩⟩
    · simp only [if_neg hr]
      exact iff_of_false nofun fun h => hr h.1.2.1

/-- What can be wrong with rows, and how it is told. -/
inductive Fault (dates : List Date) (symbols : List String) (cells : List (List Float)) :
    ShapeError → Prop
  | width (row : List Float) : row ∈ cells → row.length ≠ symbols.length →
      Fault dates symbols cells (.cellCount symbols.length row.length)
  | count : cells.length ≠ dates.length →
      Fault dates symbols cells (.rowMismatch dates.length cells.length)
  | unsorted (row : Nat) (earlier later : Date) : dates[row]? = some earlier →
      dates[row + 1]? = some later → ¬ earlier < later →
      Fault dates symbols cells (.unsortedDates (row + 1))
  | repeated (symbol : String) : 2 ≤ symbols.count symbol →
      Fault dates symbols cells (.duplicateSecurity symbol)

/-- Rows are turned down for a fault that they have. -/
theorem ofRows_error (h : ofRows dates symbols cells = .error e) :
    Fault dates symbols cells e := by
  unfold ofRows at h
  cases hf : cells.find? (·.length != symbols.length) with
  | some row =>
    rw [hf] at h
    cases h
    exact .width row (List.mem_of_find?_eq_some hf) (by simpa using List.find?_some hf)
  | none =>
    have hwidth : ∀ row ∈ cells, row.length = symbols.length := by
      simpa [List.find?_eq_none] using hf
    rw [hf] at h
    by_cases hr : cells.length = dates.length
    · simp only [if_pos hr] at h
      have hlength : cells.flatten.length = dates.length * symbols.length := by
        rw [length_flatten_of_length hwidth, hr]
      rcases ofValues_error hlength h with hd | hs
      · obtain ⟨row, earlier, later, rfl, he, hl, hlt⟩ := checkFrom_error hd
        rw [Nat.add_comm]
        exact .unsorted row earlier later he hl hlt
      · obtain ⟨symbol, -, rfl, hseen | hcount⟩ := checkAfter_error hs
        · cases hseen
        · exact .repeated symbol hcount
    · simp only [if_neg hr] at h
      cases h
      exact .count hr

end PanelCalc.Panel
