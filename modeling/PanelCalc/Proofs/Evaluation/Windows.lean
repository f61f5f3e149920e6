import PanelCalc.Invoke
import PanelCalc.Proofs.Double.Naturals
import PanelCalc.Proofs.Double.Order
import PanelCalc.Proofs.Evaluation.Pairs
import PanelCalc.Proofs.Vocabulary.Keyed

/-! # Trailing windows

A rolling function reduces, for every cell, the window that ends there: as many
cells of the same security as it is asked for, oldest first. Where the history
does not reach back as far there is nothing to reduce. A missing cell makes
missing what is reduced from its window, unless missing cells are counted. -/
namespace PanelCalc

variable {H : Type} {x y p q q' : Panel} {n n' row col : Nat}

namespace Panel

/-- The cells of a security in the `n` rows up to a row, oldest first. -/
def trailing (p : Panel) (n row col : Nat) : List Float :=
  (List.range n).map fun k => p.cell (row + 1 - n + k) col

/-- A panel with a value for every cell that `n` rows lead up to, and missing cells before. -/
structure Rolled (p : Panel) (n : Nat) (value : Nat → Nat → Float) (q : Panel) : Prop where
  index : q.IndexedAs p
  early : ∀ row < p.rows, ∀ col < p.cols, row + 1 < n → q.cell row col = Cell.missing
  full : ∀ row < p.rows, ∀ col < p.cols, n ≤ row + 1 → q.cell row col = value row col

/-- The window of a cell of a history. -/
theorem windows_colCells (hn : 0 < n) (hr : row < p.rows) :
    (Series.windows n (p.colCells col))[row]? =
      some (if row + 1 < n then none else some (p.trailing n row col)) := by
  have hlength : (p.colCells col).length = p.rows := by simp [colCells]
  rw [Series.windows_getElem? hn _ (hlength ▸ hr)]
  by_cases hlt : row + 1 < n
  · rw [if_pos hlt, if_pos hlt]
  · rw [if_neg hlt, if_neg hlt]
    refine congrArg (some ∘ some) (List.ext_getElem? fun k => ?_)
    by_cases hk : k < n
    · have hrange : row + 1 - n + k < p.rows := by omega
      simp [trailing, colCells, List.getElem?_take_of_lt hk, hk, hrange]
    · rw [List.getElem?_eq_none (by simp; omega), List.getElem?_eq_none (by simp [trailing]; omega)]

theorem rolled_rolling (hn : 0 < n) (reduce : List Float → Float) :
    p.Rolled n (fun row col => reduce (p.trailing n row col))
      (p.mapColumns fun _ => Series.rolling n reduce) := by
  have hcell {row col : Nat} (hr : row < p.rows) (hc : col < p.cols) :
      (p.mapColumns fun _ => Series.rolling n reduce).cell row col =
        ((if row + 1 < n then none else some (p.trailing n row col)).map reduce).getD
          Cell.missing := by
    rw [cell_mapColumns _ hr hc, Series.rolling, List.getElem?_map, windows_colCells hn hr]
    rfl
  refine ⟨⟨rfl, rfl⟩, fun row hr col hc hlt => ?_, fun row hr col hc hle => ?_⟩
  · rw [hcell hr hc, if_pos hlt]
    rfl
  · rw [hcell hr hc, if_neg (by omega)]
    rfl

theorem rolled_rollingPair (hn : 0 < n) (h : y.IndexedAs x)
    (reduce : List Float → List Float → Float) :
    x.Rolled n (fun row col => reduce (x.trailing n row col) (y.trailing n row col))
      (x.mapColumns fun col xs => Series.rollingPair n reduce xs (y.colCells col)) := by
  have hrows : y.rows = x.rows := congrArg List.length h.dates
  refine ⟨⟨rfl, rfl⟩, fun row hr col hc hlt => ?_, fun row hr col hc hle => ?_⟩
  · rw [cell_mapColumns _ hr hc, Series.rollingPair, List.getElem?_zipWith,
      windows_colCells hn hr, windows_colCells hn (hrows ▸ hr), if_pos hlt, if_pos hlt]
    rfl
  · rw [cell_mapColumns _ hr hc, Series.rollingPair, List.getElem?_zipWith,
      windows_colCells hn hr, windows_colCells hn (hrows ▸ hr), if_neg (by omega),
      if_neg (by omega)]
    rfl

/-- Windows that are longer than the history are all the same. -/
theorem Rolled.eq_of_rows_lt {value value' : Nat → Nat → Float} (h : p.Rolled n value q)
    (h' : p.Rolled n' value' q') (hn : p.rows < n) (hn' : p.rows < n') : q' = q := by
  have hrows : q'.rows = p.rows := congrArg List.length h'.index.dates
  have hcols : q'.cols = p.cols := congrArg List.length h'.index.symbols
  refine ext_cell (h'.index.dates.trans h.index.dates.symm)
    (h'.index.symbols.trans h.index.symbols.symm) fun row hr col hc => ?_
  rw [hrows] at hr
  rw [hcols] at hc
  rw [h'.early row hr col hc (by omega), h.early row hr col hc (by omega)]

end Panel

/-! ## Missing cells -/

namespace Stats

theorem isFinite_of_isNaN {x : Float} (h : x.isNaN) : x.isFinite = false := by
  show x.toModel.unpack.isFinite = false
  rw [Double.unpack_of_isNaN h]
  rfl

variable {window xs ys : List Float}

theorem ifComplete_of_missing (reduce : List Float → Float) (h : window.any Float.isNaN) :
    ifComplete reduce window = Cell.missing :=
  if_pos h

theorem not_all_isFinite (h : window.any Float.isNaN) : ¬ window.all Float.isFinite := by
  obtain ⟨x, hx, hnan⟩ := List.any_eq_true.mp h
  intro hall
  have hfinite := List.all_eq_true.mp hall x hx
  rw [isFinite_of_isNaN hnan] at hfinite
  cases hfinite

theorem ofMoments_of_missing (statistic : Moments Float → Option Float)
    (h : window.any Float.isNaN) : ofMoments statistic window = Cell.missing := by
  rw [ofMoments, Moments.ofWindow?, if_neg fun hall => not_all_isFinite h hall.2]
  rfl

theorem ofJointMoments_of_missing (statistic : JointMoments Float → Option Float)
    (h : (xs ++ ys).any Float.isNaN) : ofJointMoments statistic xs ys = Cell.missing := by
  rw [ofJointMoments, JointMoments.ofWindows?, if_neg]
  · rfl
  · rintro ⟨-, -, hx, hy⟩
    rw [List.any_append, Bool.or_eq_true] at h
    exact h.elim (fun h => not_all_isFinite h hx) fun h => not_all_isFinite h hy

end Stats

theorem WindowFunction.reduce_of_missing {f : WindowFunction} {window : List Float}
    (hf : f ≠ countMissing) (h : window.any Float.isNaN) : f.reduce window = Cell.missing := by
  cases f with
  | mean | stdDev | sum | skewness | kurtosis => exact Stats.ofMoments_of_missing _ h
  | least | greatest | product => exact Stats.ifComplete_of_missing _ h
  | linearDecay =>
    rw [reduce, Stats.linearDecay]
    exact Stats.ifComplete_of_missing _ h
  | countMissing => exact absurd rfl hf

theorem PairFunction.reduce_of_missing (f : PairFunction) {xs ys : List Float}
    (h : (xs ++ ys).any Float.isNaN) : f.reduce xs ys = Cell.missing := by
  cases f with
  | correlation | covariance => exact Stats.ofJointMoments_of_missing _ h

/-! ## Calling the functions -/

namespace Builtin

/-- Rolling functions: what comes before the length of the window in a call, the cells of a window
and what becomes of them. Two panels on one index are rolled together without a calendar. -/
inductive Rolls (x : Panel) : Alignment → Builtin → List (Value H) →
    (Nat → Nat → Nat → List Float) → (Nat → Nat → Nat → Float) → Prop
  | window (a : Alignment) (g : WindowFunction) : Rolls x a (.rolling g) [.panel x] x.trailing
      fun n row col => g.reduce (x.trailing n row col)
  | decay (a : Alignment) (factor : Float) :
      Rolls x a .exponentialDecay [.panel x, .scalar factor] x.trailing
        fun n row col => Stats.exponentialDecay factor (x.trailing n row col)
  | pair (g : PairFunction) {y : Panel} : y.IndexedAs x →
      Rolls x .never (.rollingPair g) [.panel x, .panel y]
        (fun n row col => x.trailing n row col ++ y.trailing n row col)
        fun n row col => g.reduce (x.trailing n row col) (y.trailing n row col)

variable {a : Alignment} {f : Builtin} {arguments : List (Value H)} {length : Float}
  {windows : Nat → Nat → Nat → List Float} {reduced : Nat → Nat → Nat → Float}

theorem Rolls.reduced_of_missing (h : Rolls x a f arguments windows reduced)
    (hf : f ≠ rolling .countMissing) (hmissing : (windows n row col).any Float.isNaN) :
    reduced n row col = Cell.missing := by
  cases h with
  | window a g =>
    exact WindowFunction.reduce_of_missing (fun hg => hf (congrArg rolling hg)) hmissing
  | decay a factor =>
    rw [Stats.exponentialDecay]
    exact Stats.ifComplete_of_missing _ hmissing
  | pair g hindex => exact g.reduce_of_missing hmissing

theorem Rolls.reduced_count (h : Rolls x a (rolling .countMissing) arguments windows reduced) :
    reduced n row col = Float.ofNat ((windows n row col).countP Float.isNaN) := by
  cases h with
  | window => rfl

theorem reconcile_never (h : y.IndexedAs x) : Alignment.never.reconcile x y = .ok (x, y) := by
  have hrows : ¬ x.rows < y.rows := by
    rw [show y.rows = x.rows from congrArg List.length h.dates]
    exact Nat.lt_irrefl _
  show (if x.rows < y.rows then _ else _) = _
  rw [if_neg hrows, Alignment.conform_self h]
  rfl

theorem Rolls.exists_call (h : Rolls x a f arguments windows reduced)
    (hv : Double.value? length = some (n : ℚ)) (hn : 1 ≤ n) : ∃ q,
      f.call a (arguments ++ [.scalar length]) = .ok (.panel q) ∧ x.Rolled n (reduced n) q := by
  have hw (function : String) : (Value.scalar length : Value H).toWindow function = .ok n :=
    Value.toWindow_of_value? function hv hn
  cases h with
  | window a g =>
    refine ⟨_, ?_, Panel.rolled_rolling hn g.reduce⟩
    simp only [call, hw, Value.toPanel, List.cons_append, List.nil_append]
    rfl
  | decay a factor =>
    refine ⟨_, ?_, Panel.rolled_rolling hn (Stats.exponentialDecay factor)⟩
    simp only [call, hw, Value.toScalar, Value.toPanel, List.cons_append, List.nil_append]
    rfl
  | pair g hindex =>
    refine ⟨_, ?_, Panel.rolled_rollingPair hn hindex g.reduce⟩
    rw [List.cons_append, List.cons_append, List.nil_append, call_rollingPair g (hw _),
      reconcile_never hindex]
    rfl

theorem Rolls.length_arguments (h : Rolls x a f arguments windows reduced) (value : Value H) :
    (Arity.exact f.argumentCount).accepts (arguments ++ [value]).length = true := by
  cases h <;> rfl

/-- **Rolling functions reduce exactly the trailing windows.** Whatever natural number but zero the
length of the window is, the answer is a panel on the same index. A cell that fewer rows lead up to
is missing, and every other one is what becomes of the cells of the security in just as many rows,
the latest being its own. One missing cell among them makes it missing too, unless the function
counts these. Windows longer than the history give the same answer, whatever their length. -/
theorem Rolls.invoke_trailing [HostFunctions H] (h : Rolls x a f arguments windows reduced)
    (caseStyle : CaseStyle) (hv : Double.value? length = some (n : ℚ)) (hn : 1 ≤ n) :
    ∃ entry : FunctionEntry H, ∃ q,
      (Vocabulary.builtin caseStyle).function? (caseStyle.spell f.name) = some entry ∧
      entry.invoke a (arguments ++ [.scalar length]) = .ok (.panel q) ∧
      x.Rolled n (reduced n) q ∧
      (∀ row < x.rows, ∀ col < x.cols, n ≤ row + 1 → (windows n row col).any Float.isNaN →
        f ≠ rolling .countMissing → (q.cell row col).isNaN) ∧
      (∀ row < x.rows, ∀ col < x.cols, n ≤ row + 1 → f = rolling .countMissing →
        q.cell row col = Float.ofNat ((windows n row col).countP Float.isNaN) ∧
        ((windows n row col).countP Float.isNaN < 2 ^ 53 → Double.value? (q.cell row col) =
          some ((windows n row col).countP Float.isNaN : ℚ))) ∧
      ∀ (length' : Float) (n' : Nat), Double.value? length' = some (n' : ℚ) → x.rows < n →
        x.rows < n' → entry.invoke a (arguments ++ [.scalar length']) = .ok (.panel q) := by
  have hinvoke (value : Value H) : (Vocabulary.builtinEntry caseStyle f).invoke a
      (arguments ++ [value]) = f.call a (arguments ++ [value]) :=
    if_pos (h.length_arguments value)
  obtain ⟨q, hcall, hrolled⟩ := h.exists_call hv hn
  refine ⟨_, q, Vocabulary.function?_builtin caseStyle f, (hinvoke _).trans hcall, hrolled,
    fun row hr col hc hle hmissing hf => ?_, fun row hr col hc hle hf => ?_,
    fun length' n' hv' hlt hlt' => ?_⟩
  · rw [hrolled.full row hr col hc hle, h.reduced_of_missing hf hmissing, Cell.isNaN_missing]
  · subst hf
    rw [hrolled.full row hr col hc hle, h.reduced_count]
    exact ⟨rfl, Double.value?_ofNat⟩
  · obtain ⟨q', hcall', hrolled'⟩ := h.exists_call hv' (by omega)
    rw [hinvoke, hcall', hrolled.eq_of_rows_lt hrolled' hlt hlt']

end Builtin

namespace Gap

/-- The cell of the second date is missing. -/
def prices : Panel where
  dates := [{ year := 2024, month := 1, day := 2 }, { year := 2024, month := 1, day := 3 },
    { year := 2024, month := 1, day := 4 }]
  symbols := ["A"]
  values := #[5, 0 / 0, 7]
  size_eq := rfl

end Gap

open Gap in
/-- Of the last two prices one is missing, which makes their sum missing. -/
theorem Builtin.Rolls.invoke_trailing_gap :
    (∃ (entry : FunctionEntry Empty) (counts : Panel),
      (Vocabulary.builtin .upper).function? "CountNans" = some entry ∧
      entry.invoke .never [.panel prices, .scalar (Float.ofNat 2)] = .ok (.panel counts) ∧
      (counts.cell 0 0).isNaN = true ∧ Double.value? (counts.cell 2 0) = some 1) ∧
    ∃ (entry : FunctionEntry Empty) (sums : Panel),
      (Vocabulary.builtin .upper).function? "Sum" = some entry ∧
      entry.invoke .never [.panel prices, .scalar (Float.ofNat 2)] = .ok (.panel sums) ∧
      (sums.cell 2 0).isNaN = true := by
  have hlength : Double.value? (Float.ofNat 2) = some ((2 : Nat) : ℚ) :=
    Double.value?_ofNat (by decide)
  have hrows : prices.rows = 3 := rfl
  have hcols : prices.cols = 1 := rfl
  constructor
  · obtain ⟨entry, counts, hentry, hinvoke, hrolled, -, hcount, -⟩ :=
      (window (x := prices) (H := Empty) .never .countMissing).invoke_trailing .upper hlength
        (by decide)
    refine ⟨entry, counts, hentry, hinvoke, ?_, ?_⟩
    · rw [hrolled.early 0 (by decide) 0 (by decide) (by decide), Cell.isNaN_missing]
    · obtain ⟨-, hvalue⟩ := hcount 2 (by decide) 0 (by decide) (by decide) rfl
      have hone : (prices.trailing 2 2 0).countP Float.isNaN = 1 := by decide
      rw [hone] at hvalue
      simpa using hvalue
  · obtain ⟨entry, sums, hentry, hinvoke, -, hmissing, -⟩ :=
      (window (x := prices) (H := Empty) .never .sum).invoke_trailing .upper hlength (by decide)
    exact ⟨entry, sums, hentry, hinvoke,
      hmissing 2 (by decide) 0 (by decide) (by decide) (by decide) (by decide)⟩

end PanelCalc
