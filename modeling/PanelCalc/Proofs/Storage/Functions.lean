import PanelCalc.Builtin.Call
import PanelCalc.Proofs.Storage.Alignments
import PanelCalc.Proofs.Storage.Rows

/-! # Built-in functions over buffers

Operations that work cell by cell read all their panels at the places of one of
them. The others have been brought onto its index before, which makes their
buffers as large as its own. Functions of histories and of rows stay within the
buffer of a panel because a panel has as many cells as its index says. -/
namespace PanelCalc

/-- A window is not empty. -/
theorem Value.pos_of_toWindow {H : Type} {function : String} {value : Value H} {n : Nat}
    (h : value.toWindow function = .ok n) : 0 < n := by
  obtain ⟨length, -, h⟩ := bind_ok h
  split at h
  · cases h
    exact Nat.succ_pos _
  · cases h

namespace Storage

variable {H : Type} {ε α : Type} {alignment : Alignment}

/-- An answer about the shape of panels. -/
def ofShape (x : Checked ShapeError α) : Checked EvalError α := x.mapError (.map .shape)

theorem ofShape_lift (x : Except ShapeError α) : ofShape (lift x) = lift (x.mapError .shape) :=
  (lift_mapError ..).symm

/-! ## Cell-by-cell operations -/

/-- The operand that a value stands for, with its panel prepared for the operation. -/
def operand (alignment : Alignment) (function : String) : Value H → Checked EvalError Operand
  | .scalar x => return .scalar x
  | .panel p => ofShape (.panel <$> prepare alignment p)
  | other => throw (.error (.typeMismatch function [.scalar, .panel] other.kind))

/-- The operand on the index of a panel. -/
def operandOn (alignment : Alignment) (reference : Panel) : Operand → Checked EvalError Operand
  | .scalar x => return .scalar x
  | .panel p => ofShape (.panel <$> conform alignment reference p)

/-- What an operand contributes to a place. -/
def contribution (i : Nat) : Operand → Checked ε Float
  | .scalar x => return x
  | .panel p => read p.values i

/-- The values of a function cell by cell. -/
def cellwise (alignment : Alignment) (function : String) (values : List (Value H))
    (f : List Float → Float) : Checked EvalError (Value H) := do
  let operands ← values.mapM (operand alignment function)
  match longest? (operands.filterMap Operand.panel?) with
  | none => return .scalar (f (← operands.mapM (contribution 0)))
  | some reference =>
    let operands ← operands.mapM (operandOn alignment reference)
    let cells ← (List.range reference.values.size).mapM fun i => f <$> operands.mapM (contribution i)
    return .panel (← panel reference.dates reference.symbols cells.toArray)

/-- What stands at a place of an operand. -/
def stored (i : Nat) : Operand → Float
  | .scalar x => x
  | .panel p => p.values.getD i Cell.missing

/-- The operand is a scalar or a panel on the index of another one. -/
def On (reference : Panel) (operand : Operand) : Prop :=
  ∀ p, operand = .panel p → p.IndexedAs reference

section On

variable {reference : Panel} {x : Operand} (h : On reference x)

include h

/-- Buffers of panels on one index are equally large. -/
theorem contribution_eq {i : Nat} (hi : i < reference.values.size) :
    contribution i x = (.ok (stored i x) : Checked ε Float) := by
  cases x with
  | scalar x => rfl
  | panel p =>
    have hindex := h p rfl
    have hsize : p.values.size = reference.values.size := by
      rw [p.size_eq, reference.size_eq, hindex.dates, hindex.symbols]
    exact read_eq (by simp [stored, hsize ▸ hi])

theorem stored_eq (row col : Nat) : stored (row * reference.cols + col) x = x.cell row col := by
  cases x with
  | scalar x => rfl
  | panel p =>
    have hcols : p.cols = reference.cols := congrArg List.length (h p rfl).symbols
    simp only [stored, Operand.cell, Panel.cell, hcols]

end On

theorem cells_eq {reference : Panel} {operands : List Operand} (f : List Float → Float)
    (h : ∀ x ∈ operands, On reference x) :
    ((List.range reference.values.size).mapM (fun i => f <$> operands.mapM (contribution i)) >>=
      fun cells => panel reference.dates reference.symbols cells.toArray : Checked ε Panel) =
        .ok (reference.remap fun row col => f (operands.map (·.cell row col))) := by
  have hcells : (List.range reference.values.size).mapM
      (fun i => f <$> operands.mapM (contribution i)) =
        (.ok ((List.range reference.values.size).map fun i => f (operands.map (stored i))) :
          Checked ε _) := by
    refine mapM_ok fun i hi => ?_
    have hall : operands.mapM (contribution i) =
        (.ok (operands.map (stored i)) : Checked ε _) :=
      mapM_ok fun x hx => contribution_eq (h x hx) (List.mem_range.mp hi)
    rw [hall]
    rfl
  rw [hcells]
  refine panel_eq (q := reference.remap fun row col => f (operands.map (·.cell row col)))
    ?size fun row hr col hc => ?_
  case size =>
    rw [List.size_toArray, List.length_map, List.length_range]
    exact reference.size_eq
  have hi : row * reference.cols + col < reference.values.size := by
    rw [reference.size_eq]
    exact Panel.position_lt hr hc
  have hmap : operands.map (stored (row * reference.cols + col)) = operands.map (·.cell row col) :=
    List.map_congr_left fun x hx => stored_eq (h x hx) row col
  have hcell : (reference.remap fun row col => f (operands.map (·.cell row col))).cell row col =
      f (operands.map (·.cell row col)) := Panel.cell_tabulate _ hr hc
  have hget : ((List.range reference.values.size).map fun i =>
      f (operands.map (stored i))).toArray[row * reference.cols + col]? =
        some (f (operands.map (stored (row * reference.cols + col)))) := by
    simp [hi]
  rw [hcell, ← hmap]
  exact hget

theorem operand_eq (h : alignment.Regular) (function : String) (value : Value H) :
    operand alignment function value = lift (Operand.ofValue alignment function value) := by
  cases value with
  | panel p =>
    rw [operand, prepare_eq h, Operand.ofValue, ← ofShape_lift, lift_map]
    rfl
  | _ => rfl

theorem operandOn_eq (h : alignment.Regular) (reference : Panel) (x : Operand) :
    operandOn alignment reference x = lift (x.conform alignment reference) := by
  cases x with
  | scalar x => rfl
  | panel p =>
    rw [operandOn, conform_eq h, Operand.conform, ← ofShape_lift, lift_map]
    rfl

/-- An operand that conforms to a panel is on its index. -/
theorem on_of_conform {reference : Panel} {x y : Operand}
    (h : x.conform alignment reference = .ok y) : On reference y := by
  intro p hp
  cases x with
  | scalar x =>
    cases h
    cases hp
  | panel q =>
    obtain ⟨q', hq, rfl⟩ := map_ok (mapError_ok h)
    cases hp
    exact Alignment.conform_ok hq

/-- Without panels there is nothing to read. -/
theorem contribution_scalars {operands : List Operand} (h : operands.filterMap Operand.panel? = []) :
    operands.mapM (contribution 0) = (.ok (operands.map (·.cell 0 0)) : Checked ε _) := by
  refine mapM_ok fun x hx => ?_
  cases x with
  | scalar x => rfl
  | panel p => exact absurd (List.filterMap_eq_nil_iff.mp h _ hx) (by simp [Operand.panel?])

/-- **Cell-by-cell operations stay within the buffers** of their panels. -/
theorem cellwise_eq (h : alignment.Regular) (function : String) (values : List (Value H))
    (f : List Float → Float) :
    cellwise alignment function values f = lift (PanelCalc.cellwise alignment function values f) := by
  unfold cellwise PanelCalc.cellwise
  rw [lift_mapM fun value _ => operand_eq h function value]
  refine lift_bind_congr fun operands _ => ?_
  cases hlongest : longest? (operands.filterMap Operand.panel?) with
  | none =>
    simp only [contribution_scalars (eq_nil_of_longest? hlongest)]
    rfl
  | some reference =>
    simp only
    rw [lift_mapM fun x _ => operandOn_eq h reference x]
    refine lift_bind_congr fun conformed hconformed => ?_
    have hon : ∀ x ∈ conformed, On reference x := by
      intro x hx
      obtain ⟨i, hi⟩ := List.getElem?_of_mem hx
      obtain ⟨_, -, hx⟩ := getElem?_of_forall₂ (forall₂_of_mapM hconformed).flip hi
      exact on_of_conform hx
    have hcells := cells_eq (ε := EvalError) f hon
    simp only [← bind_assoc, hcells]
    rfl

/-! ## Built-in functions -/

/-- The image of every history. -/
def histories (p : Panel) (f : List Float → Checked EvalError (List Float)) :
    Checked EvalError (Value H) :=
  return .panel (← mapColumns p f)

/-- The ranks in every row, whose cells another panel selects. -/
def rankBy (ranking : List Float → List Float → Checked EvalError (List Float)) (p q : Panel) :
    Checked EvalError (Value H) := do
  return .panel (← mapRows p fun row cells => do
    ranking (← slice q.values (row * p.cols) p.cols) cells)

/-- The answer of a built-in function. -/
def call (alignment : Alignment) (f : Builtin) (arguments : List (Value H)) :
    Checked EvalError (Value H) := do
  match f, arguments with
  | .cellwise g, arguments =>
    if arguments.length = g.argumentCount then cellwise alignment g.name arguments g.apply
    else lift (f.refuse arguments)
  | .rolling g, [x, n] =>
    let n ← lift (n.toWindow g.name)
    let x ← lift (x.toPanel g.name)
    histories x fun xs => return Series.rolling n g.reduce xs
  | .rollingPair g, [x, y, n] =>
    let n ← lift (n.toWindow g.name)
    let x ← lift (x.toPanel g.name)
    let y ← lift (y.toPanel g.name)
    let (x, y) ← ofShape (reconcile alignment x y)
    return .panel (← rollingPair n g.reduce x y)
  | .shifted g, [x, n] =>
    let n ← lift (n.toShift g.name)
    let x ← lift (x.toPanel g.name)
    histories x (shifted n g.apply)
  | .exponentialDecay, [x, factor, n] =>
    let n ← lift (n.toWindow f.name)
    let factor ← lift (factor.toScalar f.name)
    let x ← lift (x.toPanel f.name)
    histories x fun xs => return Series.rolling n (Stats.exponentialDecay factor) xs
  | .step, [x, n] =>
    let n ← lift (n.toScalar f.name)
    let x ← lift (x.toPanel f.name)
    histories x fun xs => return Series.countUpTo n xs
  | .rank, [x] =>
    let x ← ofShape (rebase alignment (← lift (x.toPanel f.name)))
    return .panel (← mapRows x fun _ cells => rankRow cells fun _ => return true)
  | .groupRank, [x, groups] =>
    let x ← ofShape (rebase alignment (← lift (x.toPanel f.name)))
    rankBy rankGroups x (← ofShape (conform alignment x (← lift (groups.toPanel f.name))))
  | .conditionRank, [x, condition] =>
    let x ← ofShape (rebase alignment (← lift (x.toPanel f.name)))
    rankBy rankChosen x (← ofShape (conform alignment x (← lift (condition.toPanel f.name))))
  | _, arguments => lift (f.refuse arguments)

theorem histories_eq {f : List Float → Checked EvalError (List Float)}
    {g : List Float → List Float} (p : Panel) (hf : ∀ xs, f xs = .ok (g xs))
    (hl : ∀ xs, (g xs).length = xs.length) :
    (histories p f : Checked EvalError (Value H)) = .ok (.panel (p.mapColumns fun _ => g)) := by
  rw [histories, mapColumns_eq hf hl]
  rfl

theorem rankBy_eq {ranking : List Float → List Float → Checked EvalError (List Float)}
    {f : List Float → List Float → List Float} {p q : Panel} (hq : q.IndexedAs p)
    (h : ∀ {keys cells : List Float}, keys.length = cells.length →
      ranking keys cells = .ok (f keys cells))
    (hl : ∀ {keys cells : List Float}, keys.length = cells.length →
      (f keys cells).length = cells.length) :
    (rankBy ranking p q : Checked EvalError (Value H)) =
      .ok (.panel (p.mapRows fun row => f (q.rowCells row))) := by
  have hrows : q.rows = p.rows := congrArg List.length hq.dates
  have hcols : q.cols = p.cols := congrArg List.length hq.symbols
  have hkeys (row : Nat) : (q.rowCells row).length = (p.rowCells row).length := by
    rw [Panel.length_rowCells, Panel.length_rowCells, hcols]
  have hmap : mapRows p (fun row cells => do
      ranking (← slice q.values (row * p.cols) p.cols) cells) =
        .ok (p.mapRows fun row => f (q.rowCells row)) := by
    refine mapRows_eq (fun row hr => ?_) fun row _ => ?_
    · have hslice : slice q.values (row * p.cols) p.cols = (.ok (q.rowCells row) :
          Checked EvalError _) := hcols ▸ slice_row (hrows ▸ hr)
      rw [hslice]
      exact h (hkeys row)
    · rw [hl (hkeys row), Panel.length_rowCells]
  rw [rankBy, hmap]
  rfl

/-- A panel that is ranked by another one, once both are on the trading dates. -/
theorem ranks_eq (h : alignment.Regular)
    {ranking : List Float → List Float → Checked EvalError (List Float)}
    {f : List Float → List Float → List Float}
    (hf : ∀ {keys cells : List Float}, keys.length = cells.length →
      ranking keys cells = .ok (f keys cells))
    (hl : ∀ {keys cells : List Float}, keys.length = cells.length →
      (f keys cells).length = cells.length) (name : String) (x y : Value H) :
    (do
      let x ← ofShape (rebase alignment (← lift (x.toPanel name)))
      rankBy ranking x (← ofShape (conform alignment x (← lift (y.toPanel name))))) =
    lift (do
      let p ← Builtin.rebased alignment (← x.toPanel name)
      let q ← (alignment.conform p (← y.toPanel name)).mapError .shape
      return .panel (p.mapRows fun row => f (q.rowCells row)) : Except EvalError (Value H)) := by
  refine lift_bind_congr fun p _ => ?_
  rw [rebase_eq h, ofShape_lift]
  refine lift_bind_congr fun p _ => lift_bind_congr fun q _ => ?_
  rw [conform_eq h, ofShape_lift]
  exact lift_bind_congr fun q hq => rankBy_eq (Alignment.conform_ok (mapError_ok hq)) hf hl

theorem length_selected {cells : List Float} {flags : List Bool} (hl : flags.length = cells.length) :
    (Ranking.selected flags cells).length = cells.length := by
  simp [Ranking.selected_eq_map, hl]

/-- **Built-in functions stay within the buffers** of their panels. -/
theorem call_eq (h : alignment.Regular) (f : Builtin) (arguments : List (Value H)) :
    call alignment f arguments = lift (f.call alignment arguments) := by
  cases f with
  | cellwise g =>
    by_cases hl : arguments.length = g.argumentCount
    · simp only [call, Builtin.call, if_pos hl]
      exact cellwise_eq h g.name arguments g.apply
    · simp only [call, Builtin.call, if_neg hl]
  | rolling g =>
    rcases arguments with _ | ⟨x, _ | ⟨n, _ | _⟩⟩
    case cons.cons.nil =>
      refine lift_bind_congr fun n hn => lift_bind_congr fun x _ => ?_
      have hpos := Value.pos_of_toWindow hn
      exact histories_eq x (fun _ => rfl) fun _ => Series.length_rolling hpos g.reduce
    all_goals rfl
  | rollingPair g =>
    rcases arguments with _ | ⟨x, _ | ⟨y, _ | ⟨n, _ | _⟩⟩⟩
    case cons.cons.cons.nil =>
      refine lift_bind_congr fun n hn => lift_bind_congr fun x _ => lift_bind_congr fun y _ => ?_
      rw [reconcile_eq h, ofShape_lift]
      refine lift_bind_congr fun pair hpair => ?_
      have hpos := Value.pos_of_toWindow hn
      have hindex := Alignment.reconcile_ok (mapError_ok hpair)
      have hrolling := rollingPair_eq (ε := EvalError) hpos g.reduce hindex
      simp only [hrolling]
      rfl
    all_goals rfl
  | shifted g =>
    rcases arguments with _ | ⟨x, _ | ⟨n, _ | _⟩⟩
    case cons.cons.nil =>
      refine lift_bind_congr fun n _ => lift_bind_congr fun x _ => ?_
      exact histories_eq x (shifted_eq n g.apply) fun _ => Series.length_shifted g.apply
    all_goals rfl
  | exponentialDecay =>
    rcases arguments with _ | ⟨x, _ | ⟨factor, _ | ⟨n, _ | _⟩⟩⟩
    case cons.cons.cons.nil =>
      refine lift_bind_congr fun n hn => lift_bind_congr fun factor _ => lift_bind_congr fun x _ => ?_
      have hpos := Value.pos_of_toWindow hn
      exact histories_eq x (fun _ => rfl) fun _ =>
        Series.length_rolling hpos (Stats.exponentialDecay factor)
    all_goals rfl
  | step =>
    rcases arguments with _ | ⟨x, _ | ⟨n, _ | _⟩⟩
    case cons.cons.nil =>
      refine lift_bind_congr fun n _ => lift_bind_congr fun x _ => ?_
      exact histories_eq x (fun _ => rfl) fun _ => Series.length_countUpTo n
    all_goals rfl
  | rank =>
    rcases arguments with _ | ⟨x, _ | _⟩
    case cons.nil =>
      refine lift_bind_congr fun x _ => ?_
      rw [rebase_eq h, ofShape_lift]
      refine lift_bind_congr fun x _ => ?_
      rw [mapRows_eq (fun row _ => rankRow_all _) fun row _ => ?length]
      case length =>
        rw [Ranking.all, length_selected (by simp), Panel.length_rowCells]
      rfl
    all_goals rfl
  | groupRank =>
    rcases arguments with _ | ⟨x, _ | ⟨groups, _ | _⟩⟩
    case cons.cons.nil =>
      exact ranks_eq h rankGroups_eq (fun hl => by simp [Ranking.byGroup, hl]) _ x groups
    all_goals rfl
  | conditionRank =>
    rcases arguments with _ | ⟨x, _ | ⟨condition, _ | _⟩⟩
    case cons.cons.nil =>
      exact ranks_eq h rankChosen_eq (fun hl => length_selected (by simpa using hl)) _ x condition
    all_goals rfl

end Storage

end PanelCalc
