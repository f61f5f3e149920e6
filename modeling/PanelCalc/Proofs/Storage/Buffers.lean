import PanelCalc.Panel.Basic
import PanelCalc.Proofs.Evaluation.Answers

/-! # Buffers

Panels keep their cells in a buffer, row after row. Here every place of a buffer
that is read or written is checked against its size, and so is a buffer that is
made a panel. A run that never meets a fault gives what it gives without checks. -/
namespace PanelCalc.Storage

/-- Why a run over buffers stops: an error that it reports, or a fault. -/
inductive Fault (ε : Type) where
  | error (e : ε)
  /-- A place is read or written that a buffer does not have. -/
  | outOfRange (index size : Nat)
  /-- A buffer does not have the size that its use calls for. -/
  | wrongSize (expected actual : Nat)

/-- An answer of a run over buffers. -/
abbrev Checked (ε α : Type) := Except (Fault ε) α

variable {ε ε' α β γ : Type}

/-! ## Answers without faults -/

/-- An answer that has been given without any buffer. -/
def lift (x : Except ε α) : Checked ε α := x.mapError .error

/-- The same fault where errors are reported as others. -/
def Fault.map (f : ε → ε') : Fault ε → Fault ε'
  | error e => error (f e)
  | outOfRange index size => outOfRange index size
  | wrongSize expected actual => wrongSize expected actual

@[simp] theorem lift_ok (x : α) : lift (.ok x : Except ε α) = .ok x := rfl

@[simp] theorem lift_pure (x : α) : lift (pure x : Except ε α) = pure x := rfl

/-- What follows an answer is looked at only where there is one. -/
theorem lift_bind_congr {x : Except ε α} {f : α → Except ε β} {g : α → Checked ε β}
    (h : ∀ a, x = .ok a → g a = lift (f a)) : lift x >>= g = lift (x >>= f) := by
  cases x with
  | ok a => exact h a rfl
  | error e => rfl

theorem lift_bind (x : Except ε α) (f : α → Except ε β) :
    lift (x >>= f) = lift x >>= fun a => lift (f a) :=
  (lift_bind_congr fun _ _ => rfl).symm

theorem lift_map (x : Except ε α) (f : α → β) : lift (x.map f) = (lift x).map f := by
  cases x <;> rfl

theorem lift_mapError (f : ε → ε') (x : Except ε α) :
    lift (x.mapError f) = (lift x).mapError (Fault.map f) := by
  cases x <;> rfl

theorem lift_mapM {f : α → Except ε β} {g : α → Checked ε β} {xs : List α}
    (h : ∀ x ∈ xs, g x = lift (f x)) : xs.mapM g = lift (xs.mapM f) := by
  induction xs with
  | nil => rfl
  | cons x xs ih =>
    obtain ⟨hx, hxs⟩ := List.forall_mem_cons.mp h
    simp only [List.mapM_cons, hx, ih hxs, lift_bind, lift_pure]

theorem mapM_ok {f : α → Checked ε β} {g : α → β} {xs : List α}
    (h : ∀ x ∈ xs, f x = .ok (g x)) : xs.mapM f = .ok (xs.map g) := by
  induction xs with
  | nil => rfl
  | cons x xs ih =>
    obtain ⟨hx, hxs⟩ := List.forall_mem_cons.mp h
    rw [List.mapM_cons, hx, ih hxs]
    rfl

/-! ## Places -/

/-- What stands at a place. -/
def read (values : Array α) (i : Nat) : Checked ε α :=
  if h : i < values.size then .ok values[i] else .error (.outOfRange i values.size)

/-- The buffer with something else at a place. -/
def write (values : Array α) (i : Nat) (x : α) : Checked ε (Array α) :=
  if h : i < values.size then .ok (values.set i x h) else .error (.outOfRange i values.size)

/-- Whether a size is the one that is called for. -/
def expect (expected actual : Nat) : Checked ε Unit :=
  if actual = expected then .ok () else .error (.wrongSize expected actual)

/-- Several writes, one after the other. -/
def writeAll (values : Array α) (writes : List (Nat × α)) : Checked ε (Array α) :=
  writes.foldlM (fun values w => write values w.1 w.2) values

theorem read_eq {values : Array α} {i : Nat} {x : α} (h : values[i]? = some x) :
    read values i = (.ok x : Checked ε α) := by
  obtain ⟨hi, rfl⟩ := Array.getElem?_eq_some_iff.mp h
  exact dif_pos hi

theorem expect_self (size : Nat) : expect size size = (.ok () : Checked ε Unit) := if_pos rfl

theorem write_eq {values : Array α} {i : Nat} (h : i < values.size) (x : α) :
    write values i x = (.ok (values.set i x h) : Checked ε (Array α)) := dif_pos h

theorem writeAll_cons {values : Array α} {w : Nat × α} (h : w.1 < values.size)
    (writes : List (Nat × α)) :
    writeAll values (w :: writes) =
      (writeAll (values.set w.1 w.2 h) writes : Checked ε (Array α)) := by
  rw [writeAll, List.foldlM_cons, write_eq h]
  rfl

theorem writeAll_append (values : Array α) (writes more : List (Nat × α)) :
    writeAll values (writes ++ more) =
      (writeAll values writes >>= (writeAll · more) : Checked ε (Array α)) :=
  List.foldlM_append

/-- Writes within a buffer leave its size as it is. -/
theorem writeAll_inside {values : Array α} {writes : List (Nat × α)}
    (h : ∀ w ∈ writes, w.1 < values.size) :
    ∃ values', writeAll values writes = (.ok values' : Checked ε (Array α)) ∧
      values'.size = values.size := by
  induction writes generalizing values with
  | nil => exact ⟨values, rfl, rfl⟩
  | cons w writes ih =>
    obtain ⟨hi, hws⟩ := List.forall_mem_cons.mp h
    have hsize : (values.set w.1 w.2 hi).size = values.size := Array.size_set hi
    have hws : ∀ u ∈ writes, u.1 < (values.set w.1 w.2 hi).size := hsize ▸ hws
    obtain ⟨values', hall, hsize'⟩ := ih hws
    exact ⟨values', (writeAll_cons hi writes).trans hall, hsize'.trans hsize⟩

/-- **Writes that agree** on what belongs where leave it there. -/
theorem writeAll_getElem? (g : Nat → α) {values values' : Array α} {writes : List (Nat × α)}
    (h : ∀ w ∈ writes, w.1 < values.size ∧ w.2 = g w.1)
    (hw : writeAll values writes = (.ok values' : Checked ε (Array α))) (i : Nat) :
    values'[i]? = if i ∈ writes.map (·.1) then some (g i) else values[i]? := by
  induction writes generalizing values with
  | nil =>
    cases hw
    simp
  | cons w writes ih =>
    obtain ⟨⟨hi, hx⟩, hws⟩ := List.forall_mem_cons.mp h
    rw [writeAll_cons hi] at hw
    rw [ih (by simpa using hws) hw, List.map_cons]
    by_cases hlater : i ∈ writes.map (·.1)
    · rw [if_pos hlater, if_pos (List.mem_cons_of_mem _ hlater)]
    · rw [if_neg hlater, Array.getElem?_set hi]
      by_cases hw : w.1 = i
      · subst hw
        rw [if_pos rfl, if_pos (List.mem_cons_self ..), hx]
      · rw [if_neg hw, if_neg (by simp [hlater, Ne.symm hw])]

/-- **A loop that writes** does all its writes, up to the first error. -/
theorem foldlM_writes {body : Array α → β → Checked ε (Array α)}
    (step : β → Except ε (List (Nat × α))) {xs : List β} {values : Array α}
    (h : ∀ x ∈ xs, ∀ values, body values x = lift (step x) >>= writeAll values)
    (inside : ∀ x ∈ xs, ∀ ws, step x = .ok ws → ∀ w ∈ ws, w.1 < values.size) :
    xs.foldlM body values = lift (xs.mapM step) >>= fun ws => writeAll values ws.flatten := by
  induction xs generalizing values with
  | nil => rfl
  | cons x xs ih =>
    obtain ⟨hx, hxs⟩ := List.forall_mem_cons.mp h
    obtain ⟨hin, hins⟩ := List.forall_mem_cons.mp inside
    rw [List.foldlM_cons, hx values, List.mapM_cons]
    cases hs : step x with
    | error e => rfl
    | ok ws =>
      obtain ⟨next, hnext, hsize⟩ := writeAll_inside (ε := ε) (hin ws hs)
      have hins : ∀ x ∈ xs, ∀ ws, step x = .ok ws → ∀ w ∈ ws, w.1 < next.size := hsize ▸ hins
      have hrest := ih hxs hins
      simp only [lift_ok, bind, Except.bind, pure, Except.pure, hnext] at hrest ⊢
      rw [hrest]
      cases xs.mapM step with
      | error e => rfl
      | ok more =>
        simp only [lift_ok, List.flatten_cons, writeAll_append, hnext]
        rfl

/-! ## Panels -/

/-- The panel of a buffer. -/
def panel (dates : List Date) (symbols : List String) (values : Array Float) :
    Checked ε Panel :=
  if size_eq : values.size = dates.length * symbols.length then
    .ok { dates, symbols, values, size_eq }
  else .error (.wrongSize (dates.length * symbols.length) values.size)

variable {q : Panel} {values : Array Float}

/-- A buffer that holds the cells of a panel makes this panel. -/
theorem panel_eq (hs : values.size = q.rows * q.cols)
    (h : ∀ row < q.rows, ∀ col < q.cols, values[row * q.cols + col]? = some (q.cell row col)) :
    panel q.dates q.symbols values = (.ok q : Checked ε Panel) := by
  have same : Panel.mk q.dates q.symbols values hs = q := by
    refine Panel.ext_cell rfl rfl fun row hr col hc => ?_
    have hcell := h row hr col hc
    simp only [Panel.cell, Panel.cols] at hcell ⊢
    rw [Array.getD_eq_getD_getElem?, hcell, Option.getD_some]
  unfold panel
  rw [dif_pos (by exact hs), same]

/-- **A buffer that is written cell by cell** makes the panel of what was written, where the cells
that were left out are missing. -/
theorem writeAll_panel {writes : List (Nat × Float)}
    (inside : ∀ w ∈ writes, ∃ row < q.rows, ∃ col < q.cols,
      w = (row * q.cols + col, q.cell row col))
    (outside : ∀ row < q.rows, ∀ col < q.cols,
      row * q.cols + col ∉ writes.map (·.1) → q.cell row col = Cell.missing) :
    (writeAll (Array.replicate (q.rows * q.cols) Cell.missing) writes >>=
      panel q.dates q.symbols : Checked ε Panel) = .ok q := by
  have hin : ∀ w ∈ writes, w.1 < (Array.replicate (q.rows * q.cols) Cell.missing).size ∧
      w.2 = q.values.getD w.1 Cell.missing := by
    intro w hw
    obtain ⟨row, hr, col, hc, rfl⟩ := inside w hw
    exact ⟨by simpa using Panel.position_lt hr hc, rfl⟩
  obtain ⟨values, hw, hsize⟩ := writeAll_inside (ε := ε) fun w hw => (hin w hw).1
  rw [hw]
  refine panel_eq (by simpa using hsize) fun row hr col hc => ?_
  rw [writeAll_getElem? (q.values.getD · Cell.missing) hin hw]
  split
  · rfl
  · rename_i hout
    rw [outside row hr col hc hout]
    simp [Panel.position_lt hr hc]

/-- **A loop that writes a panel** part by part makes this panel. -/
theorem foldlM_panel {body : Array Float → β → Checked ε (Array Float)}
    (writes : β → List (Nat × Float)) {xs : List β}
    (h : ∀ x ∈ xs, ∀ values, body values x = writeAll values (writes x))
    (inside : ∀ x ∈ xs, ∀ w ∈ writes x, ∃ row < q.rows, ∃ col < q.cols,
      w = (row * q.cols + col, q.cell row col))
    (outside : ∀ row < q.rows, ∀ col < q.cols,
      (∀ x ∈ xs, row * q.cols + col ∉ (writes x).map (·.1)) → q.cell row col = Cell.missing) :
    (xs.foldlM body (Array.replicate (q.rows * q.cols) Cell.missing) >>=
      panel q.dates q.symbols : Checked ε Panel) = .ok q := by
  have hin : ∀ x ∈ xs, ∀ ws, (.ok (writes x) : Except ε _) = .ok ws → ∀ w ∈ ws,
      w.1 < (Array.replicate (q.rows * q.cols) Cell.missing).size := by
    intro x hx ws hws w hw
    cases hws
    obtain ⟨row, hr, col, hc, rfl⟩ := inside x hx w hw
    simpa using Panel.position_lt hr hc
  have hloop := foldlM_writes (fun x => .ok (writes x)) h hin
  have hall : xs.mapM (fun x => (.ok (writes x) : Except ε _)) = .ok (xs.map writes) :=
    List.mapM_pure
  rw [hloop, hall]
  refine writeAll_panel ?_ ?_
  · intro w hw
    obtain ⟨ws, hws, hw⟩ := List.mem_flatten.mp hw
    obtain ⟨x, hx, rfl⟩ := List.mem_map.mp hws
    exact inside x hx w hw
  · intro row hr col hc hout
    refine outside row hr col hc fun x hx hmem => hout ?_
    obtain ⟨w, hw, hi⟩ := List.mem_map.mp hmem
    exact List.mem_map.mpr ⟨w, List.mem_flatten.mpr ⟨_, List.mem_map.mpr ⟨x, hx, rfl⟩, hw⟩, hi⟩

end PanelCalc.Storage
