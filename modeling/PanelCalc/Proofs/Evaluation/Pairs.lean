import PanelCalc.Proofs.Evaluation.Operands
import PanelCalc.Proofs.Vocabulary.BuiltinOperators

/-! # Pairs of panels

Operators between panels bring every operand onto the index of the longest one,
and rolling functions of two panels bring the shorter one onto that of the other.
With two panels this is the same: the same pair is combined, or the same error is
reported. -/
namespace PanelCalc

open Panel

variable {H : Type} {a : Alignment} {p q x y : Panel} {window : Value H} {n : Nat}

theorem Alignment.conform_refl (a : Alignment) (p : Panel) : a.conform p p = .ok p :=
  conform_self ⟨rfl, rfl⟩

theorem Panel.remap_congr (h : q.IndexedAs p) (f : Nat → Nat → Float) : q.remap f = p.remap f := by
  rw [remap, remap, h.dates, h.symbols]

/-- An operator between two panels works on them once they are reconciled. -/
theorem Vocabulary.cellBinary_panels (name : String) (f : Float → Float → Float) :
    (cellBinary name f a (.panel x) (.panel y) : Except EvalError (Value H)) =
      ((a.reconcile x y).map fun (left, right) => Value.panel (left.remap fun row col =>
        f (left.cell row col) (right.cell row col))).mapError .shape := by
  rw [cellBinary, cellwise, Alignment.reconcile]
  simp only [List.mapM_cons, List.mapM_nil, Operand.ofValue]
  cases a.prepare x with
  | error e => rfl
  | ok left =>
    cases a.prepare y with
    | error e => rfl
    | ok right =>
      -- the longer panel conforms to itself
      by_cases hlt : left.rows < right.rows
      · have hlongest : longest? ([.panel left, .panel right].filterMap Operand.panel?) =
            some right := congrArg some (if_pos hlt)
        simp only [Except.map, Except.mapError, bind, Except.bind, pure, Except.pure, hlongest,
          if_pos hlt, Operand.conform, Alignment.conform_refl, List.mapM_cons, List.mapM_nil]
        cases hc : a.conform right left with
        | error e => rfl
        | ok conformed =>
          have hindex := Alignment.conform_ok hc
          exact congrArg (fun q => Except.ok (Value.panel q)) (remap_congr hindex _).symm
      · have hlongest : longest? ([.panel left, .panel right].filterMap Operand.panel?) =
            some left := congrArg some (if_neg hlt)
        simp only [Except.map, Except.mapError, bind, Except.bind, pure, Except.pure, hlongest,
          if_neg hlt, Operand.conform, Alignment.conform_refl, List.mapM_cons, List.mapM_nil]
        cases a.conform left right with
        | error e => rfl
        | ok conformed => rfl

/-- So does a rolling function of two panels. -/
theorem Builtin.call_rollingPair (g : PairFunction) (hw : window.toWindow g.name = .ok n) :
    call a (.rollingPair g) [.panel x, .panel y, window] =
      ((a.reconcile x y).map fun (left, right) => Value.panel (left.mapColumns fun col xs =>
        Series.rollingPair n g.reduce xs (right.colCells col))).mapError .shape := by
  simp only [call, hw, Value.toPanel, bind, Except.bind]
  cases a.reconcile x y with
  | error e => rfl
  | ok pair => rfl

theorem Vocabulary.binary?_sum (caseStyle : CaseStyle) :
    (builtin caseStyle : Vocabulary H).binary? "+" = some ⟨"+", 2, cellBinary "+" (· + ·)⟩ := by
  cases caseStyle <;> rfl

/-- **Rolling functions of two panels reconcile them as the sum does.** However
panels are aligned, and for every window, either both fail with the same error, or
both give panels on one index, made from the same two panels: those that every
operator combines cell by cell are those whose windows are reduced. -/
theorem Builtin.call_rollingPair_sum (caseStyle : CaseStyle) (a : Alignment) (g : PairFunction)
    (hw : window.toWindow g.name = .ok n) (x y : Panel) :
    (∀ e, call a (.rollingPair g) [.panel x, .panel y, window] = .error (.shape e) ↔
      (Vocabulary.builtin caseStyle : Vocabulary H).applyBinary a "+" (.panel x) (.panel y) =
        .error (.shape e)) ∧
    ((∃ e, call a (.rollingPair g) [.panel x, .panel y, window] = .error (.shape e)) ∨
      ∃ left right sum result : Panel, right.IndexedAs left ∧ sum.IndexedAs left ∧ result.IndexedAs left ∧
        (∀ name f, (Vocabulary.cellBinary name f a (.panel x) (.panel y) :
          Except EvalError (Value H)) = .ok (.panel (left.remap fun row col =>
            f (left.cell row col) (right.cell row col)))) ∧
        (Vocabulary.builtin caseStyle : Vocabulary H).applyBinary a "+" (.panel x) (.panel y) =
          .ok (.panel sum) ∧
        sum = left.remap (fun row col => left.cell row col + right.cell row col) ∧
        call a (.rollingPair g) [.panel x, .panel y, window] = .ok (.panel result) ∧
        result = left.mapColumns fun col xs =>
          Series.rollingPair n g.reduce xs (right.colCells col)) := by
  rw [call_rollingPair g hw, Vocabulary.applyBinary, Vocabulary.binary?_sum]
  simp only [Vocabulary.cellBinary_panels]
  cases hpair : a.reconcile x y with
  | error e =>
    have fails (f : Panel × Panel → Value H) :
        (Except.map f (.error e)).mapError EvalError.shape = .error (.shape e) := rfl
    rw [fails, fails]
    exact ⟨fun _ => Iff.rfl, .inl ⟨e, rfl⟩⟩
  | ok pair =>
    refine ⟨fun e => iff_of_false nofun nofun, .inr ?_⟩
    exact ⟨pair.1, pair.2, pair.1.remap _, pair.1.mapColumns _, Alignment.reconcile_ok hpair,
      ⟨rfl, rfl⟩, ⟨rfl, rfl⟩, fun _ _ => rfl, rfl, rfl, rfl, rfl⟩

open Quarterly in
/-- Without announcements both fail; with them the earnings are put behind the prices. -/
theorem Builtin.call_rollingPair_quarterly :
    call .never (.rollingPair .covariance)
        [.panel price, .panel earnings, (.scalar 2 : Value Empty)] =
      .error (.shape (.missingAlignment 2 1)) ∧
    ∃ result, call (.whenNeeded calendar) (.rollingPair .covariance)
        [.panel price, .panel earnings, (.scalar 2 : Value Empty)] = .ok (.panel result) ∧
      result.IndexedAs price := by
  have window : (Value.scalar 2 : Value Empty).toWindow PairFunction.covariance.name = .ok 2 := rfl
  obtain ⟨total, htotal, hindex⟩ : ∃ total, (Vocabulary.builtin .upper : Vocabulary Empty).applyBinary
      (.whenNeeded calendar) "+" (.panel price) (.panel earnings) = .ok (.panel total) ∧
        total.IndexedAs price := ⟨_, rfl, rfl, rfl⟩
  constructor
  · exact ((call_rollingPair_sum .upper .never .covariance window price earnings).1 _).mpr rfl
  · obtain ⟨refused, given⟩ :=
      call_rollingPair_sum .upper (.whenNeeded calendar) .covariance window price earnings
    obtain ⟨e, h⟩ | ⟨left, right, sum, result, -, hsum, hresult, -, hs, -, h, -⟩ := given
    · cases htotal.symm.trans ((refused e).mp h)
    · cases htotal.symm.trans hs
      exact ⟨result, h, hresult.dates.trans (hsum.dates.symm.trans hindex.dates),
        hresult.symbols.trans (hsum.symbols.symm.trans hindex.symbols)⟩

end PanelCalc
