import PanelCalc.Proofs.Evaluation.Alike
import PanelCalc.Proofs.Panel.Aligning

/-! # Simulations between evaluations

Two evaluations go on side by side as long as a relation between their panels
lasts. All that is built in does to panels one of a few things: it brings them
onto an index, it computes cells from cells, histories from histories or rows
from rows. A relation that is kept by these is kept by every cell-by-cell
operation and by every built-in function. -/
namespace PanelCalc

/-- The functions that rank securities work on the trading dates. -/
def Builtin.Ranks : Builtin → Prop
  | rank | groupRank | conditionRank => True
  | _ => False

/-- What built-in functions make of a history. -/
inductive HistoryFunction (allowed : Builtin → Prop) : (List Float → List Float) → Prop
  | rolling {n} : 0 < n → ∀ reduce, HistoryFunction allowed (Series.rolling n reduce)
  | shifted (n f) : HistoryFunction allowed (Series.shifted n f)
  | countUpTo (last) : allowed .step → HistoryFunction allowed (Series.countUpTo last)

/-- How built-in functions rank a row of cells by another row. -/
inductive RowRanking (allowed : Builtin → Prop) : (List Float → List Float → List Float) → Prop
  | byGroup : allowed .groupRank → RowRanking allowed Ranking.byGroup
  | byCondition : allowed .conditionRank → RowRanking allowed Ranking.byCondition

/-- Two panels on the indexes of two others. -/
structure Panel.Conformed (R : Panel → Panel → Prop) (reference reference' p q : Panel) : Prop where
  related : R p q
  left : p.IndexedAs reference
  right : q.IndexedAs reference'

/-- The panel is on the trading dates, if there are any. -/
def Panel.Rebased (alignment : Alignment) (p : Panel) : Prop :=
  ∀ calendar, alignment.calendar? = some calendar → p.dates = calendar.tradeDates

/-- A relation between panels that all that is built in keeps. -/
structure Simulation (strict : Prop) (allowed : Builtin → Prop) (R : Panel → Panel → Prop)
    (a a' : Alignment) : Prop where
  shorter : ∀ {p q p' q'}, R p q → R p' q' → (p.rows < p'.rows ↔ q.rows < q'.rows)
  prepare : ∀ {p q}, R p q → Follows strict R (a.prepare p) (a'.prepare q)
  conform : ∀ {reference reference' p q}, R reference reference' → R p q →
    Follows strict R (a.conform reference p) (a'.conform reference' q)
  rebase : ∀ {f p q}, Builtin.Ranks f → allowed f → R p q →
    Follows strict R (a.rebase p) (a'.rebase q)
  cells : ∀ {p q xs ys} (f : List Float → Float), R p q →
    List.Forall₂ (Operand.Alike (Panel.Conformed R p q)) xs ys →
    R (p.remap fun row col => f (xs.map (·.cell row col)))
      (q.remap fun row col => f (ys.map (·.cell row col)))
  histories : ∀ {f p q}, HistoryFunction allowed f → R p q →
    R (p.mapColumns fun _ => f) (q.mapColumns fun _ => f)
  pairs : ∀ {n p q p' q'} (reduce : List Float → List Float → Float), 0 < n → R p q → R p' q' →
    p'.IndexedAs p → q'.IndexedAs q →
    R (p.mapColumns fun col xs => Series.rollingPair n reduce xs (p'.colCells col))
      (q.mapColumns fun col xs => Series.rollingPair n reduce xs (q'.colCells col))
  ranks : ∀ {p q}, allowed .rank → R p q → p.Rebased a → q.Rebased a' →
    R (p.mapRows fun _ => Ranking.all) (q.mapRows fun _ => Ranking.all)
  ranksBy : ∀ {f p q p' q'}, RowRanking allowed f → R p q → p.Rebased a → q.Rebased a' →
    Panel.Conformed R p q p' q' →
    R (p.mapRows fun row => f (p'.rowCells row)) (q.mapRows fun row => f (q'.rowCells row))

namespace Simulation

variable {H : Type} {strict : Prop} {allowed : Builtin → Prop} {R : Panel → Panel → Prop}
  {a a' : Alignment} {p q p' q' : Panel}

theorem conformed (h : Simulation strict allowed R a a') (hr : R p q) (hp : R p' q') :
    Follows strict (Panel.Conformed R p q) (a.conform p p') (a'.conform q q') :=
  (h.conform hr hp).of_ok fun _ _ hx hy hxy =>
    ⟨hxy, Alignment.conform_ok hx, Alignment.conform_ok hy⟩

theorem reconcile (h : Simulation strict allowed R a a') (hp : R p q) (hp' : R p' q') :
    Follows strict (fun x y => R x.1 y.1 ∧ Panel.Conformed R x.1 y.1 x.2 y.2)
      (a.reconcile p p') (a'.reconcile q q') := by
  unfold Alignment.reconcile
  refine (h.prepare hp).bind fun left left' hl => (h.prepare hp').bind fun right right' hr => ?_
  by_cases hlt : left.rows < right.rows
  · simp only [hlt, (h.shorter hl hr).mp hlt, if_true]
    refine (h.conformed hr hl).bind fun x y hxy => .ok ⟨hxy.related, hr, ?_, ?_⟩
    · exact ⟨hxy.left.dates.symm, hxy.left.symbols.symm⟩
    · exact ⟨hxy.right.dates.symm, hxy.right.symbols.symm⟩
  · simp only [hlt, mt (h.shorter hl hr).mpr hlt, if_false]
    exact (h.conformed hl hr).bind fun x y hxy => .ok ⟨hl, hxy⟩

/-! ## Cell-by-cell operations -/

theorem longest? (h : Simulation strict allowed R a a') {ps qs : List Panel}
    (hs : List.Forall₂ R ps qs) :
    Option.Rel R (PanelCalc.longest? ps) (PanelCalc.longest? qs) := by
  have fold : ∀ {ps qs : List Panel}, List.Forall₂ R ps qs → ∀ {p q : Panel}, R p q →
      R (ps.foldl (fun best q => if best.rows < q.rows then q else best) p)
        (qs.foldl (fun best q => if best.rows < q.rows then q else best) q) := by
    intro ps qs hs
    induction hs with
    | nil => exact id
    | @cons first first' _ _ hf _ ih =>
      intro p q hpq
      rw [List.foldl_cons, List.foldl_cons]
      by_cases hlt : p.rows < first.rows
      · rw [if_pos hlt, if_pos ((h.shorter hpq hf).mp hlt)]
        exact ih hf
      · rw [if_neg hlt, if_neg (mt (h.shorter hpq hf).mpr hlt)]
        exact ih hpq
  cases hs with
  | nil => exact .none
  | cons hf hs => exact .some (fold hs hf)

theorem ofValue (h : Simulation strict allowed R a a') (name : String) {x y : Value H}
    (hx : Value.Matches allowed R x y) :
    Follows strict (Operand.Alike R) (Operand.ofValue a name x) (Operand.ofValue a' name y) := by
  cases hx with
  | scalar x => exact .ok (.scalar x)
  | panel hp => exact ((h.prepare hp).map fun _ _ h => Operand.Alike.panel h).mapError _
  | _ => exact .error

theorem operand (h : Simulation strict allowed R a a') (hr : R p q) {x y : Operand}
    (hx : Operand.Alike R x y) :
    Follows strict (Operand.Alike (Panel.Conformed R p q)) (x.conform a p) (y.conform a' q) := by
  cases hx with
  | scalar x => exact .ok (.scalar x)
  | panel hp => exact ((h.conformed hr hp).map fun _ _ h => Operand.Alike.panel h).mapError _

theorem cellwise (h : Simulation strict allowed R a a') (name : String) {xs ys : List (Value H)}
    (f : List Float → Float) (hs : List.Forall₂ (Value.Matches allowed R) xs ys) :
    Follows strict (Value.Matches allowed R) (cellwise a name xs f) (cellwise a' name ys f) := by
  unfold PanelCalc.cellwise
  refine (Follows.mapM hs fun x y => h.ofValue name).bind fun os os' hos => ?_
  have hlongest := h.longest? (Operand.panels_alike hos)
  cases hp : PanelCalc.longest? (os.filterMap Operand.panel?) with
  | none =>
    cases hq : PanelCalc.longest? (os'.filterMap Operand.panel?) with
    | some q =>
      rw [hp, hq] at hlongest
      cases hlongest
    | none =>
      have hnil := eq_nil_of_longest? hp
      have hcell : os.map (·.cell 0 0) = os'.map (·.cell 0 0) :=
        Operand.map_cell_congr (Operand.scalars_alike (S := fun _ _ => False) hos hnil) (by simp)
      simp only [hcell]
      exact .ok (.scalar _)
  | some reference =>
    cases hq : PanelCalc.longest? (os'.filterMap Operand.panel?) with
    | none =>
      rw [hp, hq] at hlongest
      cases hlongest
    | some reference' =>
      rw [hp, hq] at hlongest
      cases hlongest with
      | some hr =>
      refine (Follows.mapM hos fun x y => h.operand hr).bind fun cs cs' hcs => ?_
      exact .ok (.panel (h.cells f hr hcs))

/-! ## Built-in functions -/

theorem rebased (h : Simulation strict allowed R a a') {f : Builtin} (hf : f.Ranks)
    (ha : allowed f) (hp : R p q) :
    Follows strict (fun x y => R x y ∧ x.Rebased a ∧ y.Rebased a') (Builtin.rebased a p)
      (Builtin.rebased a' q) := by
  refine Follows.mapError ((h.rebase hf ha hp).of_ok fun x y hx hy hxy => ⟨hxy, ?_, ?_⟩) _
  · exact fun c hc => Alignment.rebase_ok hc hx
  · exact fun c hc => Alignment.rebase_ok hc hy

/-- Rows ranked by the rows of another panel. -/
theorem rankedBy (h : Simulation strict allowed R a a') {b : Builtin} (hb : b.Ranks)
    (ha : allowed b) (name : String) {f : List Float → List Float → List Float}
    (hf : RowRanking allowed f) {x x' y y' : Value H} (hx : Value.Matches allowed R x y)
    (hx' : Value.Matches allowed R x' y') :
    Follows strict (Value.Matches allowed R)
      (do
        let p ← Builtin.rebased a (← x.toPanel name)
        let p' ← (a.conform p (← x'.toPanel name)).mapError .shape
        return .panel (p.mapRows fun row => f (p'.rowCells row)))
      (do
        let q ← Builtin.rebased a' (← y.toPanel name)
        let q' ← (a'.conform q (← y'.toPanel name)).mapError .shape
        return .panel (q.mapRows fun row => f (q'.rowCells row)) :
          Except EvalError (Value H)) := by
  refine (hx.toPanel _).bind fun p q hpq => (h.rebased hb ha hpq).bind fun p q hpq => ?_
  refine (hx'.toPanel _).bind fun p' q' hpq' => ?_
  refine ((h.conformed hpq.1 hpq').mapError _).bind fun r r' hr => ?_
  exact .ok (.panel (h.ranksBy hf hpq.1 hpq.2.1 hpq.2.2 hr))

/-- **Built-in functions keep a simulation.** -/
theorem call (h : Simulation strict allowed R a a') (f : Builtin) (hf : allowed f)
    {xs ys : List (Value H)} (hs : List.Forall₂ (Value.Matches allowed R) xs ys) :
    Follows strict (Value.Matches allowed R) (f.call a xs) (f.call a' ys) := by
  by_cases hl : xs.length = f.argumentCount
  case neg =>
    rw [Builtin.call_of_length_ne f hl, Builtin.call_of_length_ne f (hs.length_eq ▸ hl)]
    exact Builtin.refuse_follows f hs
  cases f with
  | cellwise g =>
    have hl : xs.length = g.argumentCount := hl
    simp only [Builtin.call]
    rw [if_pos hl, if_pos (hs.length_eq.symm.trans hl)]
    exact h.cellwise _ _ hs
  | rolling g =>
    obtain ⟨x, n, y, m, rfl, rfl, hx, hn⟩ := Builtin.two_of_length hs hl
    simp only [Builtin.call]
    refine (hn.toWindow _).bind ?_
    rintro length _ ⟨rfl, positive⟩
    refine (hx.toPanel _).bind ?_
    intro p q hpq
    exact .ok (.panel (h.histories (.rolling positive g.reduce) hpq))
  | rollingPair g =>
    obtain ⟨x, x', n, y, y', m, rfl, rfl, hx, hx', hn⟩ := Builtin.three_of_length hs hl
    simp only [Builtin.call]
    refine (hn.toWindow _).bind ?_
    rintro length _ ⟨rfl, positive⟩
    refine (hx.toPanel _).bind fun p q hpq => (hx'.toPanel _).bind fun p' q' hpq' => ?_
    refine ((h.reconcile hpq hpq').mapError _).bind ?_
    rintro ⟨p, p'⟩ ⟨q, q'⟩ ⟨hpq, hr⟩
    exact .ok (.panel (h.pairs g.reduce positive hpq hr.related hr.left hr.right))
  | shifted g =>
    obtain ⟨x, n, y, m, rfl, rfl, hx, hn⟩ := Builtin.two_of_length hs hl
    simp only [Builtin.call]
    refine (hn.toShift _).bind ?_
    rintro distance _ rfl
    refine (hx.toPanel _).bind ?_
    intro p q hpq
    exact .ok (.panel (h.histories (.shifted distance g.apply) hpq))
  | exponentialDecay =>
    obtain ⟨x, factor, n, y, factor', m, rfl, rfl, hx, hfactor, hn⟩ := Builtin.three_of_length hs hl
    simp only [Builtin.call]
    refine (hn.toWindow _).bind ?_
    rintro length _ ⟨rfl, positive⟩
    refine (hfactor.toScalar _).bind ?_
    rintro weight _ rfl
    refine (hx.toPanel _).bind ?_
    intro p q hpq
    exact .ok (.panel (h.histories (.rolling positive _) hpq))
  | step =>
    obtain ⟨x, n, y, m, rfl, rfl, hx, hn⟩ := Builtin.two_of_length hs hl
    simp only [Builtin.call]
    refine (hn.toScalar _).bind ?_
    rintro last _ rfl
    refine (hx.toPanel _).bind ?_
    intro p q hpq
    exact .ok (.panel (h.histories (.countUpTo last hf) hpq))
  | rank =>
    obtain ⟨x, y, rfl, rfl, hx⟩ := Builtin.one_of_length hs hl
    simp only [Builtin.call]
    refine (hx.toPanel _).bind fun p q hpq => ?_
    refine (h.rebased (f := .rank) trivial hf hpq).bind fun p q hpq => ?_
    exact .ok (.panel (h.ranks hf hpq.1 hpq.2.1 hpq.2.2))
  | groupRank =>
    obtain ⟨x, x', y, y', rfl, rfl, hx, hx'⟩ := Builtin.two_of_length hs hl
    exact h.rankedBy (b := .groupRank) trivial hf _ (.byGroup hf) hx hx'
  | conditionRank =>
    obtain ⟨x, x', y, y', rfl, rfl, hx, hx'⟩ := Builtin.two_of_length hs hl
    exact h.rankedBy (b := .conditionRank) trivial hf _ (.byCondition hf) hx hx'

end Simulation

end PanelCalc
