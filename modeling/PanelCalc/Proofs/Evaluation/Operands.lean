import PanelCalc.Proofs.Evaluation.Validity
import PanelCalc.Proofs.Panel.Conforming

/-! # What operands bring to a cell

A cell-by-cell operation takes its index from the first of the longest panels. Of
every operand there is one number to each day and security: a scalar is the same
everywhere, a panel brings its own cell or the one that it shows on the day. So the
order of the operands makes no difference to what can be read. -/
namespace PanelCalc

open Panel

/-! ## The longest panel -/

theorem longest?_concat (ps : List Panel) (q : Panel) :
    longest? (ps ++ [q]) = some (match longest? ps with
      | none => q
      | some best => if best.rows < q.rows then q else best) := by
  cases ps with
  | nil => rfl
  | cons p ps => simp [longest?]

/-- Before the longest panel all have fewer rows, and none behind it has more. -/
theorem split_of_longest? {ps : List Panel} {longest : Panel} (h : longest? ps = some longest) :
    ∃ before after, ps = before ++ longest :: after ∧ (∀ p ∈ before, p.rows < longest.rows) ∧
      ∀ p ∈ after, p.rows ≤ longest.rows := by
  induction ps using List.reverseRecOn generalizing longest with
  | nil => cases h
  | append_singleton ps q ih =>
    rw [longest?_concat] at h
    cases hbest : longest? ps with
    | none =>
      rw [hbest] at h
      cases h
      exact ⟨[], [], by simp [eq_nil_of_longest? hbest], List.forall_mem_nil _, List.forall_mem_nil _⟩
    | some best =>
      obtain ⟨before, after, rfl, hbefore, hafter⟩ := ih hbest
      rw [hbest] at h
      simp only [Option.some.injEq] at h
      split at h
      · rename_i hlt
        subst h
        refine ⟨before ++ best :: after, [], rfl, fun p hp => ?_, List.forall_mem_nil _⟩
        rcases List.mem_append.mp hp with hp | hp
        · exact (hbefore p hp).trans hlt
        · rcases List.mem_cons.mp hp with rfl | hp
          · exact hlt
          · exact (hafter p hp).trans_lt hlt
      · rename_i hle
        subst h
        refine ⟨before, after ++ [q], by simp, hbefore, fun p hp => ?_⟩
        rcases List.mem_append.mp hp with hp | hp
        · exact hafter p hp
        · rw [List.mem_singleton.mp hp]
          exact Nat.le_of_not_lt hle

namespace Operand

variable {H : Type} {a : Alignment} {reference p : Panel} {operand operand' : Operand}
  {value : Value H} {day : Date} {symbol : String} {row col : Nat} {x y : Float}

/-- The panel with the most rows among operands, the first of several. -/
def Leads (reference : Panel) (operands : List Operand) : Prop :=
  ∃ before after, operands = before ++ panel reference :: after ∧
    (∀ p, panel p ∈ before → p.rows < reference.rows) ∧
      ∀ p, panel p ∈ after → p.rows ≤ reference.rows

theorem Leads.mem {operands : List Operand} (h : Leads reference operands) :
    panel reference ∈ operands := by
  obtain ⟨before, after, rfl, -⟩ := h
  exact List.mem_append_right _ (.head _)

theorem Leads.rows_le {operands : List Operand} (h : Leads reference operands)
    (hp : panel p ∈ operands) : p.rows ≤ reference.rows := by
  obtain ⟨before, after, rfl, hbefore, hafter⟩ := h
  rcases List.mem_append.mp hp with hp | hp
  · exact (hbefore p hp).le
  · rcases List.mem_cons.mp hp with hp | hp
    · cases hp
      exact le_rfl
    · exact hafter p hp

theorem leads_of_longest? {operands : List Operand}
    (h : longest? (operands.filterMap panel?) = some reference) : Leads reference operands := by
  obtain ⟨before, after, hsplit, hbefore, hafter⟩ := split_of_longest? h
  obtain ⟨front, rest, rfl, rfl, hrest⟩ := List.filterMap_eq_append_iff.mp hsplit
  obtain ⟨scalars, lead, back, rfl, hscalars, hlead, rfl⟩ := List.filterMap_eq_cons_iff.mp hrest
  have mem_panels {p : Panel} {operands : List Operand} (hp : panel p ∈ operands) :
      p ∈ operands.filterMap panel? := List.mem_filterMap.mpr ⟨_, hp, rfl⟩
  cases lead with
  | scalar x => cases hlead
  | panel q =>
    cases hlead
    refine ⟨front ++ scalars, back, by simp, fun p hp => ?_, fun p hp => hafter p (mem_panels hp)⟩
    rcases List.mem_append.mp hp with hp | hp
    · exact hbefore p (mem_panels hp)
    · cases hscalars _ hp

/-- Among operands with a panel one of them leads. -/
theorem exists_longest {operands : List Operand} (h : panel p ∈ operands) :
    ∃ reference, longest? (operands.filterMap panel?) = some reference := by
  refine Option.ne_none_iff_exists'.mp fun hnone => ?_
  have hp : p ∈ operands.filterMap panel? := List.mem_filterMap.mpr ⟨_, h, rfl⟩
  rw [eq_nil_of_longest? hnone] at hp
  cases hp

/-! ## One operand -/

/-- The operand that a scalar or a valid panel stands for, once it has been prepared. -/
inductive Prepared (a : Alignment) : Value H → Operand → Prop
  | scalar (x : Float) : Prepared a (.scalar x) (.scalar x)
  | panel {p q : Panel} : p.Valid → a.prepare p = .ok q → Prepared a (.panel p) (.panel q)

/-- The number that an operand gives to a day and a security of a panel. -/
inductive Gives (a : Alignment) (reference : Panel) (day : Date) (symbol : String) :
    Operand → Float → Prop
  | scalar (x : Float) : Gives a reference day symbol (.scalar x) x
  | panel {p : Panel} {x : Float} : a.Brings reference p day symbol x →
    Gives a reference day symbol (.panel p) x

theorem Prepared.ofValue (h : Prepared a value operand) (function : String) :
    Operand.ofValue a function value = .ok operand := by
  cases h with
  | scalar => rfl
  | panel _ h => rw [Operand.ofValue, h]; rfl

theorem Prepared.valid (h : Prepared a value (.panel p)) : p.Valid := by
  cases h with
  | panel hvalid h => exact hvalid.prepare h

theorem Gives.congr {other : Panel} (h : Gives a reference day symbol operand x)
    (hd : other.dates = reference.dates) : Gives a other day symbol operand x := by
  cases h with
  | scalar => exact .scalar _
  | panel h => exact .panel (h.congr hd)

theorem exists_conform_iff (hr : reference.Valid) (ho : ∀ p, operand = .panel p → p.Valid) :
    (∃ conformed, operand.conform a reference = .ok conformed) ↔
      ∀ p, operand = .panel p → a.Fits reference p := by
  cases operand with
  | scalar x =>
    refine ⟨fun _ p hp => ?_, fun _ => ⟨.scalar x, rfl⟩⟩
    cases hp
  | panel p =>
    have hp := ho p rfl
    constructor
    · rintro ⟨conformed, h⟩ _ ⟨⟩
      obtain ⟨q, hq, -⟩ := map_ok (mapError_ok h)
      exact (Alignment.exists_conform_iff hr hp.symbols).mp ⟨q, hq⟩
    · intro h
      obtain ⟨q, hq⟩ := (Alignment.exists_conform_iff hr hp.symbols).mpr (h p rfl)
      exact ⟨panel q, by rw [Operand.conform, hq]; rfl⟩

/-- The cell of an operand on the index of a panel is the number that the operand gives there. -/
theorem gives_iff (hr : reference.Valid) (ho : ∀ p, operand = .panel p → p.Valid)
    (h : operand.conform a reference = .ok operand') (hd : reference.dates[row]? = some day)
    (hs : reference.symbolIndex? symbol = some col) :
    Gives a reference day symbol operand y ↔ y = operand'.cell row col := by
  cases operand with
  | scalar number =>
    cases h
    constructor
    · rintro ⟨⟩
      rfl
    · rintro rfl
      exact .scalar _
  | panel p =>
    obtain ⟨q, hq, rfl⟩ := map_ok (mapError_ok h)
    obtain ⟨hdates, hsymbols⟩ := Alignment.conform_ok hq
    obtain ⟨x, hx, hbrings⟩ := Alignment.get?_conform hr (ho p rfl).symbols hq
      (List.mem_of_getElem? hd) (List.mem_of_getElem? (getElem?_of_symbolIndex? hs))
    have hcell : q.get? day symbol = some (q.cell row col) :=
      get?_eq_cell (hdates ▸ nodup_of_increasing hr.dates) (hdates ▸ hd)
        (by rwa [symbolIndex?, hsymbols])
    obtain rfl := Option.some.inj (hx.symm.trans hcell)
    rw [Operand.cell, ← hbrings]
    constructor
    · rintro (_ | h)
      exact h
    · exact .panel

/-! ## All operands -/

variable {n : Nat} {values : Fin n → Value H} {operands : Fin n → Operand} {function : String}
  {f g : List Float → Float}

theorem cellwise_eq (h : ∀ i, Prepared a (values i) (operands i))
    (hr : longest? ((List.ofFn operands).filterMap panel?) = some reference) :
    cellwise a function (List.ofFn values) f =
      (List.ofFn operands).mapM (Operand.conform a reference) >>= fun conformed =>
        .ok (.panel (reference.remap fun row col => f (conformed.map (·.cell row col)))) := by
  rw [cellwise, mapM_ofFn fun i => (h i).ofValue function]
  simp only [hr, bind, Except.bind]
  rfl

theorem valid_of_prepared (h : ∀ i, Prepared a (values i) (operands i)) {i : Fin n}
    (hp : operands i = .panel p) : p.Valid := by
  have hi := h i
  rw [hp] at hi
  exact hi.valid

theorem Leads.valid (hl : Leads reference (List.ofFn operands))
    (h : ∀ i, Prepared a (values i) (operands i)) : reference.Valid := by
  obtain ⟨i, hi⟩ := List.mem_ofFn.mp hl.mem
  exact valid_of_prepared h hi

theorem exists_cellwise_iff (h : ∀ i, Prepared a (values i) (operands i))
    (hr : longest? ((List.ofFn operands).filterMap panel?) = some reference) :
    (∃ value, cellwise a function (List.ofFn values) f = .ok value) ↔
      ∀ i p, operands i = .panel p → a.Fits reference p := by
  have hvalid := (leads_of_longest? hr).valid h
  rw [cellwise_eq h hr, exists_bind_ok]
  simp only [Except.ok.injEq, exists_eq', and_true, mapM_ok_iff, List.mem_ofFn,
    forall_exists_index, forall_apply_eq_imp_iff]
  refine forall_congr' fun i => exists_conform_iff hvalid fun p hp => ?_
  exact valid_of_prepared h hp

/-- A result has in every cell the image of what the operands give there. -/
theorem get?_cellwise (h : ∀ i, Prepared a (values i) (operands i))
    (hr : longest? ((List.ofFn operands).filterMap panel?) = some reference)
    (hv : cellwise a function (List.ofFn values) f = .ok value) :
    ∃ q, value = .panel q ∧ q.IndexedAs reference ∧
      ∀ day ∈ reference.dates, ∀ symbol ∈ reference.symbols, ∃ xs : Fin n → Float,
        (∀ i y, Gives a reference day symbol (operands i) y ↔ y = xs i) ∧
          q.get? day symbol = some (f (List.ofFn xs)) := by
  have hvalid := (leads_of_longest? hr).valid h
  rw [cellwise_eq h hr] at hv
  obtain ⟨results, hresults, hv⟩ := bind_ok hv
  cases hv
  obtain ⟨conformed, rfl, hconformed⟩ := exists_of_mapM_ofFn hresults
  refine ⟨_, rfl, ⟨rfl, rfl⟩, fun day hd symbol hs => ?_⟩
  obtain ⟨row, col, hrow, hcol, -⟩ :=
    exists_get?_eq_cell (nodup_of_increasing hvalid.dates) hd hs
  refine ⟨fun i => (conformed i).cell row col, fun i y => ?_, ?_⟩
  · exact gives_iff hvalid (fun p hp => valid_of_prepared h hp) (hconformed i) hrow hcol
  · rw [get?_remap _ (nodup_of_increasing hvalid.dates) hrow hcol, List.map_ofFn]
    rfl

/-- Where all operands fit the first of the longest panels, any other one of the longest has its
dates and securities. -/
theorem Leads.same {operands' : List Operand} {reference' : Panel}
    (h : Leads reference' operands') (hr : panel reference ∈ operands')
    (hfits : a.Fits reference reference') : reference'.dates = reference.dates := by
  rcases hfits.dates with hd | ⟨hlt, -⟩
  · exact hd
  · exact absurd (h.rows_le hr) (Nat.not_le_of_lt hlt)

theorem mem_ofFn_comp (σ : Equiv.Perm (Fin n)) (h : operand ∈ List.ofFn operands) :
    operand ∈ List.ofFn (operands ∘ σ) := by
  obtain ⟨i, rfl⟩ := List.mem_ofFn.mp h
  exact List.mem_ofFn.mpr ⟨σ.symm i, by simp⟩

/-- Operands in another order lead to a panel with the same dates and securities. -/
theorem same_index_of_permuted (σ : Equiv.Perm (Fin n)) {reference' : Panel}
    (hl : Leads reference (List.ofFn operands)) (hl' : Leads reference' (List.ofFn (operands ∘ σ)))
    (hfits : ∀ i p, operands i = .panel p → a.Fits reference p) :
    reference'.dates = reference.dates ∧
      ∀ symbol, symbol ∈ reference'.symbols ↔ symbol ∈ reference.symbols := by
  obtain ⟨i, hi⟩ := List.mem_ofFn.mp hl'.mem
  have hf := hfits (σ i) reference' hi
  exact ⟨hl'.same (mem_ofFn_comp σ hl.mem) hf, hf.symbols⟩

theorem exists_cellwise_permuted (h : ∀ i, Prepared a (values i) (operands i))
    (hp : panel p ∈ List.ofFn operands) (σ : Equiv.Perm (Fin n))
    (hv : ∃ value, cellwise a function (List.ofFn values) f = .ok value) :
    ∃ value, cellwise a function (List.ofFn (values ∘ σ)) g = .ok value := by
  obtain ⟨reference, hr⟩ := exists_longest hp
  obtain ⟨reference', hr'⟩ := exists_longest (mem_ofFn_comp σ hp)
  have hfits := (exists_cellwise_iff h hr).mp hv
  obtain ⟨hd, hs⟩ :=
    same_index_of_permuted σ (leads_of_longest? hr) (leads_of_longest? hr') hfits
  exact (exists_cellwise_iff (fun i => h (σ i)) hr').mpr fun i p hi =>
    (hfits (σ i) p hi).congr hd hs

/-- Results that are computed from the same numbers read the same. -/
theorem readsAs_of_permuted (h : ∀ i, Prepared a (values i) (operands i))
    (hp : panel p ∈ List.ofFn operands) (σ : Equiv.Perm (Fin n))
    (hg : ∀ xs : Fin n → Float, g (List.ofFn (xs ∘ σ)) = f (List.ofFn xs)) {q q' : Panel}
    (hq : cellwise a function (List.ofFn values) f = .ok (.panel q))
    (hq' : cellwise a function (List.ofFn (values ∘ σ)) g = .ok (.panel q')) : q.ReadsAs q' := by
  obtain ⟨reference, hr⟩ := exists_longest hp
  obtain ⟨reference', hr'⟩ := exists_longest (mem_ofFn_comp σ hp)
  obtain ⟨hd, hs⟩ := same_index_of_permuted σ (leads_of_longest? hr) (leads_of_longest? hr')
    ((exists_cellwise_iff h hr).mp ⟨_, hq⟩)
  obtain ⟨_, ⟨⟩, hindex, hcells⟩ := get?_cellwise h hr hq
  obtain ⟨_, ⟨⟩, hindex', hcells'⟩ := get?_cellwise (fun i => h (σ i)) hr' hq'
  have hdates : q.dates = q'.dates := by rw [hindex.dates, hindex'.dates, hd]
  have hsymbols (symbol : String) : symbol ∈ q.symbols ↔ symbol ∈ q'.symbols := by
    rw [hindex.symbols, hindex'.symbols, hs]
  refine ⟨hdates, hsymbols, fun day symbol => ?_⟩
  by_cases hin : day ∈ q.dates ∧ symbol ∈ q.symbols
  · have hday : day ∈ reference.dates := hindex.dates ▸ hin.1
    have hsymbol : symbol ∈ reference.symbols := hindex.symbols ▸ hin.2
    obtain ⟨xs, hxs, hx⟩ := hcells day hday symbol hsymbol
    obtain ⟨ys, hys, hy⟩ := hcells' day (hd ▸ hday) symbol ((hs symbol).mpr hsymbol)
    have hpermuted : ys = xs ∘ σ := by
      funext i
      exact (hxs (σ i) (ys i)).mp (((hys i (ys i)).mpr rfl).congr hd.symm)
    rw [hx, hy, hpermuted, hg]
  · rw [get?_eq_none hin, get?_eq_none (by rwa [← hdates, ← hsymbols])]

end Operand

open Operand in
/-- **Cell-by-cell operations go by date and security.** Of operands that are
scalars or valid panels, prepared for the operation, the first of the longest
panels gives the index. There is a result just if every other panel has the same
securities and is on the same dates, or is shorter and has announcements; its cell
under a day and a security is the image of what each operand gives there. Operands
in another order, with the function taking them so, succeed alike, and the results
read the same. -/
theorem cellwise_byName {H : Type} {n : Nat} {a : Alignment} (function : String)
    {values : Fin n → Value H} {operands : Fin n → Operand}
    (h : ∀ i, Prepared a (values i) (operands i)) (hp : ∃ i p, operands i = .panel p)
    (f : List Float → Float) :
    ∃ reference, Leads reference (List.ofFn operands) ∧
      ((∃ value, cellwise a function (List.ofFn values) f = .ok value) ↔
        ∀ i p, operands i = .panel p → a.Fits reference p) ∧
      (∀ value, cellwise a function (List.ofFn values) f = .ok value →
        ∃ q, value = .panel q ∧ q.IndexedAs reference ∧
          ∀ day ∈ reference.dates, ∀ symbol ∈ reference.symbols, ∃ xs : Fin n → Float,
            (∀ i y, Gives a reference day symbol (operands i) y ↔ y = xs i) ∧
              q.get? day symbol = some (f (List.ofFn xs))) ∧
      ∀ (σ : Equiv.Perm (Fin n)) (g : List Float → Float),
        (∀ xs : Fin n → Float, g (List.ofFn (xs ∘ σ)) = f (List.ofFn xs)) →
          ((∃ value, cellwise a function (List.ofFn values) f = .ok value) ↔
            ∃ value, cellwise a function (List.ofFn (values ∘ σ)) g = .ok value) ∧
          ∀ q q', cellwise a function (List.ofFn values) f = .ok (.panel q) →
            cellwise a function (List.ofFn (values ∘ σ)) g = .ok (.panel q') →
              q.ReadsAs q' := by
  obtain ⟨i, p, hi⟩ := hp
  have hp : panel p ∈ List.ofFn operands := List.mem_ofFn.mpr ⟨i, hi⟩
  obtain ⟨reference, hr⟩ := exists_longest hp
  refine ⟨reference, leads_of_longest? hr, exists_cellwise_iff h hr,
    fun _ hv => get?_cellwise h hr hv, fun σ g hg => ⟨⟨?_, ?_⟩, fun q q' hq hq' => ?_⟩⟩
  · exact exists_cellwise_permuted h hp σ
  · have h' : ∀ i, Prepared a ((values ∘ σ) i) ((operands ∘ σ) i) := fun i => h (σ i)
    have back : (values ∘ σ) ∘ σ.symm = values := by
      funext i
      simp
    intro hv
    rw [← back]
    exact exists_cellwise_permuted h' (mem_ofFn_comp σ hp) σ.symm hv
  · exact readsAs_of_permuted h hp σ hg hq hq'

/-! ## A scalar and panels of two frequencies -/

namespace Quarterly

def monday : Date := { year := 2022, month := 5, day := 2 }

def tuesday : Date := { year := 2022, month := 5, day := 3 }

def price : Panel where
  dates := [monday, tuesday]
  symbols := ["A", "B"]
  values := #[8, 9, 6, 7]
  size_eq := rfl

/-- The same securities the other way round, reported once. -/
def earnings : Panel where
  dates := [{ year := 2022, month := 4, day := 29 }]
  symbols := ["B", "A"]
  values := #[3, 2]
  size_eq := rfl

def calendar : TradingCalendar where
  announcements := ⟨["A", "B"], [[some tuesday, none]]⟩
  tradeDates := [monday, tuesday]

def values : Fin 3 → Value Empty
  | 0 => .panel earnings
  | 1 => .scalar 10
  | 2 => .panel price

def operands : Fin 3 → Operand
  | 0 => .panel earnings
  | 1 => .scalar 10
  | 2 => .panel price

theorem prepared_operands : ∀ i, Operand.Prepared (.whenNeeded calendar) (values i) (operands i)
  | 0 => .panel ⟨by decide, by decide⟩ rfl
  | 1 => .scalar 10
  | 2 => .panel ⟨by decide, by decide⟩ rfl

def excess : List Float → Float
  | [earnings, factor, price] => earnings * factor - price
  | _ => Cell.missing

/-- The same of the panels the other way round. -/
def excess' : List Float → Float
  | [price, factor, earnings] => earnings * factor - price
  | _ => Cell.missing

end Quarterly

open Quarterly in
/-- With the panels swapped the result reads the same. -/
theorem cellwise_byName_quarterly : ∃ q q',
    cellwise (.whenNeeded calendar) "Excess" (List.ofFn values) excess = .ok (.panel q) ∧
      cellwise (.whenNeeded calendar) "Excess" (List.ofFn (values ∘ Equiv.swap 0 2)) excess' =
        .ok (.panel q') ∧
      q.get? tuesday "A" = some (2 * 10 - 6) ∧ q.ReadsAs q' := by
  obtain ⟨q, hq, hget⟩ : ∃ q,
      cellwise (.whenNeeded calendar) "Excess" (List.ofFn values) excess = .ok (.panel q) ∧
        q.get? tuesday "A" = some (2 * 10 - 6) := ⟨_, rfl, rfl⟩
  obtain ⟨q', hq'⟩ : ∃ q', cellwise (.whenNeeded calendar) "Excess"
      (List.ofFn (values ∘ Equiv.swap 0 2)) excess' = .ok (.panel q') := ⟨_, rfl⟩
  obtain ⟨reference, -, -, -, hpermuted⟩ :=
    cellwise_byName "Excess" prepared_operands ⟨2, price, rfl⟩ excess
  obtain ⟨-, hreads⟩ := hpermuted (Equiv.swap 0 2) excess' fun _ => rfl
  exact ⟨q, q', hq, hq', hget, hreads q q' hq hq'⟩

end PanelCalc
