import PanelCalc.Proofs.Panel.Names
import PanelCalc.Proofs.Storage.Alignments

/-! # Putting securities in order

A panel can be put in every order of its securities, and the result reads the
same. Looked at are only the number of the names and whether the panel has each
of them. So an order that repeats one security in place of another one goes
through as well, and what comes out is no valid panel. An order that is turned
down is so for a name that only one side has, if there is any. -/
namespace PanelCalc.Panel

variable {p q : Panel} {order symbols : List String} {symbol : String} {e : ShapeError}

/-! ## Names that do not match -/

/-- A name is in one of two lists only. -/
def OnOneSide (order symbols : List String) (symbol : String) : Prop :=
  symbol ∈ order ∧ symbol ∉ symbols ∨ symbol ∈ symbols ∧ symbol ∉ order

theorem find?_not_contains_eq_none :
    order.find? (!symbols.contains ·) = none ↔ ∀ symbol ∈ order, symbol ∈ symbols := by
  simp [List.find?_eq_none]

/-- The name that is reported is on one side only, or empty if both sides have the same ones. -/
theorem unshared_cases (order symbols : List String) :
    OnOneSide order symbols (unshared order symbols) ∨
      unshared order symbols = "" ∧ ∀ symbol, symbol ∈ order ↔ symbol ∈ symbols := by
  unfold unshared
  cases hf : order.find? (!symbols.contains ·) with
  | some symbol => exact .inl (.inl ⟨List.mem_of_find?_eq_some hf, by simpa using List.find?_some hf⟩)
  | none =>
    have hsub := find?_not_contains_eq_none.mp hf
    cases hb : symbols.find? (!order.contains ·) with
    | some symbol =>
      exact .inl (.inr ⟨List.mem_of_find?_eq_some hb, by simpa using List.find?_some hb⟩)
    | none =>
      have hsup := find?_not_contains_eq_none.mp hb
      exact .inr ⟨rfl, fun symbol => ⟨hsub symbol, hsup symbol⟩⟩

/-- The first name that the panel does not have ends the search. -/
theorem columnsOf_error (h : p.columnsOf order = .error e) :
    ∃ symbol, order.find? (!p.symbols.contains ·) = some symbol ∧ e = .securityMismatch symbol := by
  unfold columnsOf at h
  induction order with
  | nil => cases h
  | cons first order ih =>
    rw [List.mapM_cons] at h
    cases hi : p.symbolIndex? first with
    | none =>
      have hmissing : first ∉ p.symbols := List.idxOf?_eq_none_iff.mp hi
      rw [hi] at h
      cases h
      exact ⟨first, List.find?_cons_of_pos (by simpa using hmissing), rfl⟩
    | some col =>
      have hfound : first ∈ p.symbols := List.mem_of_getElem? (getElem?_of_symbolIndex? hi)
      rw [hi] at h
      obtain ⟨_, -, h⟩ := (bind_error h).resolve_left nofun
      obtain ⟨symbol, hs, he⟩ := ih ((bind_error h).resolve_right nofun)
      exact ⟨symbol, (List.find?_cons_of_neg (by simpa using hfound)).trans hs, he⟩

/-- All that can be wrong with an order is told as one name. -/
theorem reorder_error (h : p.reorder order = .error e) :
    e = .securityMismatch (unshared order p.symbols) := by
  unfold reorder at h
  split at h
  · cases h
    rfl
  · cases hc : p.columnsOf order with
    | ok columns =>
      rw [hc] at h
      cases h
    | error fault =>
      rw [hc] at h
      cases h
      obtain ⟨symbol, hs, rfl⟩ := columnsOf_error hc
      rw [unshared, hs]

/-! ## Orders that go through -/

/-- What goes through reads as before under every name of the order. -/
theorem get?_reorder (h : p.reorder order = .ok q) (date : Date) (hs : symbol ∈ order) :
    q.get? date symbol = p.get? date symbol := by
  obtain ⟨hd, hsymbols, hcell⟩ := reorder_ok h
  obtain ⟨col', hcol'⟩ := exists_symbolIndex? (p := q) (hsymbols ▸ hs)
  have hplace : order[col']? = some symbol := hsymbols ▸ getElem?_of_symbolIndex? hcol'
  have hc' : col' < q.cols := lt_cols_of_symbolIndex? hcol'
  have hrows : q.rows = p.rows := congrArg List.length hd
  have hdate : q.dateIndex? date = p.dateIndex? date := by rw [dateIndex?, dateIndex?, hd]
  rw [get?, get?, hdate]
  cases hrow : p.dateIndex? date with
  | none => rfl
  | some row =>
    have hr : row < p.rows := (List.idxOf?_eq_some_iff.mp hrow).1
    obtain ⟨col, hcol, hsame⟩ := hcell row col' symbol hr hplace
    have hc : col < p.cols := lt_cols_of_symbolIndex? hcol
    simp [valueAt?, hcol', hcol, hrows, hr, hc', hc, hsame]

theorem valid_reorder_iff (hp : p.Valid) (h : p.reorder order = .ok q) :
    q.Valid ↔ order.Perm p.symbols := by
  obtain ⟨hd, hs, -⟩ := reorder_ok h
  constructor
  · intro hq
    exact perm_of_reorder h (hs ▸ hq.symbols)
  · intro hperm
    exact ⟨hd ▸ hp.dates, hs ▸ hperm.nodup_iff.mpr hp.symbols⟩

theorem exists_reorder_iff : (∃ q, p.reorder order = .ok q) ↔ order.Perm p.symbols ∨
    order.length = p.cols ∧ (∀ symbol ∈ order, symbol ∈ p.symbols) ∧ ¬ order.Nodup := by
  constructor
  · rintro ⟨q, h⟩
    by_cases hn : order.Nodup
    · exact .inl (perm_of_reorder h hn)
    · obtain ⟨hl, hm⟩ := reorder_ok_iff.mp ⟨q, h⟩
      exact .inr ⟨hl, hm, hn⟩
  · rw [reorder_ok_iff]
    rintro (hperm | ⟨hl, hm, -⟩)
    · exact ⟨hperm.length_eq, fun symbol => hperm.mem_iff.mp⟩
    · exact ⟨hl, hm⟩

/-- Where both sides have the same names, an order is turned down for being too long. -/
theorem lt_length_of_reorder_error (hn : p.symbols.Nodup)
    (hsame : ∀ symbol, symbol ∈ order ↔ symbol ∈ p.symbols) (h : p.reorder order = .error e) :
    p.cols < order.length := by
  have hle : p.cols ≤ order.length :=
    (hn.subperm fun symbol hs => (hsame symbol).mpr hs).length_le
  refine lt_of_le_of_ne hle fun hl => ?_
  obtain ⟨q, hq⟩ := reorder_ok_iff.mpr ⟨hl.symm, fun symbol => (hsame symbol).mp⟩
  cases h.symm.trans hq

/-- **Every order of the securities goes through**, and the result is valid and
reads the same. So does an order of the right length that repeats one security
and leaves out another one: what comes out has a security twice, each column of
which reads as before. All other orders are turned down for a security that only
one side has, or for the empty name if there is none, in an order that repeats
securities and is too long. Nothing outside the buffer of cells is ever read. -/
theorem reorder_permutes (hp : p.Valid) (order : List String) :
    ((∃ q, p.reorder order = .ok q) ↔ order.Perm p.symbols ∨
      order.length = p.cols ∧ (∀ symbol ∈ order, symbol ∈ p.symbols) ∧ ¬ order.Nodup) ∧
    (∀ q, p.reorder order = .ok q →
      q.dates = p.dates ∧ q.symbols = order ∧ q.values.size = q.rows * q.cols ∧
      (∀ date, ∀ symbol ∈ order, q.get? date symbol = p.get? date symbol) ∧
      (q.Valid ↔ order.Perm p.symbols) ∧ (order.Perm p.symbols → p.ReadsAs q)) ∧
    (∀ e, p.reorder order = .error e → ∃ symbol, e = .securityMismatch symbol ∧
      (OnOneSide order p.symbols symbol ∨
        symbol = "" ∧ (∀ symbol, symbol ∈ order ↔ symbol ∈ p.symbols) ∧
          p.cols < order.length)) ∧
    Storage.reorder p order = Storage.lift (p.reorder order) := by
  refine ⟨exists_reorder_iff, fun q h => ?_, fun e h => ?_, Storage.reorder_eq p order⟩
  · obtain ⟨hd, hs, -⟩ := reorder_ok h
    refine ⟨hd, hs, q.size_eq, fun date symbol => get?_reorder h date, valid_reorder_iff hp h, ?_⟩
    intro hperm
    exact (Rearranged.of_reorder hp.symbols (hperm.nodup_iff.mpr hp.symbols) h).readsAs
  · refine ⟨_, reorder_error h, (unshared_cases order p.symbols).imp_right ?_⟩
    rintro ⟨hempty, hsame⟩
    exact ⟨hempty, hsame, lt_length_of_reorder_error hp.symbols hsame h⟩

/-- Two securities on one day. -/
def twoHoldings : Panel where
  dates := [{ year := 2021, month := 3, day := 1 }]
  symbols := ["A", "B"]
  values := #[1, 2]
  size_eq := rfl

/-- One of two securities twice makes a panel that is not valid; with the other one behind them
the order is turned down, for no name at all. -/
theorem reorder_permutes_repeated :
    (∃ q, twoHoldings.reorder ["A", "A"] = .ok q ∧ ¬ q.Valid) ∧
      twoHoldings.reorder ["A", "A", "B"] = .error (.securityMismatch "") := by
  have hvalid : twoHoldings.Valid := ⟨by decide, by decide⟩
  obtain ⟨hgoes, hresult, -⟩ := reorder_permutes hvalid ["A", "A"]
  obtain ⟨q, hq⟩ := hgoes.mpr (.inr ⟨rfl, by decide, by decide⟩)
  obtain ⟨-, -, -, -, hiff, -⟩ := hresult q hq
  exact ⟨⟨q, hq, fun h => absurd (hiff.mp h) (by decide)⟩, rfl⟩

end PanelCalc.Panel
