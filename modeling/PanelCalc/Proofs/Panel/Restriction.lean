import PanelCalc.Proofs.Panel.Names

/-! # Some of the securities of a panel

A panel restricted to some securities keeps their columns in their order. Cells
are read, aligned and reordered by the names of securities, so that it makes no
difference whether this is done before or after the others are dropped. -/
namespace PanelCalc.Panel

variable {p q p' q' : Panel} {keep : String → Bool}

/-- The securities to keep and their columns. -/
def keptColumns (keep : String → Bool) (p : Panel) : List (String × Nat) :=
  p.symbols.zipIdx.filter fun entry => keep entry.1

/-- The columns of the securities to keep, in their order. -/
def restrict (keep : String → Bool) (p : Panel) : Panel :=
  tabulate p.dates ((p.keptColumns keep).map (·.1)) fun row col =>
    p.cell row (((p.keptColumns keep)[col]?.map (·.2)).getD 0)

theorem symbols_restrict (keep : String → Bool) (p : Panel) :
    (p.restrict keep).symbols = p.symbols.filter keep := by
  have h : (p.symbols.zipIdx.map (·.1)).filter keep = (p.keptColumns keep).map (·.1) :=
    List.filter_map
  rw [List.zipIdx_map_fst] at h
  exact h.symm

/-- A panel and what it is restricted to. -/
structure Restricted (keep : String → Bool) (p q : Panel) : Prop where
  coincide : p.Coincide q
  symbols : q.symbols = p.symbols.filter keep
  nodup : p.symbols.Nodup

theorem restricted_restrict (keep : String → Bool) (hn : p.symbols.Nodup) :
    p.Restricted keep (p.restrict keep) := by
  refine ⟨Coincide.of_cells rfl ?_, symbols_restrict keep p, hn⟩
  intro row col col' symbol hr hs hs'
  have hkept : ((p.keptColumns keep).map (·.1))[col']? = some symbol := hs'
  have hcell := cell_tabulate (fun row col =>
    p.cell row (((p.keptColumns keep)[col]?.map (·.2)).getD 0)) hr (lt_cols hs')
  rw [List.getElem?_map] at hkept
  obtain ⟨⟨_, found⟩, hentry, rfl⟩ := Option.map_eq_some_iff.mp hkept
  have hfound : p.symbols[found]? = some _ :=
    List.mem_zipIdx_iff_getElem?.mp (List.mem_filter.mp (List.mem_of_getElem? hentry)).1
  rw [hentry] at hcell
  rw [col_unique hn hs hfound]
  exact hcell.symm

namespace Restricted

theorem dates (h : p.Restricted keep q) : p.dates = q.dates := h.coincide.dates

theorem mem_symbols (h : p.Restricted keep q) {symbol : String} (hs : symbol ∈ q.symbols) :
    symbol ∈ p.symbols := by
  rw [h.symbols] at hs
  exact (List.mem_filter.mp hs).1

/-- Nothing else is kept of a panel. -/
theorem eq_restrict (h : p.Restricted keep q) : q = p.restrict keep := by
  have h' := restricted_restrict keep h.nodup
  have hs : q.symbols = (p.restrict keep).symbols := h.symbols.trans h'.symbols.symm
  refine ext_cell (h.dates.symm.trans h'.dates) hs fun row _ col hc => ?_
  have hcol : q.symbols[col]? = some q.symbols[col] := List.getElem?_eq_getElem hc
  obtain ⟨col', hcol'⟩ := List.getElem?_of_mem (h.mem_symbols (List.mem_of_getElem? hcol))
  rw [← h.coincide.cells hcol' hcol]
  exact h'.coincide.cells hcol' (by rw [← hs, hcol])

theorem remap (h : p.Restricted keep q) {f g : Nat → Nat → Float}
    (hf : ∀ row col col' symbol, row < p.rows → p.symbols[col]? = some symbol →
      q.symbols[col']? = some symbol → f row col = g row col') :
    (p.remap f).Restricted keep (q.remap g) :=
  ⟨h.coincide.remap hf, h.symbols, h.nodup⟩

theorem mapColumns (h : p.Restricted keep q) {f g : Nat → List Float → List Float}
    (hf : ∀ col col' symbol, p.symbols[col]? = some symbol → q.symbols[col']? = some symbol →
      f col (p.colCells col) = g col' (q.colCells col')) :
    (p.mapColumns f).Restricted keep (q.mapColumns g) :=
  ⟨h.coincide.mapColumns hf, h.symbols, h.nodup⟩

/-- Fewer securities need fewer announcements. -/
theorem align (h : p.Restricted keep q) (announcements : Announcements) (days : List Date) :
    Follows False (Restricted keep) (p.align announcements days) (q.align announcements days) := by
  refine .of_lenient fun x hx => ?_
  obtain ⟨hd, hr, hc⟩ := align_ok_iff.mp ⟨x, hx⟩
  obtain ⟨y, hy⟩ : ∃ y, q.align announcements days = .ok y := by
    refine align_ok_iff.mpr ⟨hd, h.coincide.rows ▸ hr, fun symbol hs => ?_⟩
    exact hc symbol (h.mem_symbols hs)
  obtain ⟨-, -, hxs, -⟩ := align_ok hx
  obtain ⟨-, -, hys, -⟩ := align_ok hy
  exact ⟨y, hy, h.coincide.align hx hy, hys ▸ hxs ▸ h.symbols, hxs ▸ h.nodup⟩

/-- The securities that are kept come in the order that all are put in. -/
theorem inOrder (h : p.Restricted keep q) {order : List String} (hn : order.Nodup) :
    Follows False (Restricted keep) (Alignment.inOrder order p)
      (Alignment.inOrder (order.filter keep) q) := by
  refine .of_lenient fun x hx => ?_
  obtain ⟨hpx, rfl⟩ := Rearranged.of_inOrder h.nodup hn hx
  have hq : q.symbols.Nodup := h.symbols ▸ h.nodup.filter keep
  have hperm : (x.symbols.filter keep).Perm q.symbols := h.symbols ▸ hpx.symbols.symm.filter keep
  obtain ⟨y, hy⟩ := Rearranged.exists_inOrder hperm
  obtain ⟨hqy, hys⟩ := Rearranged.of_inOrder hq (hn.filter keep) hy
  refine ⟨y, hy, ?_, hys, hn⟩
  have hxq : x.Coincide q :=
    hpx.symm.coincide.trans h.coincide fun _ hs _ => hpx.symbols.mem_iff.mpr hs
  exact hxq.trans hqy.coincide fun _ _ hs => hqy.symbols.mem_iff.mpr hs

end Restricted

end PanelCalc.Panel
