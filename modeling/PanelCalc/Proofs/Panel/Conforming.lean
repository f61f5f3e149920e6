import PanelCalc.Proofs.Panel.Names
import PanelCalc.Proofs.Panel.Observations

/-! # What conforms to a panel

A panel is brought onto the index of another one if it has the same securities,
in whatever order, and is on the same dates, or has fewer rows and there are
announcements of them. Under a day and a security it then has its own cell or
the one that it shows on the day. -/
namespace PanelCalc

open Panel

namespace Alignment

variable {a : Alignment} {p q reference : Panel} {day : Date} {symbol : String}

/-- There are announcements of all rows and securities of a panel. -/
def Announces (a : Alignment) (p : Panel) : Prop :=
  ∃ calendar, a.calendar? = some calendar ∧ p.rows = calendar.announcements.rows.length ∧
    ∀ symbol ∈ p.symbols, symbol ∈ calendar.announcements.symbols

/-- A panel that can be brought onto the index of another one. -/
structure Fits (a : Alignment) (reference p : Panel) : Prop where
  symbols : ∀ symbol, symbol ∈ p.symbols ↔ symbol ∈ reference.symbols
  dates : p.dates = reference.dates ∨ p.rows < reference.rows ∧ a.Announces p

/-- The cell that a panel brings to a day and a security of another one. -/
inductive Brings (a : Alignment) (reference p : Panel) (day : Date) (symbol : String) :
    Float → Prop
  /-- Its own cell, on the same dates. -/
  | own {x : Float} : p.dates = reference.dates → p.get? day symbol = some x →
    Brings a reference p day symbol x
  /-- The cell that a panel with fewer rows shows on the day. -/
  | latest {calendar : TradingCalendar} {x : Float} : p.rows < reference.rows → a.calendar? = some calendar →
    p.Shows calendar.announcements day symbol x → Brings a reference p day symbol x

/-- Of another panel only the dates and the set of securities matter. -/
theorem Fits.congr {other : Panel} (h : a.Fits reference p) (hd : other.dates = reference.dates)
    (hs : ∀ symbol, symbol ∈ other.symbols ↔ symbol ∈ reference.symbols) : a.Fits other p where
  symbols symbol := (h.symbols symbol).trans (hs symbol).symm
  dates := by
    have hrows : other.rows = reference.rows := congrArg List.length hd
    rw [hd, hrows]
    exact h.dates

theorem Brings.congr {other : Panel} {x : Float} (h : a.Brings reference p day symbol x)
    (hd : other.dates = reference.dates) : a.Brings other p day symbol x := by
  cases h with
  | own hp hx => exact .own (hp.trans hd.symm) hx
  | latest hlt hc hx =>
    have hrows : other.rows = reference.rows := congrArg List.length hd
    exact .latest (hrows ▸ hlt) hc hx

/-- What bringing a panel onto the dates of another one can do: nothing, or align it. -/
theorem conformDates_eq_ok : a.conformDates reference p = .ok q ↔
    p.dates = reference.dates ∧ q = p ∨ p.rows < reference.rows ∧
      ∃ calendar, a.calendar? = some calendar ∧
        p.align calendar.announcements reference.dates = .ok q := by
  constructor
  · intro h
    unfold conformDates at h
    split at h
    · split at h
      · cases h
      · rename_i hrows _ hsame
        cases h
        exact .inl ⟨eq_of_firstDifference? hrows hsame, rfl⟩
    · split at h
      · cases h
      · split at h
        · cases h
        · rename_i calendar hc _
          exact .inr ⟨by omega, calendar, hc, h⟩
  · rintro (⟨hd, rfl⟩ | ⟨hlt, calendar, hc, h⟩)
    · exact conformDates_self hd
    · rw [conformDates, if_neg hlt.ne, hc]
      exact (if_neg (by omega)).trans h

theorem exists_conformDates_iff (hr : reference.Valid) :
    (∃ q, a.conformDates reference p = .ok q) ↔
      p.dates = reference.dates ∨ p.rows < reference.rows ∧ a.Announces p := by
  simp only [conformDates_eq_ok]
  constructor
  · rintro ⟨q, ⟨hd, -⟩ | ⟨hlt, calendar, hc, h⟩⟩
    · exact .inl hd
    · exact .inr ⟨hlt, calendar, hc, (exists_align_iff.mp ⟨q, h⟩).2⟩
  · rintro (hd | ⟨hlt, calendar, hc, h⟩)
    · exact ⟨p, .inl ⟨hd, rfl⟩⟩
    · obtain ⟨q, hq⟩ := exists_align_iff.mpr ⟨hr.dates, h⟩
      exact ⟨q, .inr ⟨hlt, calendar, hc, hq⟩⟩

/-- On other dates a panel has its securities as before. -/
theorem symbols_conformDates (h : a.conformDates reference p = .ok q) : q.symbols = p.symbols := by
  rcases conformDates_eq_ok.mp h with ⟨-, rfl⟩ | ⟨-, _, -, h⟩
  · rfl
  · exact (align_ok h).2.2.1

/-- Different securities can be put into an order of the same ones. -/
theorem exists_inOrder_iff {order : List String} (hn : p.symbols.Nodup) (ho : order.Nodup) :
    (∃ q, inOrder order p = .ok q) ↔ ∀ symbol, symbol ∈ p.symbols ↔ symbol ∈ order := by
  constructor
  · rintro ⟨q, h⟩ symbol
    obtain ⟨hq, rfl⟩ := Rearranged.of_inOrder hn ho h
    exact hq.symbols.mem_iff
  · intro h
    exact Rearranged.exists_inOrder ((List.perm_ext_iff_of_nodup ho hn).mpr fun s => (h s).symm)

/-- **A panel conforms to another one** just if it fits. -/
theorem exists_conform_iff (hr : reference.Valid) (hp : p.symbols.Nodup) :
    (∃ q, a.conform reference p = .ok q) ↔ a.Fits reference p := by
  rw [conform_eq, exists_bind_ok]
  constructor
  · rintro ⟨q, hq, hordered⟩
    have hs := symbols_conformDates hq
    refine ⟨?_, (exists_conformDates_iff hr).mp ⟨q, hq⟩⟩
    rw [← hs]
    exact (exists_inOrder_iff (hs ▸ hp) hr.symbols).mp hordered
  · intro h
    obtain ⟨q, hq⟩ := (exists_conformDates_iff hr).mpr h.dates
    have hs := symbols_conformDates hq
    exact ⟨q, hq, (exists_inOrder_iff (hs ▸ hp) hr.symbols).mpr (hs ▸ h.symbols)⟩

/-- On the dates of another panel there is the cell that is brought there. -/
theorem get?_conformDates (hr : reference.Valid) (h : a.conformDates reference p = .ok q)
    (hd : day ∈ reference.dates) (hs : symbol ∈ p.symbols) :
    ∃ x, q.get? day symbol = some x ∧ ∀ y, a.Brings reference p day symbol y ↔ y = x := by
  rcases conformDates_eq_ok.mp h with ⟨hdates, rfl⟩ | ⟨hlt, calendar, hc, halign⟩
  · obtain ⟨row, col, -, -, hget⟩ :=
      exists_get?_eq_cell (hdates ▸ nodup_of_increasing hr.dates) (hdates ▸ hd) hs
    refine ⟨_, hget, fun y => ⟨fun hy => ?_, ?_⟩⟩
    · cases hy with
      | own _ hy => exact Option.some.inj (hy.symm.trans hget)
      | latest hlt => exact absurd (congrArg List.length hdates) hlt.ne
    · rintro rfl
      exact .own hdates hget
  · obtain ⟨x, hx, hshows⟩ := get?_align halign hd hs
    refine ⟨x, hx, fun y => ⟨fun hy => ?_, fun hy => ?_⟩⟩
    · cases hy with
      | own hdates => exact absurd (congrArg List.length hdates) hlt.ne
      | latest _ hc' hy =>
        cases hc.symm.trans hc'
        exact (hshows y).mp hy
    · exact .latest hlt hc ((hshows y).mpr hy)

/-- **What conforms to a panel** has under every day and security the one cell that is brought
there. -/
theorem get?_conform (hr : reference.Valid) (hp : p.symbols.Nodup)
    (h : a.conform reference p = .ok q) (hd : day ∈ reference.dates)
    (hs : symbol ∈ reference.symbols) :
    ∃ x, q.get? day symbol = some x ∧ ∀ y, a.Brings reference p day symbol y ↔ y = x := by
  have hfits := (exists_conform_iff hr hp).mp ⟨q, h⟩
  rw [conform_eq] at h
  obtain ⟨onDates, honDates, hordered⟩ := bind_ok h
  have hsymbols := symbols_conformDates honDates
  obtain ⟨hq, -⟩ := Rearranged.of_inOrder (hsymbols ▸ hp) hr.symbols hordered
  rw [← hq.readsAs.get?]
  exact get?_conformDates hr honDates hd ((hfits.symbols symbol).mpr hs)

end Alignment

end PanelCalc
