import Mathlib.Algebra.Order.Ring.Int
import Mathlib.Data.List.Induction
import Mathlib.Data.Prod.Lex
import PanelCalc.Proofs.Panel.Aligning
import PanelCalc.Proofs.Panel.Cells

/-! # The latest announced row

What a panel shows on a day is the row with the latest announcement up to then,
the last one of those announced together. Announcements stand in a line, by date
and then by row, so that there is no more than one such row; looking at all rows
finds it, and so does going through sorted announcements day by day. -/
namespace PanelCalc

namespace Announcements

variable {a : Announcements} {symbol : String} {day : Date} {column : List (Option Date)}
  {row : Nat} {date : Date}

/-- Where an announcement of a row stands: by its date, and on one date by the row. -/
def standing (announcement : Date × Nat) : ℤ ×ₗ ℕ :=
  toLex (announcement.1.ordinal, announcement.2)

theorem standing_le_iff {e e' : Date × Nat} : standing e ≤ standing e' ↔
    e.1.ordinal < e'.1.ordinal ∨ e.1.ordinal = e'.1.ordinal ∧ e.2 ≤ e'.2 :=
  Prod.Lex.toLex_le_toLex

theorem standing_injective {e e' : Date × Nat} (h : standing e = standing e') : e = e' := by
  obtain ⟨hdate, hrow⟩ := Prod.mk.inj (toLex.injective h)
  exact Prod.ext (Date.ordinal_injective hdate) hrow

/-- The row of a security is announced on the date, which is not after the day, and no other
announcement up to the day stands behind that one. -/
structure IsLatest (a : Announcements) (symbol : String) (day : Date) (date : Date) (row : Nat) :
    Prop where
  announced : a.announcedAt? row symbol = some date
  known : date ≤ day
  greatest : ∀ date' row', a.announcedAt? row' symbol = some date' → date' ≤ day →
    standing (date', row') ≤ standing (date, row)

theorem IsLatest.unique {date' : Date} {row' : Nat} (h : a.IsLatest symbol day date row)
    (h' : a.IsLatest symbol day date' row') : date' = date ∧ row' = row := by
  have below := h.greatest date' row' h'.announced h'.known
  have above := h'.greatest date row h.announced h.known
  exact Prod.mk.inj (standing_injective (below.antisymm above))

/-! ## Looking at all rows -/

/-- The last of some announcements among those up to a day, if there is any. -/
def Last (day : Date) (announcements : List (Date × Nat)) : Option (Date × Nat) → Prop
  | some last => last ∈ announcements ∧ last.1 ≤ day ∧
      ∀ e ∈ announcements, e.1 ≤ day → standing e ≤ standing last
  | none => ∀ e ∈ announcements, ¬ e.1 ≤ day

theorem Last.unique {announcements : List (Date × Nat)} {found found' : Option (Date × Nat)}
    (h : Last day announcements found) (h' : Last day announcements found') : found = found' := by
  cases found with
  | none =>
    cases found' with
    | none => rfl
    | some last' => exact absurd h'.2.1 (h last' h'.1)
  | some last =>
    cases found' with
    | none => exact absurd h.2.1 (h' last h.1)
    | some last' =>
      have below := h.2.2 last' h'.1 h'.2.1
      have above := h'.2.2 last h.1 h.2.1
      exact congrArg some (standing_injective (above.antisymm below))

/-- The announcements of a column, with their rows. -/
def announcements (column : List (Option Date)) : List (Date × Nat) :=
  column.zipIdx.filterMap fun (announced, row) => announced.map (·, row)

theorem mem_announcements : (date, row) ∈ announcements column ↔
    column[row]? = some (some date) := by
  simp only [announcements, List.mem_filterMap, Prod.exists, Option.map_eq_some_iff,
    Prod.mk.injEq, List.mem_zipIdx_iff_getElem?]
  constructor
  · rintro ⟨_, _, h, _, rfl, rfl, rfl⟩
    exact h
  · intro h
    exact ⟨some date, row, h, date, rfl, rfl, rfl⟩

/-- One more row, behind all others, supersedes the last one where it stands behind it. -/
theorem Last.supersede {announcements : List (Date × Nat)} {known : Option (Date × Nat)}
    (h : Last day announcements known) (behind : ∀ e ∈ announcements, e.2 ≤ row) :
    Last day (announcements ++ [(date, row)]) (supersede day known (some date) row) := by
  have le_iff (d : Date) : d ≤ day ↔ d.ordinal ≤ day.ordinal := Iff.rfl
  cases known with
  | none =>
    simp only [Announcements.supersede]
    split
    · rename_i hle
      refine ⟨by simp, hle, fun e he hday => ?_⟩
      rcases List.mem_append.mp he with he | he
      · exact absurd hday (h e he)
      · rw [List.mem_singleton.mp he]
    · rename_i hgt
      intro e he
      rcases List.mem_append.mp he with he | he
      · exact h e he
      · rwa [List.mem_singleton.mp he]
  | some last =>
    obtain ⟨hmem, hknown, hgreatest⟩ := h
    simp only [Announcements.supersede]
    split
    · rename_i hle
      have hlast : standing last ≤ standing (date, row) := by
        have hrow := behind last hmem
        have hdate : last.1.ordinal ≤ date.ordinal := hle.2
        rw [standing_le_iff]
        simp only
        omega
      refine ⟨by simp, hle.1, fun e he hday => ?_⟩
      rcases List.mem_append.mp he with he | he
      · exact (hgreatest e he hday).trans hlast
      · rw [List.mem_singleton.mp he]
    · rename_i hlt
      refine ⟨List.mem_append_left _ hmem, hknown, fun e he hday => ?_⟩
      rcases List.mem_append.mp he with he | he
      · exact hgreatest e he hday
      · have hdate : ¬ last.1.ordinal ≤ date.ordinal := fun hle =>
          hlt ⟨by simpa [List.mem_singleton.mp he] using hday, hle⟩
        rw [List.mem_singleton.mp he, standing_le_iff]
        simp only
        omega

theorem announcements_concat (column : List (Option Date)) (announced : Option Date) :
    announcements (column ++ [announced]) =
      announcements column ++ (announced.map (·, column.length)).toList := by
  cases announced <;> simp [announcements, List.zipIdx_append]

/-- The row that shows is that of the last announcement up to the day. -/
theorem exists_last (column : List (Option Date)) (day : Date) :
    ∃ last, Last day (announcements column) last ∧ latestRow? column day = last.map (·.2) := by
  refine ⟨_, ?_, rfl⟩
  induction column using List.reverseRecOn with
  | nil => exact fun e he => absurd he (List.not_mem_nil)
  | append_singleton column announced ih =>
    rw [List.zipIdx_append, List.foldl_append, announcements_concat]
    cases announced with
    | none => simpa [Announcements.supersede] using ih
    | some date =>
      have behind : ∀ e ∈ announcements column, e.2 ≤ column.length := by
        intro e he
        exact (List.getElem?_eq_some_iff.mp (mem_announcements.mp he)).1.le
      simpa using ih.supersede behind

theorem announcedAt?_iff (hc : a.column? symbol = some column) :
    a.announcedAt? row symbol = some date ↔ column[row]? = some (some date) := by
  refine ⟨fun h => ?_, announcedAt?_of_column? hc⟩
  obtain ⟨col, hcol, rfl⟩ := Option.map_eq_some_iff.mp hc
  simp only [announcedAt?, hcol, Option.bind_eq_bind, Option.bind_some] at h
  obtain ⟨dates, hdates, h⟩ := Option.bind_eq_some_iff.mp h
  obtain ⟨announced, hannounced, rfl⟩ := Option.bind_eq_some_iff.mp h
  rw [List.getElem?_map, hdates, Option.map_some, List.getD_eq_getElem?_getD, hannounced,
    Option.getD_some]

theorem last_iff (hc : a.column? symbol = some column) :
    Last day (announcements column) (some (date, row)) ↔ a.IsLatest symbol day date row := by
  constructor
  · intro h
    refine ⟨(announcedAt?_iff hc).mpr (mem_announcements.mp h.1), h.2.1, fun date' row' h' => ?_⟩
    exact h.2.2 (date', row') (mem_announcements.mpr ((announcedAt?_iff hc).mp h'))
  · intro h
    refine ⟨mem_announcements.mpr ((announcedAt?_iff hc).mp h.announced), h.known, fun e he => ?_⟩
    exact h.greatest e.1 e.2 ((announcedAt?_iff hc).mpr (mem_announcements.mp he))

/-- **The row that shows on a day** is the latest one of its security. -/
theorem latestRow?_eq_some (hc : a.column? symbol = some column) :
    latestRow? column day = some row ↔ ∃ date, a.IsLatest symbol day date row := by
  obtain ⟨last, hlast, hrow⟩ := exists_last column day
  rw [hrow, Option.map_eq_some_iff]
  constructor
  · rintro ⟨⟨date, _⟩, rfl, rfl⟩
    exact ⟨date, (last_iff hc).mp hlast⟩
  · rintro ⟨date, h⟩
    exact ⟨(date, row), hlast.unique ((last_iff hc).mpr h), rfl⟩

/-- No row shows where none has been announced by the day. -/
theorem latestRow?_eq_none (hc : a.column? symbol = some column) :
    latestRow? column day = none ↔
      ∀ date row, a.announcedAt? row symbol = some date → ¬ date ≤ day := by
  obtain ⟨last, hlast, hrow⟩ := exists_last column day
  rw [hrow, Option.map_eq_none_iff]
  constructor
  · rintro rfl date row h
    exact hlast (date, row) (mem_announcements.mpr ((announcedAt?_iff hc).mp h))
  · intro h
    have hnone : Last day (announcements column) none := fun e he =>
      h e.1 e.2 ((announcedAt?_iff hc).mpr (mem_announcements.mp he))
    exact hlast.unique hnone

/-! ## Going through the announcements day by day -/

/-- Takes the announcements up to a day; the row taken last shows. -/
def advance (day : Date) : Option Nat → List (Date × Nat) → Option Nat × List (Date × Nat)
  | shown, [] => (shown, [])
  | shown, (date, row) :: later =>
    if date ≤ day then advance day (some row) later else (shown, (date, row) :: later)

/-- The rows that show on some days, in one pass through the announcements. -/
def sweep : Option Nat → List (Date × Nat) → List Date → List (Option Nat)
  | _, _, [] => []
  | shown, later, day :: days =>
    let (shown, later) := advance day shown later
    shown :: sweep shown later days

/-- The announcements of a column, sorted. -/
def sorted (column : List (Option Date)) : List (Date × Nat) :=
  (announcements column).mergeSort fun e e' => standing e ≤ standing e'

theorem pairwise_sorted (column : List (Option Date)) :
    (sorted column).Pairwise fun e e' => standing e ≤ standing e' := by
  refine (List.pairwise_mergeSort ?_ ?_ _).imp fun h => of_decide_eq_true h
  · intro e e' e'' h h'
    exact decide_eq_true ((of_decide_eq_true h).trans (of_decide_eq_true h'))
  · intro e e'
    simpa using le_total (standing e) (standing e')

theorem Last.sorted {found : Option (Date × Nat)} (h : Last day (sorted column) found) :
    Last day (announcements column) found := by
  have hmem (e : Date × Nat) : e ∈ Announcements.sorted column ↔ e ∈ announcements column :=
    List.mem_mergeSort
  cases found with
  | none => exact fun e he => h e ((hmem e).mpr he)
  | some last => exact ⟨(hmem last).mp h.1, h.2.1, fun e he => h.2.2 e ((hmem e).mpr he)⟩

/-- Advancing to a day divides sorted announcements into those up to it and those after it. -/
theorem advance_spec {past later : List (Date × Nat)}
    (hs : (past ++ later).Pairwise fun e e' => standing e ≤ standing e')
    (hp : ∀ e ∈ past, e.1 ≤ day) :
    ∃ past' later', advance day (past.getLast?.map (·.2)) later =
        (past'.getLast?.map (·.2), later') ∧ past' ++ later' = past ++ later ∧
      (∀ e ∈ past', e.1 ≤ day) ∧ ∀ e ∈ later', ¬ e.1 ≤ day := by
  induction later generalizing past with
  | nil => exact ⟨past, [], rfl, rfl, hp, fun e he => absurd he List.not_mem_nil⟩
  | cons next later ih =>
    obtain ⟨date, row⟩ := next
    rw [advance]
    split
    · rename_i hle
      have hp' : ∀ e ∈ past ++ [(date, row)], e.1 ≤ day := by
        intro e he
        rcases List.mem_append.mp he with he | he
        · exact hp e he
        · rwa [List.mem_singleton.mp he]
      obtain ⟨past', later', hadvance, happend, h⟩ := ih (by simpa using hs) hp'
      rw [List.getLast?_concat] at hadvance
      exact ⟨past', later', hadvance, by simpa using happend, h⟩
    · rename_i hgt
      refine ⟨past, _, rfl, rfl, hp, fun e he hle => hgt ?_⟩
      rcases List.mem_cons.mp he with rfl | he
      · exact hle
      · have hstand := List.rel_of_pairwise_cons (List.pairwise_append.mp hs).2.1 he
        have hday : e.1.ordinal ≤ day.ordinal := hle
        rw [standing_le_iff] at hstand
        simp only at hstand
        show date.ordinal ≤ day.ordinal
        omega

/-- The last one of those up to a day, where announcements are sorted. -/
theorem last_getLast? {past later : List (Date × Nat)}
    (hs : (past ++ later).Pairwise fun e e' => standing e ≤ standing e')
    (hp : ∀ e ∈ past, e.1 ≤ day) (hl : ∀ e ∈ later, ¬ e.1 ≤ day) :
    Last day (past ++ later) past.getLast? := by
  have split {e : Date × Nat} (he : e ∈ past ++ later) (hle : e.1 ≤ day) : e ∈ past :=
    (List.mem_append.mp he).resolve_right fun hlater => hl e hlater hle
  rcases List.eq_nil_or_concat' past with rfl | ⟨before, last, rfl⟩
  · exact fun e he => hl e he
  · rw [List.getLast?_concat]
    refine ⟨by simp, hp last (by simp), fun e he hle => ?_⟩
    rcases List.mem_append.mp (split he hle) with hbefore | hlast
    · have hpast := (List.pairwise_append.mp (List.pairwise_append.mp hs).1).2.2
      exact hpast e hbefore last (List.mem_singleton_self last)
    · rw [List.mem_singleton.mp hlast]

theorem sweep_eq {past later : List (Date × Nat)} {days : List Date}
    (h : past ++ later = sorted column) (hd : days.Pairwise (· < ·))
    (hp : ∀ day ∈ days, ∀ e ∈ past, e.1 ≤ day) :
    sweep (past.getLast?.map (·.2)) later days = days.map (latestRow? column) := by
  induction days generalizing past later with
  | nil => rfl
  | cons day days ih =>
    obtain ⟨hday, hdays⟩ := List.pairwise_cons.mp hd
    have hs := h ▸ pairwise_sorted column
    obtain ⟨past', later', hadvance, happend, hp', hl'⟩ := advance_spec hs (hp day (.head _))
    rw [h] at happend
    obtain ⟨last, hlast, hrow⟩ := exists_last column day
    have hfound : Last day (announcements column) past'.getLast? := by
      refine Last.sorted ?_
      rw [← happend]
      exact last_getLast? (happend ▸ pairwise_sorted column) hp' hl'
    -- those up to this day are up to the days that follow
    have hnext : ∀ later ∈ days, ∀ e ∈ past', e.1 ≤ later :=
      fun later hm e he => Int.le_trans (hp' e he) (Int.le_of_lt (hday later hm))
    rw [sweep, hadvance, List.map_cons, hrow, hlast.unique hfound]
    exact congrArg _ (ih happend hdays hnext)

/-- **One pass through sorted announcements** shows on increasing days what looking at all rows
shows on each of them. -/
theorem sweep_sorted {days : List Date} (hd : days.Pairwise (· < ·)) :
    sweep none (sorted column) days = days.map (latestRow? column) :=
  sweep_eq (List.nil_append _) hd fun _ _ _ he => absurd he List.not_mem_nil

end Announcements

end PanelCalc
