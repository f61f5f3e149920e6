import PanelCalc.Proofs.Double.Values
import PanelCalc.Proofs.Storage.Rows

/-! # Ranks run by run

Equal cells stand side by side once a row is sorted, so that one scan gives each
run of them the average of its places. Ranks within groups are put together from
one such scan for each group value that has not been seen before: a group fills
gaps only, and finds one wherever its cells are. -/
namespace PanelCalc.Storage

open Ranking Double

variable {ε : Type} {cells groups : List Float}

/-! ## Runs of equal cells -/

/-- The ranks of sorted cells behind some others: the cells of a run share the average of the
places from the first to the last of them. -/
def runs (before : Nat) : List (Float × Nat) → List (Nat × Float)
  | [] => []
  | cell :: rest =>
    let ties := rest.takeWhile (·.1 == cell.1)
    let last := before + 1 + ties.length
    (cell :: ties).map (fun tie => (tie.2, Float.ofNat (before + 1 + last) * 0.5)) ++
      runs last (rest.drop ties.length)
termination_by rest => rest.length
decreasing_by
  rw [List.length_drop, List.length_cons]
  omega

section Runs

variable {front rest : List (Float × Nat)} {cell tie : Float × Nat}

/-- Cells in increasing order, none of them missing. -/
structure InOrder (sorted : List (Float × Nat)) : Prop where
  pairwise : sorted.Pairwise fun a b => place a.1 ≤ place b.1
  known : ∀ a ∈ sorted, ¬ a.1.isNaN

/-- The cells equal to the first one stand next to it. -/
theorem InOrder.ties (h : InOrder (cell :: rest)) :
    rest.Pairwise fun a b => b.1 == cell.1 → a.1 == cell.1 := by
  obtain ⟨hcell, hrest⟩ := List.pairwise_cons.mp h.pairwise
  have hn := h.known cell (.head _)
  refine hrest.imp_of_mem fun {a b} ha hb hab => ?_
  rw [beq_iff_place (h.known a (.tail _ ha)) hn, beq_iff_place (h.known b (.tail _ hb)) hn]
  exact fun he => le_antisymm (he ▸ hab) (hcell a ha)

/-- What is known of a cell that equals the first one behind some lesser cells. -/
structure InRun (front : List (Float × Nat)) (cell : Float × Nat) (rest : List (Float × Nat))
    (tie : Float × Nat) : Prop where
  inOrder : InOrder (front ++ cell :: rest)
  front_lt : ∀ a ∈ front, a.1 < cell.1
  mem : tie ∈ cell :: rest
  equal : (tie.1 == cell.1) = true

namespace InRun

theorem known (h : InRun front cell rest tie) : ¬ tie.1.isNaN ∧ ¬ cell.1.isNaN :=
  not_isNaN_of_beq h.equal

theorem place_eq (h : InRun front cell rest tie) : place tie.1 = place cell.1 :=
  (beq_iff_place h.known.1 h.known.2).mp h.equal

/-- The cells in front, and no others, are less. -/
theorem countP_lt (h : InRun front cell rest tie) :
    (front ++ cell :: rest).countP (fun a => decide (a.1 < tie.1)) = front.length := by
  obtain ⟨hn, hc⟩ := h.known
  have hall : front.countP (fun a => decide (a.1 < tie.1)) = front.length := by
    refine List.countP_eq_length.mpr fun a ha => decide_eq_true ?_
    have hna := h.inOrder.known a (List.mem_append_left _ ha)
    rw [lt_iff_place hna hn, h.place_eq, ← lt_iff_place hna hc]
    exact h.front_lt a ha
  have hbehind : ∀ a ∈ cell :: rest, place cell.1 ≤ place a.1 := by
    intro a ha
    rcases List.mem_cons.mp ha with rfl | ha
    · exact le_rfl
    · exact (List.pairwise_cons.mp (List.pairwise_append.mp h.inOrder.pairwise).2.1).1 a ha
  have hnone : (cell :: rest).countP (fun a => decide (a.1 < tie.1)) = 0 := by
    refine List.countP_eq_zero.mpr fun a ha => ?_
    have hna := h.inOrder.known a (List.mem_append_right _ ha)
    rw [decide_eq_true_iff, lt_iff_place hna hn, h.place_eq]
    exact (hbehind a ha).not_gt
  rw [List.countP_append, hall, hnone, Nat.add_zero]

/-- None of the cells in front is equal. -/
theorem countP_beq (h : InRun front cell rest tie) :
    (front ++ cell :: rest).countP (·.1 == tie.1) = rest.countP (·.1 == cell.1) + 1 := by
  obtain ⟨hn, hc⟩ := h.known
  have hnone : front.countP (·.1 == tie.1) = 0 := by
    refine List.countP_eq_zero.mpr fun a ha => ?_
    have hna := h.inOrder.known a (List.mem_append_left _ ha)
    rw [beq_iff_place hna hn, h.place_eq]
    exact ((lt_iff_place hna hc).mp (h.front_lt a ha)).ne
  have hcount : (cell :: rest).countP (·.1 == tie.1) = rest.countP (·.1 == cell.1) + 1 := by
    rw [List.countP_congr fun a _ => by rw [beq_congr h.equal], List.countP_cons_of_pos]
    exact beq_self hc
  rw [List.countP_append, hnone, hcount, Nat.zero_add]

/-- A run takes the places from the number of lesser cells on. -/
theorem averagePlace_eq (h : InRun front cell rest tie) :
    averagePlace ((front ++ cell :: rest).map (·.1)) tie.1 =
      placeBehind front.length (rest.countP (·.1 == cell.1) + 1) := by
  have hsorted : ((front ++ cell :: rest).map (·.1)).Pairwise fun a b => place a ≤ place b :=
    List.pairwise_map.mpr h.inOrder.pairwise
  have hknown : ∀ y ∈ (front ++ cell :: rest).map (·.1), ¬ y.isNaN := by
    intro y hy
    obtain ⟨a, ha, rfl⟩ := List.mem_map.mp hy
    exact h.inOrder.known a ha
  rw [Ranking.averagePlace_eq hsorted hknown h.known.1, List.countP_map, List.countP_map]
  exact congrArg₂ placeBehind h.countP_lt h.countP_beq

end InRun

/-- Behind the run of a cell all are greater. -/
theorem lt_of_mem_drop {a b : Float × Nat} (h : InOrder (cell :: rest))
    (ha : a.1 = cell.1 ∨ (a.1 == cell.1) = true)
    (hb : b ∈ rest.drop (rest.takeWhile (·.1 == cell.1)).length) : a.1 < b.1 := by
  rw [drop_length_takeWhile_eq_filter h.ties] at hb
  obtain ⟨hb, hne⟩ := List.mem_filter.mp hb
  have hc := h.known cell (.head _)
  have hn := h.known b (.tail _ hb)
  have hle := (List.pairwise_cons.mp h.pairwise).1 b hb
  have hlt : place cell.1 < place b.1 := by
    refine lt_of_le_of_ne hle fun he => ?_
    rw [(beq_iff_place hn hc).mpr he.symm] at hne
    cases hne
  rcases ha with he | he
  · rw [he]
    exact (lt_iff_place hc hn).mpr hlt
  · obtain ⟨hna, -⟩ := not_isNaN_of_beq he
    rw [lt_iff_place hna hn, (beq_iff_place hna hc).mp he]
    exact hlt

theorem InOrder.behind (h : InOrder (front ++ rest)) : InOrder rest :=
  ⟨(List.pairwise_append.mp h.pairwise).2.1, fun a ha => h.known a (List.mem_append_right _ ha)⟩

/-- The first cell and its ties share their places. -/
theorem map_run (h : InOrder (front ++ cell :: rest)) (hfront : ∀ a ∈ front, a.1 < cell.1) :
    let ties := rest.takeWhile (·.1 == cell.1)
    (cell :: ties).map (fun tie => (tie.2,
        Float.ofNat (front.length + 1 + (front.length + 1 + ties.length)) * 0.5)) =
      (cell :: ties).map fun tie =>
        (tie.2, averagePlace ((front ++ cell :: rest).map (·.1)) tie.1) := by
  intro ties
  have hcount : ties.length = rest.countP (·.1 == cell.1) := by
    rw [List.countP_eq_length_filter, ← takeWhile_eq_filter h.behind.ties]
  refine List.map_congr_left fun tie htie => ?_
  have hin : InRun front cell rest tie := by
    refine ⟨h, hfront, ?_, ?_⟩
    · refine List.mem_cons.mpr ((List.mem_cons.mp htie).imp_right fun htie => ?_)
      exact (List.takeWhile_prefix _).subset htie
    · rcases List.mem_cons.mp htie with rfl | htie
      · exact beq_self (h.behind.known _ (.head _))
      · exact List.all_eq_true.mp List.all_takeWhile tie htie
  rw [hin.averagePlace_eq, ← hcount, placeBehind]
  simp only [Nat.add_assoc, Nat.add_comm 1]

/-- **One scan gives all cells their places.** -/
theorem runs_eq {before : Nat} (hb : before = front.length) (h : InOrder (front ++ rest))
    (hfront : ∀ a ∈ front, ∀ b ∈ rest, a.1 < b.1) :
    runs before rest =
      rest.map fun cell => (cell.2, averagePlace ((front ++ rest).map (·.1)) cell.1) := by
  fun_induction runs before rest generalizing front with
  | case1 before => rfl
  | case2 before cell rest ties last =>
    rename_i ih
    subst hb
    have hsplit : ties ++ rest.drop ties.length = rest :=
      List.prefix_iff_eq_append.mp (List.takeWhile_prefix _)
    have happend : (front ++ cell :: ties) ++ rest.drop ties.length = front ++ cell :: rest := by
      rw [List.append_assoc, List.cons_append, hsplit]
    have hlength : front.length + 1 + ties.length = (front ++ cell :: ties).length := by
      rw [List.length_append, List.length_cons]
      omega
    -- the run stands in front of the later cells as the cells in front of it do
    have hbehind : ∀ a ∈ front ++ cell :: ties, ∀ b ∈ rest.drop ties.length, a.1 < b.1 := by
      intro a ha b hb
      rcases List.mem_append.mp ha with ha | ha
      · exact hfront a ha b (.tail _ (List.mem_of_mem_drop hb))
      · refine lt_of_mem_drop h.behind ?_ hb
        refine (List.mem_cons.mp ha).imp (congrArg Prod.fst) fun htie => ?_
        exact List.all_eq_true.mp List.all_takeWhile a htie
    have hrun := map_run h fun a ha => hfront a ha cell (.head _)
    have hlater := ih hlength (by rwa [happend]) hbehind
    rw [happend] at hlater
    rw [hrun, hlater, ← List.map_append, List.cons_append, hsplit]

end Runs

/-- The known cells of a row that are selected, sorted. -/
theorem inOrder_chosen (cells : List Float) (flags : List Bool) :
    InOrder ((chosen cells (known cells flags)).mergeSort fun a b => precedes a.1 b.1) := by
  have hmap := map_sorted_chosen cells flags
  have hsorted := pairwise_mergeSort (peers (cells.zip flags))
  rw [← hmap, List.pairwise_map] at hsorted
  refine ⟨hsorted, fun a ha => ?_⟩
  have hmem : a.1 ∈ (peers (cells.zip flags)).mergeSort precedes :=
    hmap ▸ List.mem_map.mpr ⟨a, ha, rfl⟩
  exact not_isNaN_of_mem_peers (List.mem_mergeSort.mp hmem)

theorem runs_chosen (cells : List Float) (flags : List Bool) :
    runs 0 ((chosen cells (known cells flags)).mergeSort fun a b => precedes a.1 b.1) =
      placings cells (known cells flags) := by
  have hruns := runs_eq List.length_nil.symm (inOrder_chosen cells flags) fun _ ha => nomatch ha
  rw [List.nil_append] at hruns
  exact hruns

/-! ## Rows -/

/-- The ranks of the cells of a row that are selected by their places, in a row of ranks that is
cleared first. -/
def scanRow (cells : List Float) (included : Nat → Checked ε Bool) (ranks : Array Float) :
    Checked ε (Array Float) := do
  let flags ← cells.zipIdx.mapM fun (x, i) => if x.isNaN then return false else included i
  let sorted := (chosen cells flags).mergeSort fun a b => precedes a.1 b.1
  writeAll (ranks.map fun _ => Cell.missing) (runs 0 sorted)

theorem scanRow_eq {flags : List Bool} {included : Nat → Checked ε Bool} {ranks : Array Float}
    (hl : flags.length = cells.length) (h : ∀ i flag, flags[i]? = some flag → included i = .ok flag)
    (hs : ranks.size = cells.length) :
    scanRow cells included ranks = .ok (selected flags cells).toArray := by
  have hcleared : ranks.map (fun _ => Cell.missing) =
      Array.replicate cells.length Cell.missing := by
    rw [← hs]
    exact Array.map_const'
  have hrow := rankRow_eq hl h
  simp only [rankRow, mapM_known hl h, bind, Except.bind] at hrow
  simp only [scanRow, mapM_known hl h, bind, Except.bind, runs_chosen, hcleared]
  cases hw : writeAll (Array.replicate cells.length Cell.missing)
      (placings cells (known cells flags)) with
  | error fault =>
    rw [hw] at hrow
    cases hrow
  | ok written =>
    rw [hw] at hrow
    rw [← Except.ok.inj hrow]

theorem scanRow_map {keys : List Float} {ranks : Array Float} (hl : keys.length = cells.length)
    (hs : ranks.size = cells.length) (f : Float → Bool) :
    scanRow cells (fun i => return f (← read keys.toArray i)) ranks =
      (.ok (selected (keys.map f) cells).toArray : Checked ε _) :=
  scanRow_eq (by simpa using hl) (included_map f) hs

/-! ## Groups -/

/-- The rank of a cell within a group. -/
def rankWithin (groups cells : List Float) (group : Float) (col : Nat) : Float :=
  (selected (groups.map (· == group)) cells).getD col Cell.missing

/-- A rank, or another one where there is none. -/
def fill (rank other : Float) : Float := if rank.isNaN then other else rank

/-- A scan that goes from group to group. -/
structure GroupScan where
  /-- The group values that have been ranked. -/
  seen : List Float
  /-- The ranks within the last of them. -/
  scratch : Array Float
  ranks : List Float

namespace GroupScan

/-- Ranks a group, unless it is missing or has been seen before. -/
def step (groups cells : List Float) (s : GroupScan) (group : Float) : Checked ε GroupScan :=
  if group.isNaN || s.seen.any (· == group) then .ok s
  else do
    let scratch ← scanRow cells (fun i => return (← read groups.toArray i) == group) s.scratch
    return ⟨s.seen ++ [group], scratch, List.zipWith fill s.ranks scratch.toList⟩

/-- The cells of the groups that have been seen are ranked, and no others. -/
structure Filled (groups cells : List Float) (s : GroupScan) : Prop where
  size : s.scratch.size = cells.length
  ranks : s.ranks = groups.zipIdx.map fun (group, col) =>
    if s.seen.any (· == group) then rankWithin groups cells group col else Cell.missing

end GroupScan

/-- The ranks of the cells among those with the same group value, group after group. -/
def scanGroups (groups cells : List Float) : Checked ε (List Float) := do
  let unranked : GroupScan :=
    ⟨[], Array.replicate cells.length Cell.missing, List.replicate cells.length Cell.missing⟩
  return (← groups.foldlM (GroupScan.step groups cells) unranked).ranks

section Groups

variable {group key : Float} {col : Nat} {s : GroupScan} {seen : List Float}

/-- A rank that is missing is the missing cell. -/
theorem rankIn_eq_missing {row : List (Float × Bool)} {cell : Float × Bool}
    (h : (rankIn row cell).isNaN = true) : rankIn row cell = Cell.missing := by
  by_cases hk : (cell.2 && !cell.1.isNaN) = true
  · obtain ⟨x, isChosen⟩ := cell
    rw [Bool.and_eq_true, Bool.not_eq_true', ← Bool.not_eq_true] at hk
    obtain ⟨rfl, hx⟩ := hk
    rw [rankIn_eq hx, placeBehind, isNaN_half] at h
    cases h
  · rw [rankIn, if_neg hk]

theorem fill_rankWithin_missing :
    fill (rankWithin groups cells key col) Cell.missing = rankWithin groups cells key col := by
  rw [fill]
  split
  · rename_i h
    rw [rankWithin, selected_eq_map, List.getD_eq_getElem?_getD, List.getElem?_map] at h ⊢
    cases hrow : (cells.zip (groups.map (· == key)))[col]? with
    | none => rfl
    | some cell =>
      rw [hrow] at h
      exact (rankIn_eq_missing h).symm
  · rfl

/-- Equal group values make one group. -/
theorem rankWithin_of_beq (h : (group == key) = true) :
    rankWithin groups cells group col = rankWithin groups cells key col := by
  rw [rankWithin, rankWithin, List.map_congr_left fun other _ => beq_congr h other]

/-- A cell has no rank within another group. -/
theorem rankWithin_of_ne (hk : groups[col]? = some key) (hne : ¬ (key == group) = true) :
    rankWithin groups cells group col = Cell.missing := by
  rw [rankWithin, selected_eq_map, List.getD_eq_getElem?_getD, List.getElem?_map]
  cases hrow : (cells.zip (groups.map (· == group)))[col]? with
  | none => rfl
  | some cell =>
    have hflag := (List.getElem?_zip_eq_some.mp hrow).2
    rw [List.getElem?_map, hk, Option.map_some, Option.some.injEq] at hflag
    rw [Option.map_some, Option.getD_some, rankIn, ← hflag, if_neg (by simp [hne])]

/-- **A group that is new fills the gaps of its cells** and leaves all others. -/
theorem fill_rankWithin (hnew : ¬ seen.any (· == group)) (hk : groups[col]? = some key) :
    fill (if seen.any (· == key) then rankWithin groups cells key col else Cell.missing)
        (rankWithin groups cells group col) =
      if (seen ++ [group]).any (· == key) then rankWithin groups cells key col
      else Cell.missing := by
  rw [List.any_append, List.any_cons, List.any_nil, Bool.or_false]
  by_cases hseen : seen.any (· == key) = true
  · have hne : ¬ (key == group) = true := by
      intro he
      rw [List.any_eq_true] at hseen hnew
      obtain ⟨other, hmem, ho⟩ := hseen
      exact hnew ⟨other, hmem, by rwa [← beq_congr he]⟩
    rw [if_pos hseen, rankWithin_of_ne hk hne, fill_rankWithin_missing, hseen, Bool.true_or,
      if_pos rfl]
  · rw [if_neg hseen, Bool.eq_false_iff.mpr hseen, Bool.false_or, fill, if_pos Cell.isNaN_missing]
    split
    · exact rankWithin_of_beq ‹_›
    · exact rankWithin_of_ne hk (by rwa [beq_comm])

/-- What a scan has after some of the groups: gaps where none of them is, and what it had seen. -/
structure GroupScan.Reached (groups cells seen past : List Float) (s : GroupScan) : Prop
    extends s.Filled groups cells where
  kept : ∀ key, seen.any (· == key) = true → s.seen.any (· == key) = true
  known : ∀ key ∈ past, ¬ key.isNaN → s.seen.any (· == key) = true

theorem GroupScan.Filled.step (hl : groups.length = cells.length) (h : s.Filled groups cells)
    (group : Float) : ∃ s', GroupScan.step groups cells s group = (.ok s' : Checked ε _) ∧
      s'.Reached groups cells s.seen [group] := by
  by_cases hskip : (group.isNaN || s.seen.any (· == group)) = true
  · refine ⟨s, if_pos hskip, h, fun _ hkey => hkey, fun key hkey hn => ?_⟩
    rw [List.mem_singleton.mp hkey] at hn ⊢
    exact (Bool.or_eq_true_iff.mp hskip).resolve_left hn
  · obtain ⟨hn, hnew⟩ : ¬ group.isNaN = true ∧ ¬ s.seen.any (· == group) = true := by
      simpa using hskip
    have hscan : scanRow cells (fun i => return (← read groups.toArray i) == group) s.scratch =
        (.ok (selected (groups.map (· == group)) cells).toArray : Checked ε _) :=
      scanRow_map hl h.size (· == group)
    have hlength : (selected (groups.map (· == group)) cells).length = cells.length := by
      simp [selected_eq_map, hl]
    refine ⟨⟨s.seen ++ [group], (selected (groups.map (· == group)) cells).toArray,
      List.zipWith fill s.ranks (selected (groups.map (· == group)) cells)⟩, ?_, ⟨?_, ?_⟩, ?_, ?_⟩
    · rw [GroupScan.step, if_neg hskip, hscan]
      rfl
    · simpa using hlength
    · refine List.ext_getElem? fun col => ?_
      rw [List.getElem?_zipWith, h.ranks, List.getElem?_map, List.getElem?_map,
        List.getElem?_zipIdx, Nat.zero_add]
      cases hk : groups[col]? with
      | none => rfl
      | some key =>
        have hcol : col < (selected (groups.map (· == group)) cells).length := by
          rw [hlength, ← hl]
          exact (List.getElem?_eq_some_iff.mp hk).1
        have hrank : (selected (groups.map (· == group)) cells)[col]? =
            some (rankWithin groups cells group col) := by
          rw [rankWithin, List.getD_eq_getElem?_getD, List.getElem?_eq_getElem hcol]
          rfl
        rw [hrank]
        exact congrArg some (fill_rankWithin hnew hk)
    · intro key hkey
      rw [List.any_append, hkey, Bool.true_or]
    · intro key hkey hn
      obtain rfl := List.mem_singleton.mp hkey
      exact List.any_eq_true.mpr ⟨key, List.mem_append_right _ hkey, beq_self hn⟩

/-- **The scan over some groups** leaves gaps only where none of them is. -/
theorem GroupScan.Filled.run (hl : groups.length = cells.length) (past : List Float)
    (h : s.Filled groups cells) :
    ∃ s', past.foldlM (GroupScan.step groups cells) s = (.ok s' : Checked ε _) ∧
      s'.Reached groups cells s.seen past := by
  induction past generalizing s with
  | nil => exact ⟨s, rfl, h, fun _ hkey => hkey, fun _ hkey => nomatch hkey⟩
  | cons group past ih =>
    obtain ⟨next, hstep, hnext⟩ := h.step hl group
    obtain ⟨s', hrun, hlast⟩ := ih hnext.toFilled
    refine ⟨s', ?_, hlast.toFilled, fun key hkey => hlast.kept key (hnext.kept key hkey), ?_⟩
    · rw [List.foldlM_cons, hstep]
      exact hrun
    · intro key hkey hn
      rcases List.mem_cons.mp hkey with rfl | hkey
      · exact hlast.kept _ (hnext.known _ (List.mem_singleton_self _) hn)
      · exact hlast.known key hkey hn

/-- **Ranks that are filled in group after group** are the ranks within the groups. -/
theorem scanGroups_eq (hl : groups.length = cells.length) :
    scanGroups groups cells = (.ok (byGroup groups cells) : Checked ε _) := by
  have hunranked : GroupScan.Filled groups cells ⟨[], Array.replicate cells.length Cell.missing,
      List.replicate cells.length Cell.missing⟩ := by
    refine ⟨Array.size_replicate, ?_⟩
    simp [List.map_const', hl]
  obtain ⟨s, hrun, hs⟩ := hunranked.run (ε := ε) hl groups
  have hranks : s.ranks = byGroup groups cells := by
    rw [hs.ranks, byGroup]
    refine List.map_congr_left fun entry hg => ?_
    obtain ⟨group, col⟩ := entry
    have hk : groups[col]? = some group := List.mem_zipIdx_iff_getElem?.mp hg
    by_cases hn : group.isNaN = true
    · have hne : ¬ (group == group) = true := fun he => (not_isNaN_of_beq he).1 hn
      have hnone : rankWithin groups cells group col = Cell.missing := rankWithin_of_ne hk hne
      simp only [hnone, ite_self]
      exact hnone.symm
    · simp only [hs.known group (List.mem_of_getElem? hk) hn, if_true]
      rfl
  rw [scanGroups]
  simp only [hrun, bind, Except.bind]
  exact congrArg Except.ok hranks

end Groups

end PanelCalc.Storage
