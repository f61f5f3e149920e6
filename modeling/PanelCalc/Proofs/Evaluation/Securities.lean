import PanelCalc.Proofs.Evaluation.Invariants
import PanelCalc.Proofs.Evaluation.PanelMaps
import PanelCalc.Proofs.Panel.Restriction

/-! # Securities do not mix

Only rankings look at several securities at once. What any other formula makes
of a security depends on the cells of this security alone: with the others left
out of every panel, the formula gives the same without them. -/
namespace PanelCalc

open Panel (Restricted)

theorem Builtin.Ranks.mem {f : Builtin} (h : f.Ranks) :
    f ∈ [Builtin.rank, Builtin.groupRank, Builtin.conditionRank] := by
  cases f with
  | rank | groupRank | conditionRank => simp
  | _ => exact h.elim

/-- **Leaving securities out is a simulation**, as far as there are results and nothing is
ranked. -/
theorem Simulation.restricted (keep : String → Bool) (a : Alignment) :
    Simulation False (fun f => ¬ f.Ranks) (Restricted keep) a a := by
  have rebase {p q : Panel} (h : p.Restricted keep q) :
      Follows False (Restricted keep) (a.rebase p) (a.rebase q) :=
    Alignment.rebase_follows h h.dates fun c _ _ => h.align c.announcements c.tradeDates
  refine {
    shorter := fun h h' => by rw [h.coincide.rows, h'.coincide.rows]
    prepare := fun h => Alignment.prepare_follows h (rebase h)
    conform := ?_
    rebase := fun _ _ h => rebase h
    cells := ?_
    histories := fun _ h => h.mapColumns fun _ _ _ hs hs' => by rw [h.coincide.colCells hs hs']
    pairs := ?_
    ranks := fun unranked => absurd trivial unranked
    ranksBy := ?_ }
  · intro reference reference' p q hr h
    refine Alignment.conform_follows ?_ fun x y hxy => hr.symbols ▸ hxy.inOrder hr.nodup
    exact Alignment.conformDates_follows h h.dates hr.dates fun c _ _ =>
      h.align c.announcements reference.dates
  · intro p q xs ys f h hs
    refine h.remap fun row col col' symbol hr hcol hcol' => ?_
    refine congrArg f (Operand.map_cell_congr hs fun p' q' hpq => ?_)
    exact hpq.related.coincide.cells (by rwa [hpq.left.symbols]) (by rwa [hpq.right.symbols])
  · intro n p q p' q' reduce _ h h' hi hi'
    refine h.mapColumns fun col col' symbol hs hs' => ?_
    rw [h.coincide.colCells hs hs',
      h'.coincide.colCells (by rwa [hi.symbols]) (by rwa [hi'.symbols])]
  · intro f p q p' q' hf
    cases hf with
    | byGroup unranked => exact absurd trivial unranked
    | byCondition unranked => exact absurd trivial unranked

variable {H : Type} {b : Bindings H}

theorem Bindings.Over.matches_restrict {allowed : Builtin → Prop} (hb : b.Over Panel.Valid)
    (keep : String → Bool) :
    b.Matches allowed (Restricted keep) (b.mapPanels (Panel.restrict keep)) := by
  intro name
  rw [Bindings.get?_mapPanels]
  cases hv : b.get? name with
  | none => exact .none
  | some value =>
    rcases hb name value hv with ⟨x, rfl⟩ | ⟨p, rfl, valid⟩
    · exact .some (.scalar x)
    · exact .some (.panel (Panel.restricted_restrict keep valid.symbols))

/-- **Securities do not mix.** Over scalars and valid panels, however these are
aligned and whatever securities are kept, a formula that names no ranking gives
of the panels without the other securities its value without them. -/
theorem Formula.evaluate_restrict [HostFunctions H] {caseStyle : CaseStyle} {program : Program}
    (hp : ∀ f ∈ [Builtin.rank, Builtin.groupRank, Builtin.conditionRank],
      .var (caseStyle.spell f.name) ∉ program)
    (hb : b.Over Panel.Valid) (a : Alignment) (keep : String → Bool) {value : Value H}
    (h : evaluate ⟨program, Vocabulary.builtin caseStyle⟩ b a = .ok value) :
    evaluate ⟨program, Vocabulary.builtin caseStyle⟩ (b.mapPanels (Panel.restrict keep)) a =
      .ok (value.mapPanels (Panel.restrict keep)) := by
  have unranked : program.Allowed caseStyle (fun f => ¬ f.Ranks) :=
    fun f hf hr => hp f hr.mem hf
  have follows :=
    evaluate_follows (Simulation.restricted keep a) (hb.matches_restrict keep) unranked
  obtain ⟨value', hvalue', hm⟩ := follows.exists_ok h
  rw [hvalue', hm.eq_mapPanels fun p q hpq => hpq.eq_restrict]

/-! ## Two securities of three -/

namespace Holdings

def monday : Date := ⟨2022, 6, 6, by decide⟩

def tuesday : Date := ⟨2022, 6, 7, by decide⟩

def quarterEnd : Date := ⟨2021, 12, 31, by decide⟩

def price : Panel := ⟨[monday, tuesday], ["A", "B", "C"], #[8, 9, 7, 6, 5, 4], rfl⟩

/-- The same securities in another order, reported once. -/
def earnings : Panel := ⟨[quarterEnd], ["C", "A", "B"], #[3, 1, 2], rfl⟩

def calendar : TradingCalendar :=
  ⟨⟨["A", "B", "C"], [[some monday, none, some tuesday]]⟩, [monday, tuesday]⟩

def bindings : Bindings Empty := ⟨[("price", .panel price), ("earnings", .panel earnings)]⟩

/-- `Delay(price, 1) / earnings` -/
def ratio : Program :=
  [.var "Delay", .var "price", .literal (.number 1), .binary ",", .call, .var "earnings",
    .binary "/"]

theorem over_bindings : bindings.Over Panel.Valid := by
  intro name value h
  simp only [Bindings.get?, bindings, List.lookup_cons] at h
  split at h
  · exact .inr ⟨price, (Option.some.inj h).symm, by decide, by decide⟩
  · split at h
    · exact .inr ⟨earnings, (Option.some.inj h).symm, by decide, by decide⟩
    · cases h

end Holdings

open Holdings in
/-- Without the second security the ratios of the others are the same. -/
theorem Formula.evaluate_restrict_holdings : ∃ p,
    evaluate ⟨ratio, Vocabulary.builtin .upper⟩ bindings (.whenNeeded calendar) =
        .ok (.panel p) ∧
      evaluate ⟨ratio, Vocabulary.builtin .upper⟩ (bindings.mapPanels (Panel.restrict (· != "B")))
          (.whenNeeded calendar) =
        .ok (.panel (p.restrict (· != "B"))) ∧
      (p.restrict (· != "B")).symbols = ["A", "C"] := by
  obtain ⟨p, hp, hs⟩ : ∃ p,
      evaluate ⟨ratio, Vocabulary.builtin .upper⟩ bindings (.whenNeeded calendar) =
        .ok (.panel p) ∧ p.symbols = ["A", "B", "C"] := ⟨_, rfl, rfl⟩
  refine ⟨p, hp, ?_, ?_⟩
  · exact evaluate_restrict (by decide) over_bindings (.whenNeeded calendar) (· != "B") hp
  · rw [Panel.symbols_restrict, hs]
    rfl

end PanelCalc
