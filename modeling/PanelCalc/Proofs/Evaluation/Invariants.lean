import PanelCalc.Proofs.Evaluation.SideBySide

/-! # Invariants of panels

A kind of panels that is a matter of dates and securities alone is kept by all
that is built in, as long as aligning keeps it: panels are computed on an index
that is there already. Two evaluations of one formula on such panels are the
same if the two ways of aligning cannot be told apart on them. -/
namespace PanelCalc

/-- The same panel on both sides, and of a certain kind. -/
structure Panel.Kept (P : Panel → Prop) (p q : Panel) : Prop where
  eq : p = q
  kind : P p

/-! ## Panels inside values -/

section Values

variable {H : Type}

mutual

/-- The panels inside a value. -/
def Value.panels : Value H → List Panel
  | .panel p => [p]
  | .list items => itemPanels items
  | .scalar _ | .text _ | .function _ => []

/-- The panels inside the items of a list. -/
def Value.itemPanels : List (Value H) → List Panel
  | [] => []
  | item :: items => item.panels ++ itemPanels items

end

variable {allowed : Builtin → Prop} {P : Panel → Prop}

mutual

/-- Where all panels are kept, a value is. -/
theorem Value.Matches.kept : ∀ {x y : Value H}, Value.Matches allowed (Panel.Kept P) x y →
    x = y ∧ ∀ p ∈ x.panels, P p
  | .scalar _, _, .scalar _ => ⟨rfl, by simp [Value.panels]⟩
  | .panel _, _, .panel h => ⟨congrArg Value.panel h.eq, by simpa [Value.panels] using h.kind⟩
  | .text _, _, .text _ => ⟨rfl, by simp [Value.panels]⟩
  | .list _, _, .list h =>
    have items := Value.Matches.kept_items h
    ⟨congrArg Value.list items.1, by simpa [Value.panels] using items.2⟩
  | .function _, _, .function _ _ => ⟨rfl, by simp [Value.panels]⟩

theorem Value.Matches.kept_items : ∀ {xs ys : List (Value H)},
    List.Forall₂ (Value.Matches allowed (Panel.Kept P)) xs ys →
      xs = ys ∧ ∀ p ∈ Value.itemPanels xs, P p
  | [], _, .nil => ⟨rfl, by simp [Value.itemPanels]⟩
  | _ :: _, _, .cons h hs => by
    obtain ⟨rfl, hx⟩ := Value.Matches.kept h
    obtain ⟨rfl, hxs⟩ := Value.Matches.kept_items hs
    refine ⟨rfl, fun p hp => ?_⟩
    rw [Value.itemPanels, List.mem_append] at hp
    exact hp.elim (hx p) (hxs p)

end

/-- Bindings of names to scalars and to panels of a certain kind. -/
def Bindings.Over (P : Panel → Prop) (b : Bindings H) : Prop :=
  ∀ name value, b.get? name = some value →
    (∃ x, value = .scalar x) ∨ ∃ p, value = .panel p ∧ P p

theorem Bindings.Over.matches_kept {b : Bindings H} (h : b.Over P) :
    b.Matches allowed (Panel.Kept P) b := by
  intro name
  cases hv : b.get? name with
  | none => exact .none
  | some value =>
    rcases h name value hv with ⟨x, rfl⟩ | ⟨p, rfl, hp⟩
    · exact .some (.scalar x)
    · exact .some (.panel ⟨rfl, hp⟩)

end Values

/-! ## Evaluations -/

section Evaluations

variable {strict : Prop} {allowed : Builtin → Prop} {P : Panel → Prop} {a a' : Alignment}

/-- **A kind of panels is a simulation**, if it is a matter of the index and aligning keeps it. -/
theorem Simulation.kept (index : ∀ p q : Panel, q.IndexedAs p → P p → P q)
    (prepare : ∀ p, P p → Follows strict (Panel.Kept P) (a.prepare p) (a'.prepare p))
    (conform : ∀ reference p, P reference → P p →
      Follows strict Eq (a.conform reference p) (a'.conform reference p))
    (rebase : ∀ f p, Builtin.Ranks f → allowed f → P p →
      Follows strict (Panel.Kept P) (a.rebase p) (a'.rebase p)) :
    Simulation strict allowed (Panel.Kept P) a a' where
  shorter := by
    intro p q p' q' h h'
    rw [h.eq, h'.eq]
  prepare := by
    intro p q h
    rw [← h.eq]
    exact prepare p h.kind
  conform := by
    intro reference reference' p q hr h
    rw [← hr.eq, ← h.eq]
    refine (conform reference p hr.kind h.kind).of_ok fun x y hx _ hxy => ⟨hxy, ?_⟩
    exact index reference x (Alignment.conform_ok hx) hr.kind
  rebase := by
    intro f p q hf ha h
    rw [← h.eq]
    exact rebase f p hf ha h.kind
  cells := by
    intro p q xs ys f h hs
    have same : (fun row col => f (xs.map (·.cell row col))) =
        fun row col => f (ys.map (·.cell row col)) := by
      funext row col
      exact congrArg f (Operand.map_cell_congr hs fun p' q' h' => by rw [h'.related.eq])
    exact ⟨by rw [← h.eq, same], index p _ ⟨rfl, rfl⟩ h.kind⟩
  histories := by
    intro f p q _ h
    exact ⟨by rw [h.eq], index p _ ⟨rfl, rfl⟩ h.kind⟩
  pairs := by
    intro n p q p' q' reduce _ h h' _ _
    exact ⟨by rw [h.eq, h'.eq], index p _ ⟨rfl, rfl⟩ h.kind⟩
  ranks := by
    intro p q _ h _ _
    exact ⟨by rw [h.eq], index p _ ⟨rfl, rfl⟩ h.kind⟩
  ranksBy := by
    intro f p q p' q' _ h _ _ h'
    exact ⟨by rw [h.eq, h'.related.eq], index p _ ⟨rfl, rfl⟩ h.kind⟩

variable {H : Type} [HostFunctions H] {b : Bindings H} {caseStyle : CaseStyle}

/-- **Evaluations keep a kind of panels**, and both give the same. -/
theorem Formula.evaluate_kept (h : Simulation strict allowed (Panel.Kept P) a a') (hb : b.Over P)
    {program : Program} (hp : program.Allowed caseStyle allowed) :
    Follows strict (fun x y => x = y ∧ ∀ p ∈ x.panels, P p)
      (evaluate ⟨program, Vocabulary.builtin caseStyle⟩ b a)
      (evaluate ⟨program, Vocabulary.builtin caseStyle⟩ b a') :=
  (evaluate_follows h hb.matches_kept hp).imp fun _ _ hxy => hxy.kept

end Evaluations

end PanelCalc
