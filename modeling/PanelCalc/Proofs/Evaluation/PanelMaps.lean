import PanelCalc.Proofs.Evaluation.Alike

/-! # Values with other panels

A function of panels changes a value in all its panels and leaves the rest as
it is. -/
namespace PanelCalc

variable {H : Type}

mutual

/-- The value with every panel in it replaced by its image. -/
def Value.mapPanels (f : Panel → Panel) : Value H → Value H
  | .scalar x => .scalar x
  | .panel p => .panel (f p)
  | .text s => .text s
  | .list items => .list (mapItems f items)
  | .function entry => .function entry

/-- The values with every panel in them replaced by its image. -/
def Value.mapItems (f : Panel → Panel) : List (Value H) → List (Value H)
  | [] => []
  | item :: items => item.mapPanels f :: mapItems f items

end

/-- The bindings with every panel in their values replaced by its image. -/
def Bindings.mapPanels (f : Panel → Panel) (b : Bindings H) : Bindings H :=
  ⟨b.entries.map fun (name, value) => (name, value.mapPanels f)⟩

theorem Bindings.get?_mapPanels (f : Panel → Panel) (b : Bindings H) (name : String) :
    (b.mapPanels f).get? name = (b.get? name).map (Value.mapPanels f) := by
  obtain ⟨entries⟩ := b
  simp only [get?, mapPanels]
  induction entries with
  | nil => rfl
  | cons entry entries ih =>
    rw [List.map_cons, List.lookup_cons, List.lookup_cons, ih]
    split <;> rfl

variable {allowed : Builtin → Prop} {R S : Panel → Panel → Prop} {f : Panel → Panel}

mutual

/-- Where the panels of two values are images, the values are. -/
theorem Value.Matches.eq_mapPanels (hR : ∀ p q, R p q → q = f p) :
    ∀ {x y : Value H}, Value.Matches allowed R x y → y = x.mapPanels f
  | .scalar _, _, .scalar _ => rfl
  | .panel _, _, .panel h => congrArg Value.panel (hR _ _ h)
  | .text _, _, .text _ => rfl
  | .list _, _, .list h => congrArg Value.list (Value.Matches.eq_mapItems hR h)
  | .function _, _, .function _ _ => rfl

theorem Value.Matches.eq_mapItems (hR : ∀ p q, R p q → q = f p) :
    ∀ {xs ys : List (Value H)}, List.Forall₂ (Value.Matches allowed R) xs ys →
      ys = Value.mapItems f xs
  | [], _, .nil => rfl
  | _ :: _, _, .cons h hs => by
    rw [Value.mapItems, ← Value.Matches.eq_mapPanels hR h, ← Value.Matches.eq_mapItems hR hs]

end

end PanelCalc
