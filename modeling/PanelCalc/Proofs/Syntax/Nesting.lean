import PanelCalc.Formula.Builder

/-! # How deep parentheses may nest

Depths and priorities are counted in 32 bits. Down to a certain depth every
priority fits, and priorities are ordered as they would be without bounds; one
level further in all of them wrap around. How deep lexemes nest is a matter of
their parentheses alone. -/
namespace PanelCalc

namespace Priority

/-- The priority of an operator at a depth of parentheses, without bounds. -/
def level (priority : Int) (depth : Nat) : Int := priority + depth * depthStep

/-- The deepest level at which every priority fits. -/
def deepest : Nat := 214748364

/-- A priority that an operator, a comma or a call has before its depth is added. -/
structure Base (p : Int) : Prop where
  call_le : call ≤ p
  le_highest : p ≤ highest

variable {p q : Int} {d e : Nat}

theorem base_call : Base call := ⟨by decide, by decide⟩

theorem base_comma : Base comma := ⟨by decide, by decide⟩

theorem level_le_level : level p d ≤ level q d ↔ p ≤ q := by
  simp only [level]
  omega

theorem level_lt_level : level p d < level q d ↔ p < q := by
  simp only [level]
  omega

/-- A call binds more tightly than every operator around it. -/
theorem level_lt_call (h : p ≤ highest) : level p d < level call (d + 1) := by
  simp only [level, call, highest, depthStep] at *
  omega

theorem call_le_call (h : d ≤ e) : level call d ≤ level call e := by
  simp only [level, depthStep]
  omega

/-- Every operator and comma inside a parenthesis binds more tightly than a call before it. -/
theorem call_le_level (h : comma ≤ p) : level call d ≤ level p d := by
  rw [level_le_level]
  simp only [comma, call] at *
  omega

/-! ## Priorities in 32 bits -/

/-- At the deepest level the highest priority is the greatest number that fits. -/
theorem le_deepest_iff : d ≤ deepest ↔ level highest d ≤ Int32.maxValue.toInt := by
  rw [show Int32.maxValue.toInt = 2147483647 from rfl]
  simp only [level, deepest, highest, call, depthStep]
  omega

theorem atDepth_ofNat : atDepth p (.ofNat d) = .ofInt (level p d) := by
  rw [atDepth, level, ← Int32.ofInt_eq_ofNat, ← Int32.ofInt_mul, ← Int32.ofInt_add]

/-- Down to the deepest level priorities are what they are without bounds. -/
theorem toInt_atDepth (hp : Base p) (hd : d ≤ deepest) :
    (atDepth p (.ofNat d)).toInt = level p d := by
  obtain ⟨hcall, hhighest⟩ := hp
  rw [atDepth_ofNat]
  simp only [level, deepest, highest, call, depthStep] at *
  exact Int32.toInt_ofInt_of_le (by omega) (by omega)

/-- One level further in they all wrap around, and come below those of every other level. -/
theorem toInt_atDepth_beyond (hp : Base p) :
    (atDepth p (.ofNat (deepest + 1))).toInt = level p (deepest + 1) - Int32.size := by
  obtain ⟨hcall, hhighest⟩ := hp
  have hwrapped : Int32.ofInt (level p (deepest + 1)) =
      .ofInt (level p (deepest + 1) - Int32.size) := by
    rw [Int32.ofInt_sub, show Int32.ofInt Int32.size = 0 from rfl, Int32.sub_zero]
  rw [atDepth_ofNat, hwrapped]
  simp only [level, deepest, highest, call, depthStep, Int32.size] at *
  exact Int32.toInt_ofInt_of_le (by omega) (by omega)

/-- So an operator there leaves no operator of the deepest level waiting. -/
theorem atDepth_beyond_le (hp : Base p) (hq : Base q) :
    atDepth q (Int32.ofNat deepest + 1) ≤ atDepth p (.ofNat deepest) := by
  rw [show Int32.ofNat deepest + 1 = .ofNat (deepest + 1) from (Int32.ofNat_add deepest 1).symm,
    Int32.le_iff_toInt_le, toInt_atDepth_beyond hq, toInt_atDepth hp (Nat.le_refl _)]
  obtain ⟨hcall, -⟩ := hp
  obtain ⟨-, hhighest⟩ := hq
  simp only [level, deepest, highest, call, depthStep, Int32.size] at *
  omega

end Priority

namespace Lexeme

/-- The number of open parentheses behind a lexeme. -/
def depthAfter (depth : Nat) : Lexeme → Nat
  | openParen => depth + 1
  | closeParen => depth - 1
  | _ => depth

/-- The greatest number of parentheses that are open at once, some being open already. -/
def nestingFrom (depth : Nat) : List Lexeme → Nat
  | [] => depth
  | l :: ls => max depth (nestingFrom (l.depthAfter depth) ls)

/-- How deep the parentheses of lexemes nest. -/
def nesting (ls : List Lexeme) : Nat := nestingFrom 0 ls

theorem le_nestingFrom (d : Nat) (ls : List Lexeme) : d ≤ nestingFrom d ls := by
  cases ls with
  | nil => exact Nat.le_refl d
  | cons l ls => exact Nat.le_max_left ..

theorem nestingFrom_le_cons (d : Nat) (l : Lexeme) (ls : List Lexeme) :
    nestingFrom (l.depthAfter d) ls ≤ nestingFrom d (l :: ls) :=
  Nat.le_max_right ..

theorem nestingFrom_tail {d n : Nat} {l : Lexeme} {ls : List Lexeme}
    (h : nestingFrom d (l :: ls) ≤ n) : nestingFrom (l.depthAfter d) ls ≤ n :=
  Nat.le_trans (nestingFrom_le_cons d l ls) h

theorem nestingFrom_append (d : Nat) (ls rest : List Lexeme) : nestingFrom d (ls ++ rest) =
    max (nestingFrom d ls) (nestingFrom (ls.foldl depthAfter d) rest) := by
  induction ls generalizing d with
  | nil => exact (Nat.max_eq_right (le_nestingFrom d rest)).symm
  | cons l ls ih =>
    rw [List.cons_append, nestingFrom, ih, nestingFrom, List.foldl_cons, Nat.max_assoc]

/-- Without opening parentheses lexemes nest no deeper. -/
theorem nestingFrom_le_of_flat {ls : List Lexeme} (h : ∀ l ∈ ls, l ≠ openParen) (d : Nat) :
    nestingFrom d ls ≤ d := by
  induction ls generalizing d with
  | nil => exact Nat.le_refl d
  | cons l ls ih =>
    obtain ⟨hl, hls⟩ := List.forall_mem_cons.mp h
    have hd : l.depthAfter d ≤ d := by
      cases l <;> simp only [depthAfter] <;> first | omega | exact absurd rfl hl
    exact Nat.max_le.mpr ⟨Nat.le_refl d, Nat.le_trans (ih hls _) hd⟩

theorem le_of_nestingFrom {d n : Nat} {ls : List Lexeme} (h : nestingFrom d ls ≤ n) : d ≤ n :=
  Nat.le_trans (le_nestingFrom d ls) h

end Lexeme

/-- A builder inside of some parentheses, at a depth where priorities fit. -/
structure Builder.At (b : Builder) (depth : Nat) : Prop where
  depth_eq : b.depth = .ofNat depth
  le_deepest : depth ≤ Priority.deepest

namespace Builder.At

open Priority (Base atDepth level deepest)

variable {b b' : Builder} {d : Nat} {p q : Int}

theorem start : Builder.start.At 0 := ⟨rfl, Nat.zero_le _⟩

theorem of_depth_eq (h : b.At d) (hd : b'.depth = b.depth) : b'.At d :=
  ⟨hd.trans h.depth_eq, h.le_deepest⟩

theorem toInt_depth (h : b.At d) : b.depth.toInt = d := by
  have := h.le_deepest
  rw [h.depth_eq, Int32.toInt_ofNat_of_lt (by simp only [deepest] at this; omega)]

theorem depth_eq_zero (h : b.At d) : b.depth = 0 ↔ d = 0 := by
  rw [← Int32.toInt_inj, h.toInt_depth, Int32.toInt_zero]
  omega

theorem depth_pos (h : b.At d) : 0 < b.depth ↔ 0 < d := by
  rw [Int32.lt_iff_toInt_lt, h.toInt_depth, Int32.toInt_zero]
  omega

/-- One parenthesis further in. -/
theorem depth_add_one (h : b.At d) : b.depth + 1 = .ofNat (d + 1) := by
  rw [h.depth_eq, Int32.ofNat_add]
  rfl

theorem depth_add_one_ne_zero (h : b.At d) (hd : d + 1 ≤ deepest) : b.depth + 1 ≠ 0 := by
  have inside : { b with depth := b.depth + 1 }.At (d + 1) := ⟨h.depth_add_one, hd⟩
  exact mt inside.depth_eq_zero.mp (Nat.succ_ne_zero d)

/-- One parenthesis further out. -/
theorem depth_sub_one (h : b.At (d + 1)) : b.depth - 1 = .ofNat d := by
  rw [h.depth_eq, Int32.ofNat_add]
  exact Int32.add_sub_cancel ..

theorem toInt_atDepth (h : b.At d) (hp : Base p) : (atDepth p b.depth).toInt = level p d := by
  rw [h.depth_eq, Priority.toInt_atDepth hp h.le_deepest]

theorem atDepth_le_atDepth (h : b.At d) (hp : Base p) (hq : Base q) :
    atDepth p b.depth ≤ atDepth q b.depth ↔ p ≤ q := by
  rw [Int32.le_iff_toInt_le, h.toInt_atDepth hp, h.toInt_atDepth hq, Priority.level_le_level]

end Builder.At

end PanelCalc
