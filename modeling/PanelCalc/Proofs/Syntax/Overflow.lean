import PanelCalc.Proofs.Syntax.Balance
import PanelCalc.Proofs.Syntax.Building

/-! # One parenthesis too deep

Where parentheses nest one level deeper than priorities fit, the operators of
the innermost one have the lowest priorities of all. So an operator in front of
this parenthesis leaves before the first operator inside, with the first operand
inside: the parenthesis is no barrier any more. -/
namespace PanelCalc

/-- A parenthesis closes next, or nothing comes. -/
def Lexeme.Closes (ls : List Lexeme) : Prop := ∀ l ∈ ls.head?, l = closeParen

/-- Lexemes within a number of parentheses. -/
def Lexeme.within (n : Nat) (ls : List Lexeme) : List Lexeme :=
  .replicate n openParen ++ (ls ++ .replicate n closeParen)

/-- An operand, and in a parenthesis behind an operator two more. -/
def Lexeme.barrier (s s' : String) (x y z : Float) : List Lexeme :=
  [number x, operator s, openParen, number y, operator s', number z, closeParen]

open Lexeme (Closes within barrier)

variable {g : Grammar} {s s' : String} {p p' : Int} {ls rest : List Lexeme} {t : Tree} {d : Nat}
  {x y z : Float} {b : Builder}

namespace Lexeme

theorem Closes.stops (h : Closes rest) (least : Int) : Stops g least rest := by
  rintro s p ls rfl -
  cases h _ rfl

theorem Closes.head_ne (h : Closes rest) {l : Lexeme} (hl : l ≠ closeParen) :
    rest.head? ≠ some l :=
  fun hrest => hl (h l hrest)

/-! ## What is within parentheses -/

theorem nestingFrom_opens (d n : Nat) (ls : List Lexeme) :
    nestingFrom d (.replicate n openParen ++ ls) = nestingFrom (d + n) ls := by
  induction n generalizing d with
  | zero => rfl
  | succ n ih =>
    have hle := le_nestingFrom (d + (n + 1)) ls
    rw [List.replicate_succ, List.cons_append, nestingFrom, depthAfter, ih, Nat.add_right_comm,
      Nat.add_assoc]
    omega

theorem nestingFrom_closers (d n : Nat) : nestingFrom d (.replicate n closeParen) = d := by
  induction n generalizing d with
  | zero => rfl
  | succ n ih =>
    rw [List.replicate_succ, nestingFrom, depthAfter, ih]
    omega

theorem foldl_depthAfter_le (d : Nat) (ls : List Lexeme) :
    ls.foldl depthAfter d ≤ nestingFrom d ls := by
  have h := nestingFrom_append d ls []
  rw [List.append_nil, nestingFrom] at h
  omega

/-- Parentheses around lexemes add to how deep they nest. -/
theorem nestingFrom_within (d n : Nat) (ls : List Lexeme) :
    nestingFrom d (within n ls) = nestingFrom (d + n) ls := by
  have hle := foldl_depthAfter_le (d + n) ls
  rw [within, nestingFrom_opens, nestingFrom_append, nestingFrom_closers]
  omega

/-- What is read up to a closing parenthesis is read within more of them. -/
theorem reads_within (h : ∀ rest, Closes rest → Reads g (.chain 0) (ls ++ rest) t rest) (n : Nat)
    (hrest : Closes rest) : Reads g (.chain 0) (within n ls ++ rest) t rest := by
  induction n generalizing rest with
  | zero => simpa [within] using h rest hrest
  | succ n ih =>
    have closed : Closes (closeParen :: rest) := fun l hl => (Option.some.inj hl).symm
    have hin := ih closed
    rw [within, List.replicate_succ, List.replicate_succ']
    refine .chain (.group (.list ?_ (.listed (closed.head_ne nofun)))
      (.called (hrest.head_ne nofun))) (.joined (hrest.stops 0))
    simpa [within] using hin

end Lexeme

namespace Builder

/-- Parentheses in front of a formula do nothing but count. -/
theorem run_opens (n : Nat) (hb : b.expected = .operand) : ∃ started,
    b.run g (.replicate n .openParen ++ ls) =
      { b with started, depth := b.depth + Int32.ofNat n }.run g ls := by
  induction n generalizing b with
  | zero => exact ⟨b.started, by simp⟩
  | succ n ih =>
    obtain ⟨started, h⟩ := ih (b := b.inside) rfl
    have hdepth : b.depth + 1 + Int32.ofNat n = b.depth + Int32.ofNat (n + 1) := by
      rw [Int32.ofNat_add, Int32.add_assoc, Int32.add_comm 1]
      rfl
    refine ⟨started, ?_⟩
    rw [List.replicate_succ, List.cons_append, run_openParen (by rw [hb]; rfl), h]
    simp only [inside, hb, hdepth]

/-- An operator leaves for one in a parenthesis behind it that does not bind more tightly. -/
theorem run_barrier (hb : b.expected = .operand) (hw : b.waiting = []) (hd : b.depth + 1 ≠ 0)
    (hs : g.binaryPriority? s = some p) (hs' : g.binaryPriority? s' = some p')
    (hle : Priority.atDepth p' (b.depth + 1) ≤ Priority.atDepth p b.depth) :
    b.run g (barrier s s' x y z ++ ls) =
      { b with
        started := true
        output := .literal (.number z) :: .binary s :: .literal (.number y) ::
          .literal (.number x) :: b.output
        waiting := [(.binary s', Priority.atDepth p' (b.depth + 1))]
        expected := .afterCallable
        operands := b.operands + 3
        joins := b.joins + 2 }.run g ls := by
  have hleave (output : List Step) : settle (Priority.atDepth p' (b.depth + 1))
      [(.binary s, Priority.atDepth p b.depth)] output = ([], .binary s :: output) := by
    rw [settle, if_neg (Int32.not_lt.mpr hle), settle]
  simp only [barrier, List.cons_append, List.nil_append]
  rw [run_cons_ok (Accepts.operand (by rw [hb]; rfl) rfl).accept,
    run_cons_ok (Accepts.operator rfl hs).accept, run_cons_ok (Accepts.opened (.inl rfl)).accept,
    run_cons_ok (Accepts.operand rfl rfl).accept, run_cons_ok (Accepts.operator rfl hs').accept,
    run_cons_ok (Accepts.operand rfl rfl).accept, run_cons_ok (Accepts.closed rfl hd).accept]
  simp only [operand, join, hw, hleave, settle, Int32.add_sub_cancel]

/-- So the first operator comes before the second one in the program. -/
theorem run_within_barrier (hd : d ≤ Priority.deepest) (hs : g.binaryPriority? s = some p)
    (hs' : g.binaryPriority? s' = some p')
    (hle : Priority.atDepth p' (Int32.ofNat d + 1) ≤ Priority.atDepth p (.ofNat d)) :
    start.run g (within d (barrier s s' x y z)) =
      .ok [.literal (.number x), .literal (.number y), .binary s, .literal (.number z),
        .binary s'] := by
  rw [Priority.deepest] at hd
  have hdepth : (Int32.ofNat d).toInt = d := Int32.toInt_ofNat_of_lt (by omega)
  have hinside : Int32.ofNat d + 1 ≠ 0 := by
    rw [show Int32.ofNat d + 1 = .ofNat (d + 1) from (Int32.ofNat_add d 1).symm, ne_eq,
      ← Int32.toInt_inj, Int32.toInt_ofNat_of_lt (by omega), Int32.toInt_zero]
    omega
  have closers {b : Builder} (hb : b.Balanced) (hdepth : b.depth.toInt.toNat = d)
      (hs : b.started) (he : b.expected.endsOperand) :
      b.run g (.replicate d .closeParen) = .ok (b.output.reverse ++ b.waiting.map (·.1)) := by
    rw [← hb.run_closers hs he, hdepth]
  obtain ⟨started, hopens⟩ := run_opens (g := g) (b := start) d rfl
  rw [within, hopens, show start.depth = 0 from rfl, Int32.zero_add]
  refine (run_barrier (b := { start with started, depth := .ofNat d }) rfl rfl hinside hs hs'
    hle).trans ?_
  exact closers rfl (by rw [hdepth, Int.toNat_natCast]) rfl rfl

end Builder

open Builder

/-- **One level deeper a parenthesis is no barrier.** Whichever operators stand before and in a
parenthesis that is one too deep, it is read as an operand, and yet the operator before it is
applied to the first operand in it. -/
theorem Grammar.Sound.run_too_deep (hg : g.Sound) (hs : g.binaryPriority? s = some p)
    (hs' : g.binaryPriority? s' = some p') (hne : s ≠ ",") (hne' : s' ≠ ",") (x y z : Float) :
    let ls := within Priority.deepest (barrier s s' x y z)
    Lexeme.nesting ls = Priority.deepest + 1 ∧
      Reads g (.chain 0) ls (.binary s (.literal (.number x))
        (.binary s' (.literal (.number y)) (.literal (.number z)))) [] ∧
      start.run g ls = .ok [.literal (.number x), .literal (.number y), .binary s,
        .literal (.number z), .binary s'] := by
  obtain ⟨hp, hhighest⟩ := hg.binary s p hne hs
  obtain ⟨hp', hhighest'⟩ := hg.binary s' p' hne' hs'
  refine ⟨?_, ?_, ?_⟩
  · rw [Lexeme.nesting, Lexeme.nestingFrom_within, Nat.zero_add]
    simp [barrier, Lexeme.nestingFrom, Lexeme.depthAfter]
  · rw [← List.append_nil (within _ _)]
    refine Lexeme.reads_within (fun rest hrest => ?_) _ (by simp [Closes])
    have closed : Closes (.closeParen :: rest) := fun l hl => (Option.some.inj hl).symm
    have hinner : Reads g .list (.number y :: .operator s' :: .number z :: .closeParen :: rest)
        (.binary s' (.literal (.number y)) (.literal (.number z))) (.closeParen :: rest) :=
      .list (.chain .number (.join hs' hp' (.chain .number (.joined (closed.stops _)))
        (.joined (closed.stops 0)))) (.listed (closed.head_ne (by simp)))
    exact .chain .number (.join hs hp
      (.chain (.group hinner (.called (hrest.head_ne (by simp)))) (.joined (hrest.stops _)))
      (.joined (hrest.stops 0)))
  · exact run_within_barrier (Nat.le_refl _) hs hs' (Priority.atDepth_beyond_le
      ⟨Int.le_trans (by decide) hp, hhighest⟩ ⟨Int.le_trans (by decide) hp', hhighest'⟩)

end PanelCalc
