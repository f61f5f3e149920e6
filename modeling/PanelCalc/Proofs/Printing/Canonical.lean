import PanelCalc.Proofs.Printing.RoundTrip
import PanelCalc.Proofs.Printing.Separation
import PanelCalc.Proofs.Syntax.Term

/-! # Canonical terms read back

Terms that say nothing which their canonical text could not say: numbers have no
sign and are finite, and what is called can be called where it is written. With
the built-in operators the text of such a term needs none of the parentheses it
leaves out, and reads back as the program of the term. -/
namespace PanelCalc

variable {H : Type} {v : Vocabulary H}

/-- Whether a term may be called as it is written. -/
def Term.isCallee : Term → Bool
  | name _ | call _ _ | binary _ _ _ => true
  | unary s _ => s == "-"
  | number _ | text _ => false

/-- A term that its canonical text says without a change. -/
inductive Term.Canonical (v : Vocabulary H) : Term → Prop
  | number {x : Float} : x.isNaN = false → x.isInf = false → Double.isNegative x = false →
      Canonical v (.number x)
  | text (s : String) : Canonical v (.text s)
  | name {n : String} : v.Produces (.identifier n) → Canonical v (.name n)
  | minus {x} : Canonical v x → Canonical v (.unary "-" x)
  | named {s x} : v.isNamedUnary s = true → Canonical v x → Canonical v (.unary s x)
  | binary {s x y} : s ≠ "," → (v.binary? s).isSome → Canonical v x → Canonical v y →
      Canonical v (.binary s x y)
  | call {callee ts} : callee.isCallee = true → Canonical v callee → (∀ t ∈ ts, Canonical v t) →
      Canonical v (.call callee ts)

/-! ## The built-in operators -/

namespace Vocabulary

/-- Operators are what they look like, and words bind tightly before their operand. -/
structure Regular (v : Vocabulary H) : Prop where
  wellFormed : v.WellFormed
  lettered : v.Lettered
  quotient : (v.grammar.binaryPriority? "/").isSome
  minus : (v.grammar.unaryPriority? "-").isSome
  named : ∀ s, v.isNamedUnary s = true → v.Knows (.namedUnary s) ∧ Text.hasLetter s = true ∧
    ∀ p ∈ v.grammar.unaryPriority? s, Priority.highest ≤ p
  binary : ∀ s, s ≠ "," → (v.binary? s).isSome → v.Knows (.operator s)

variable {s : String} {caseStyle : CaseStyle}

end Vocabulary

/-! ## The trees of canonical terms -/

namespace Tree

/-- A tree whose text needs no more parentheses and has no quotient for a number. -/
structure Plain (v : Vocabulary H) (t : Tree) : Prop where
  spellable : t.Spellable v
  bracketed : t.Bracketed v.grammar
  spelledOut : t.spelledOut = t

variable {t : Tree} {ts : List Tree}

theorem Plain.comma {u : Tree} (ht : t.Plain v) (hu : u.Plain v) (hl : u.isList = false) :
    (binary "," t u).Plain v where
  spellable := ⟨.inl rfl, ht.spellable, hu.spellable⟩
  bracketed := ⟨ht.bracketed, hu.bracketed, hl, fun h => absurd rfl h⟩
  spelledOut := by rw [Tree.spelledOut, ht.spelledOut, hu.spelledOut]

/-- Arguments that are no lists themselves. -/
theorem Plain.foldl_comma (ht : t.Plain v) (hts : ∀ u ∈ ts, u.Plain v ∧ u.isList = false) :
    (ts.foldl (binary ",") t).Plain v := by
  induction ts generalizing t with
  | nil => exact ht
  | cons u us ih =>
    obtain ⟨⟨hu, hl⟩, hus⟩ := List.forall_mem_cons.mp hts
    exact ih (ht.comma hu hl) hus

theorem Plain.call {callee : Tree} (hc : callee.Plain v) (h : callee.isCallable = true)
    (hts : ∀ u ∈ ts, u.Plain v ∧ u.isList = false) : (call callee (arguments ts)).Plain v := by
  cases ts with
  | nil =>
    exact ⟨⟨hc.spellable, .inl rfl⟩, ⟨hc.bracketed, h, trivial⟩, by
      rw [Tree.spelledOut, hc.spelledOut]
      rfl⟩
  | cons u us =>
    obtain ⟨⟨hu, -⟩, hus⟩ := List.forall_mem_cons.mp hts
    have hx := hu.foldl_comma hus
    exact ⟨⟨hc.spellable, .inr hx.spellable⟩, ⟨hc.bracketed, h, hx.bracketed⟩, by
      rw [Tree.spelledOut, hc.spelledOut, arguments, hx.spelledOut]⟩

end Tree

namespace Term.Canonical

variable {t : Term}

theorem isList (h : t.Canonical v) : t.tree.isList = false := by
  cases h with
  | binary hs _ _ _ => simpa [tree, Tree.isList] using hs
  | _ => rfl

theorem precedes (hv : v.Regular) (h : t.Canonical v) {q : Int} (hq : q ≤ Priority.highest) :
    t.tree.Precedes v.grammar q := by
  cases h with
  | minus _ => exact fun hletter => absurd hletter (by decide)
  | named hs _ => exact fun _ p hp => Int.le_trans hq ((hv.named _ hs).2.2 p hp)
  | _ => trivial

theorem isCallable (h : t.Canonical v) (hc : t.isCallee = true) : t.tree.isCallable = true := by
  cases h with
  | number | text => cases hc
  | name | call => rfl
  | minus _ => exact show (!Text.hasLetter "-") = true from by decide
  | named hs _ =>
    rw [eq_of_beq hc] at hs
    exact absurd (Bool.and_eq_true_iff.mp hs).1 (by decide)
  | binary hs _ _ _ => simpa [tree, Tree.isCallable] using hs

/-- **The tree of a canonical term is plain.** -/
theorem plain (hv : v.Regular) (h : t.Canonical v) : t.tree.Plain v := by
  induction h with
  | number hn hi hs => exact ⟨⟨hn, hs⟩, trivial, by simp [tree, Tree.spelledOut, hi]⟩
  | text s => exact ⟨trivial, trivial, rfl⟩
  | name hn => exact ⟨hn.knows, trivial, rfl⟩
  | minus hx ih =>
    exact ⟨⟨.inl rfl, hv.minus, ih.spellable⟩, ⟨ih.bracketed, fun _ => ⟨hx.isList, by simp⟩⟩,
      by rw [tree, Tree.spelledOut, ih.spelledOut]⟩
  | @named s x hs hx ih =>
    obtain ⟨hk, hletter, -⟩ := hv.named s hs
    have hu : (v.grammar.unaryPriority? s).isSome := by
      simpa [Vocabulary.grammar] using (Bool.and_eq_true_iff.mp hs).2
    exact ⟨⟨.inr hk, hu, ih.spellable⟩, ⟨ih.bracketed, fun h => by simp [hletter] at h⟩,
      by rw [tree, Tree.spelledOut, ih.spelledOut]⟩
  | @binary s x y hs hb hx hy ihx ihy =>
    have hp : (v.grammar.binaryPriority? s).isSome := by simpa [Vocabulary.grammar] using hb
    refine ⟨⟨.inr ⟨hs, hv.binary _ hs hb, hp⟩, ihx.spellable, ihy.spellable⟩,
      ⟨ihx.bracketed, ihy.bracketed, hy.isList, fun _ => ⟨hx.isList, fun q hq => ?_⟩⟩, ?_⟩
    · exact hx.precedes hv (hv.wellFormed.sound.base_binary hq).le_highest
    · rw [tree, Tree.spelledOut, ihx.spelledOut, ihy.spelledOut]
  | call hcallee hc hts ihc iht =>
    refine ihc.call (hc.isCallable hcallee) ?_
    rw [trees_eq_map, List.forall_mem_map]
    exact fun u hu => ⟨iht u hu, (hts u hu).isList⟩

end Term.Canonical

end PanelCalc
