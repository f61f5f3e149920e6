import PanelCalc.Formula.Eval
import PanelCalc.Proofs.Printing.Merging
import PanelCalc.Proofs.Printing.Recovery
import PanelCalc.Proofs.Vocabulary.BuiltinOperators

/-! # The canonical text of a formula reads back

Whether it does can be seen from the tree of the formula: what is called must be
written as something that can be called, lists must stand where the text of a
list is read as one, and words must not run together. Otherwise the text is
refused, or is read as another program. -/
namespace PanelCalc

variable {H : Type} {v : Vocabulary H}

/-- The steps that a step is written as: an infinite number is a quotient. -/
def Step.spelledOut : Step → Program
  | .literal (.number x) =>
    if x.isInf then [.literal (.number 1), .literal (.number 0), .binary "/"]
    else [.literal (.number x)]
  | step => [step]

theorem Tree.postorder_spelledOut (t : Tree) :
    t.spelledOut.postorder = t.postorder.flatMap Step.spelledOut := by
  induction t with
  | literal value =>
    cases value with
    | number x =>
      simp only [spelledOut, postorder, List.flatMap_cons, List.flatMap_nil, Step.spelledOut]
      split <;> rfl
    | text s | noArguments => rfl
  | name n => rfl
  | unary s x ih => simp [spelledOut, postorder, ih, Step.spelledOut]
  | binary s x y ihx ihy | call x y ihx ihy =>
    simp [spelledOut, postorder, ihx, ihy, Step.spelledOut]

/-- The formula with infinite numbers as the quotients they are written as. -/
def Formula.spelledOut (f : Formula H) : Formula H :=
  { f with program := f.program.flatMap Step.spelledOut }

namespace Vocabulary

theorem spells_enclosed {ls : List Lexeme} (h : ∀ l ∈ ls, v.Spells l) :
    ∀ l ∈ enclosed ls, v.Spells l := by
  simp only [enclosed, List.forall_mem_cons, List.forall_mem_append]
  exact ⟨⟨trivial, trivial⟩, h, ⟨trivial, trivial⟩, by simp⟩

theorem spells_numberLexemes {x : Float} (hx : Double.IsUnsigned x)
    (hn : x.isInf = false → Lexeme.numeralValue (Double.plain x).toList = x) :
    ∀ l ∈ numberLexemes x, v.Spells l := by
  unfold numberLexemes
  split
  · refine spells_enclosed ?_
    simp only [List.forall_mem_cons]
    exact ⟨⟨⟨by decide, by decide⟩, by decide, by decide⟩,
      ⟨.inl (by decide), trivial⟩,
      ⟨⟨by decide, by decide⟩, by decide, by decide⟩, by simp⟩
  · rename_i hi
    rw [Bool.not_eq_true] at hi
    exact List.forall_mem_singleton.mpr ⟨hx, hi, hn hi⟩

theorem spells_unaryLexeme {s : String} (h : s = "-" ∨ v.Spells (.namedUnary s)) :
    v.Spells (unaryLexeme s) := by
  unfold unaryLexeme
  split
  · rename_i hs
    rw [hs]
    exact ⟨.inl (by decide), trivial⟩
  · exact h.resolve_left ‹_›

end Vocabulary

open Vocabulary (spells_enclosed spells_numberLexemes spells_unaryLexeme)

/-- The lexemes of the canonical text are found again, if numbers are. -/
theorem Tree.spells_lexemes {t : Tree} (ht : t.Spellable v)
    (hn : ∀ x, .literal (.number x) ∈ t.postorder → x.isInf = false →
      Lexeme.numeralValue (Double.plain x).toList = x) : ∀ l ∈ t.lexemes, v.Spells l := by
  induction t with
  | literal value =>
    cases value with
    | number x => exact spells_numberLexemes ht (hn x List.mem_cons_self)
    | text s => exact List.forall_mem_singleton.mpr ⟨trivial, trivial⟩
    | noArguments => simp [lexemes]
  | name n => exact List.forall_mem_singleton.mpr ⟨ht, trivial⟩
  | unary s x ih =>
    have hx := ih ht.2.2 fun y hy => hn y (List.mem_append_left _ hy)
    have hs : v.Spells (unaryLexeme s) := spells_unaryLexeme (ht.1.imp_right fun h => ⟨h, trivial⟩)
    unfold lexemes
    split
    · exact List.forall_mem_cons.mpr ⟨hs, spells_enclosed hx⟩
    · exact spells_enclosed (List.forall_mem_cons.mpr ⟨hs, hx⟩)
  | binary s x y ihx ihy =>
    have hx := ihx ht.2.1 fun z hz => hn z (by simp [postorder, hz])
    have hy := ihy ht.2.2 fun z hz => hn z (by simp [postorder, hz])
    have hjoin {l : Lexeme} (hl : v.Spells l) : ∀ l' ∈ x.lexemes ++ l :: y.lexemes, v.Spells l' :=
      List.forall_mem_append.mpr ⟨hx, List.forall_mem_cons.mpr ⟨hl, hy⟩⟩
    unfold lexemes
    split
    · exact hjoin ⟨trivial, trivial⟩
    · exact spells_enclosed (hjoin ⟨(ht.1.resolve_left ‹_›).2.1, trivial⟩)
  | call callee x ihc ihx =>
    have hc := ihc ht.1 fun z hz => hn z (by simp [postorder, hz])
    have hx : ∀ l ∈ x.lexemes, v.Spells l := by
      rcases ht.2 with rfl | hx
      · simp [lexemes]
      · exact ihx hx fun z hz => hn z (by simp [postorder, hz])
    exact List.forall_mem_append.mpr ⟨hc, spells_enclosed hx⟩

variable [HostFunctions H]

/-- Writing infinite numbers as quotients leaves the same values on the stack. -/
theorem Tree.foldlM_spelledOut {t : Tree} (ht : t.Spellable v)
    (hq : v.binary? "/" = some ⟨"/", 4, Vocabulary.cellBinary "/" (· / ·)⟩) (b : Bindings H)
    (a : Alignment) (stack : List (Value H)) :
    t.spelledOut.postorder.foldlM (Step.run v b a) stack =
      t.postorder.foldlM (Step.run v b a) stack := by
  induction t generalizing stack with
  | literal value =>
    cases value with
    | number x =>
      cases hi : x.isInf with
      | true =>
        have hdiv : v.applyBinary a "/" (.scalar 1) (.scalar 0) = .ok (.scalar (1 / 0)) := by
          rw [Vocabulary.applyBinary, hq]
          rfl
        rw [Double.eq_infinity hi ht.2]
        simp only [spelledOut, show (1 / 0 : Float).isInf = true from by decide, if_true,
          postorder, List.cons_append, List.nil_append, List.foldlM_cons, List.foldlM_nil, Step.run,
          pure_bind, Literal.value, hdiv]
        rfl
      | false => simp [spelledOut, hi]
    | text s | noArguments => rfl
  | name n => rfl
  | unary s x ih =>
    simp only [spelledOut, postorder, List.foldlM_append]
    rw [ih ht.2.2]
  | binary s x y ihx ihy =>
    simp only [spelledOut, postorder, List.foldlM_append, ihx ht.2.1, ihy ht.2.2]
  | call callee x ihc ihx =>
    have hx : ∀ stack, x.spelledOut.postorder.foldlM (Step.run v b a) stack =
        x.postorder.foldlM (Step.run v b a) stack := by
      rcases ht.2 with rfl | hx
      · exact fun _ => rfl
      · exact ihx hx
    simp only [spelledOut, postorder, List.foldlM_append, ihc ht.1, hx]

theorem Formula.evaluate_spelledOut {t : Tree} (ht : t.Spellable v)
    (hq : v.binary? "/" = some ⟨"/", 4, Vocabulary.cellBinary "/" (· / ·)⟩) (b : Bindings H)
    (a : Alignment) : (Formula.spelledOut ⟨t.postorder, v⟩).evaluate b a =
      Formula.evaluate ⟨t.postorder, v⟩ b a := by
  unfold Formula.evaluate Formula.spelledOut
  simp only [← t.postorder_spelledOut, Tree.foldlM_spelledOut ht hq]

/-- No parenthesis that the canonical text leaves out is needed, and no word of it
runs into the next lexeme. -/
def Formula.Printable (f : Formula H) : Prop :=
  ∃ t : Tree, f.program = t.postorder ∧ t.isList = false ∧ t.Bracketed f.vocabulary.grammar ∧
    t.lexemes.IsChain Lexeme.Apart

/-- **The canonical text of a formula that has been read reads back as the formula,
if and only if it is printable**, as long as neither text nests deeper than
priorities fit. The numbers of the formula are assumed to read back, and infinite
ones come back as quotients, which have the same values. -/
theorem Formula.parse_text_iff {caseStyle : CaseStyle}
    (hv : (Vocabulary.builtin caseStyle).Reachable v) {source : String} {f : Formula H}
    (hf : Formula.parse v source = .ok f)
    (hn : ∀ x, .literal (.number x) ∈ f.program → x.isInf = false →
      Lexeme.numeralValue (Double.plain x).toList = x)
    (hsourceNesting : v.nesting source ≤ Priority.deepest)
    (htextNesting : v.nesting f.text ≤ Priority.deepest) :
    (Formula.parse v f.text = .ok f.spelledOut ↔ f.Printable) ∧
      ∀ b a, f.spelledOut.evaluate b a = f.evaluate b a := by
  have hw := hv.wellFormed (Vocabulary.wellFormed_builtin caseStyle)
  have hq := hv.binary? (Vocabulary.binary?_quotient caseStyle)
  obtain ⟨t, source, rfl, hsource, hread⟩ := Formula.exists_reads hw hsourceNesting hf
  have ht := hread.spellable (Vocabulary.produces_of_lexes hsource) (by simp [Goal.given])
  have hspells := t.spells_lexemes ht hn
  have hspelled : Formula.spelledOut ⟨t.postorder, v⟩ = ⟨t.spelledOut.postorder, v⟩ := by
    rw [t.postorder_spelledOut]
    rfl
  have hstart : Text.Cursor.start (Formula.text ⟨t.postorder, v⟩) = ⟨0, spellings t.lexemes⟩ := by
    rw [Text.Cursor.start, Formula.text_eq rfl, t.toList_text ht]
  refine ⟨⟨fun h => ?_, fun hp => ?_⟩, Formula.evaluate_spelledOut ht hq⟩
  · rw [hspelled] at h
    obtain ⟨u, ls, heq, hls, hu⟩ := Formula.exists_reads hw htextNesting h
    obtain rfl : t.spelledOut = u := Tree.postorder_injective (congrArg Formula.program heq)
    rw [hstart] at hls
    have hc := t.isChain_of_reads ht hspells hls hu
    obtain rfl := (Vocabulary.lexes_spellings hspells hc 0).mp hls
    obtain ⟨hl, hb⟩ := t.bracketed_of_reads ht hu
    exact ⟨t, rfl, hl, hb, hc⟩
  · obtain ⟨u, hu, hl, hb, hc⟩ := hp
    obtain rfl : t = u := Tree.postorder_injective hu
    have hlexes := (Vocabulary.lexes_spellings hspells hc 0).mpr rfl
    have hreads := Tree.reads_lexemes hw.sound (by simp [Vocabulary.grammar, hq]) ht hl hb
    have hls := hstart ▸ hlexes
    rw [hspelled]
    exact Formula.parse_of_reads hw hls (Vocabulary.nesting_of_lexes hls ▸ htextNesting) hreads

/-- What `-f(x, 0.1) * 2` is read as. -/
def negatedProduct : Tree :=
  .binary "*" (.unary "-" (.call (.name "f")
    (.binary "," (.name "x") (.literal (.number 0.1))))) (.literal (.number 2))

/-- What `(1)(2)` is read as. -/
def calledNumber : Tree := .call (.literal (.number 1)) (.literal (.number 2))

/-- A product is read back from its text, and a number that is called is not. -/
theorem Formula.parse_text_negatedProduct :
    Formula.parse (.builtin .upper : Vocabulary Empty) "((-f(x,0.1))*2)" =
        .ok ⟨negatedProduct.postorder, .builtin .upper⟩ ∧
      Formula.parse (.builtin .upper : Vocabulary Empty) "(1)(2)" =
        .ok ⟨calledNumber.postorder, .builtin .upper⟩ ∧
      Formula.parse (.builtin .upper : Vocabulary Empty) "1(2)" ≠
        .ok ⟨calledNumber.postorder, .builtin .upper⟩ := by
  have hproduct : Formula.parse (.builtin .upper : Vocabulary Empty) "-f(x, 0.1) * 2" =
      .ok ⟨negatedProduct.postorder, .builtin .upper⟩ := Formula.parse_of_read (by decide +kernel)
  have hcalled : Formula.parse (.builtin .upper : Vocabulary Empty) "(1)(2)" =
      .ok ⟨calledNumber.postorder, .builtin .upper⟩ := Formula.parse_of_read (by decide +kernel)
  have numbers : ∀ x ∈ [0.1, 1, 2], Lexeme.numeralValue (Double.plain x).toList = x := by
    decide
  refine ⟨?_, hcalled, fun h => ?_⟩
  · have htext : Formula.text (H := Empty) ⟨negatedProduct.postorder, .builtin .upper⟩ =
        "((-f(x,0.1))*2)" := by decide
    have hread := (Formula.parse_text_iff .start hproduct (fun x hx _ => numbers x ?_)
      (by decide +kernel) (by decide +kernel)).1.mpr
      ⟨negatedProduct, rfl, by decide, by decide, by decide⟩
    · rw [htext] at hread
      exact hread
    · simp [negatedProduct, Tree.postorder] at hx
      rcases hx with rfl | rfl <;> simp
  · have htext : Formula.text (H := Empty) ⟨calledNumber.postorder, .builtin .upper⟩ = "1(2)" := by
      decide
    have hprintable := (Formula.parse_text_iff .start hcalled (fun x hx _ => numbers x ?_)
      (by decide +kernel) (by decide +kernel)).1.mp (htext ▸ h)
    · obtain ⟨u, hu, -, hb, -⟩ := hprintable
      rw [← Tree.postorder_injective hu] at hb
      cases hb.2.1
    · simp [calledNumber, Tree.postorder] at hx
      rcases hx with rfl | rfl <;> simp

end PanelCalc
