import PanelCalc.Formula.Grammar
import PanelCalc.Lexeme.Symbols
import PanelCalc.Proofs.Double.Unsigned
import PanelCalc.Proofs.Lexeme.Next

/-! # What scanning can find

Whatever lexeme scanning finds in a text, its symbol, word or number is one that
can be written in a text. -/
namespace PanelCalc

open Text (opensWord)

namespace Lexeme

/-- What holds of all symbols holds of what is read as a symbol of its name. -/
theorem of_isOperatorSymbol {p : String → Prop} {s : String} (hs : isOperatorSymbol s = true)
    (h : ∀ symbol ∈ operatorSymbols, p symbol.name) : p s :=
  h ⟨s, s⟩ (by simpa [isOperatorSymbol] using hs)

/-- A symbol that is read has a name that is read as itself. -/
theorem isOperatorSymbol_name {chars : List Char} {symbol : OperatorSymbol}
    (h : symbolAt? chars = some symbol) : isOperatorSymbol symbol.name = true := by
  have names : ∀ symbol ∈ operatorSymbols, isOperatorSymbol symbol.name = true := by decide
  exact names symbol (List.mem_of_find?_eq_some h)

end Lexeme

namespace Vocabulary

variable {H : Type} {v : Vocabulary H} {w : String}

/-! ## The meaning of a word -/

/-- What a word stands for, and when. -/
inductive Means (v : Vocabulary H) (w : String) : Lexeme → Prop
  | constant {x} : namedConstants.lookup w = some x → Means v w (.constant x)
  | operator : namedConstants.lookup w = none → v.isBinaryKeyword w = true →
      Means v w (.operator w)
  | namedUnary : namedConstants.lookup w = none → v.isBinaryKeyword w = false →
      v.isNamedUnary w = true → Means v w (.namedUnary w)
  | identifier : namedConstants.lookup w = none → v.isBinaryKeyword w = false →
      v.isNamedUnary w = false → Means v w (.identifier w)

theorem means_classify (v : Vocabulary H) (w : String) : v.Means w (v.classify w) := by
  unfold classify
  split
  · exact .constant ‹_›
  rename_i hc
  cases hb : v.isBinaryKeyword w with
  | true => exact .operator hc hb
  | false =>
    cases hu : v.isNamedUnary w with
    | true => exact .namedUnary hc hb hu
    | false => exact .identifier hc hb hu

theorem classify_eq_iff {l : Lexeme} : v.classify w = l ↔ v.Means w l := by
  refine ⟨fun h => h ▸ v.means_classify w, fun h => ?_⟩
  cases h <;> simp [classify, *]

theorem classify_eq_operator : v.classify w = .operator w ↔
    namedConstants.lookup w = none ∧ v.isBinaryKeyword w = true := by
  rw [classify_eq_iff]
  refine ⟨fun h => ?_, fun ⟨hc, hb⟩ => .operator hc hb⟩
  cases h with
  | operator hc hb => exact ⟨hc, hb⟩

theorem classify_eq_namedUnary : v.classify w = .namedUnary w ↔
    namedConstants.lookup w = none ∧ v.isBinaryKeyword w = false ∧ v.isNamedUnary w = true := by
  rw [classify_eq_iff]
  refine ⟨fun h => ?_, fun ⟨hc, hb, hu⟩ => .namedUnary hc hb hu⟩
  cases h with
  | namedUnary hc hb hu => exact ⟨hc, hb, hu⟩

theorem classify_eq_identifier : v.classify w = .identifier w ↔
    namedConstants.lookup w = none ∧ v.isBinaryKeyword w = false ∧ v.isNamedUnary w = false := by
  rw [classify_eq_iff]
  refine ⟨fun h => ?_, fun ⟨hc, hb, hu⟩ => .identifier hc hb hu⟩
  cases h with
  | identifier hc hb hu => exact ⟨hc, hb, hu⟩

/-! ## Lexemes of texts -/

/-- What scanning can find: words stand for themselves, and no number has a sign. -/
def Knows (v : Vocabulary H) : Lexeme → Prop
  | .operator s => isOperatorSymbol s = true ∨
      (Text.isIdentifier s = true ∧ v.classify s = .operator s)
  | .number x | .constant x => Double.IsUnsigned x
  | .namedUnary name => Text.isIdentifier name = true ∧ v.classify name = .namedUnary name
  | .identifier name => Lexeme.IsWord name.toList ∧ v.classify name = .identifier name
  | .text _ | .openParen | .closeParen | .comma => True

theorem isWord_of_isIdentifier {s : String} (h : Text.isIdentifier s = true) :
    Lexeme.IsWord s.toList := by
  unfold Text.isIdentifier at h
  split at h
  · cases h
  · rename_i c others hs
    simp only [Bool.and_eq_true, List.all_eq_true] at h
    have hc : (c == '"') = false := by
      simpa using Text.ne_of_kind Text.isIdentifierStart h.1 (by decide)
    refine ⟨c, others, hs, by simp [opensWord, h.1], ?_⟩
    rw [hc]
    exact Lexeme.spanName_identifier h.2

/-- A known operator is a word, or a symbol without letters. -/
theorem Knows.operator_cases {s : String} (h : v.Knows (.operator s)) :
    (isOperatorSymbol s = true ∧ Text.isIdentifier s = false ∧ Text.hasLetter s = false) ∨
      (Text.isIdentifier s = true ∧ v.classify s = .operator s) := by
  have symbols : ∀ symbol ∈ operatorSymbols,
      Text.isIdentifier symbol.name = false ∧ Text.hasLetter symbol.name = false := by
    decide
  rcases h with hs | hs
  · have := Lexeme.of_isOperatorSymbol
      (p := fun s => Text.isIdentifier s = false ∧ Text.hasLetter s = false) hs symbols
    exact .inl ⟨hs, this⟩
  · exact .inr hs

/-- The lexemes that scanning can find somewhere. -/
def Produces (v : Vocabulary H) (lexeme : Lexeme) : Prop :=
  ∃ cursor located next, Lexeme.next? v.classify cursor = .ok (some (located, next)) ∧
    located.lexeme = lexeme

theorem knows_classify (hw : Lexeme.IsWord w.toList) : v.Knows (v.classify w) := by
  have constants : ∀ c ∈ namedConstants, Double.IsUnsigned c.2 := by
    unfold Double.IsUnsigned
    decide
  generalize hl : v.classify w = l
  cases classify_eq_iff.mp hl with
  | @constant x hc =>
    obtain ⟨others, rest, hsplit, -⟩ := List.lookup_eq_some_iff.mp hc
    refine constants (w, x) ?_
    rw [hsplit]
    simp
  | operator _ hb => exact .inr ⟨(Bool.and_eq_true_iff.mp hb).1, hl⟩
  | namedUnary _ _ hu => exact ⟨(Bool.and_eq_true_iff.mp hu).1, hl⟩
  | identifier => exact ⟨hw, hl⟩

/-- What scanning produces is known. -/
theorem Produces.knows {l : Lexeme} (h : v.Produces l) : v.Knows l := by
  obtain ⟨cursor, located, next, hn, rfl⟩ := h
  obtain ⟨c, rest, -, hr⟩ := Lexeme.next?_some hn
  generalize located.lexeme = l at hr
  cases Lexeme.read_cases hr with
  | openParen | closeParen | comma => trivial
  | symbol _ hs => exact .inl (Lexeme.isOperatorSymbol_name hs)
  | number _ hr =>
    simp only [Lexeme.readNumber] at hr
    split at hr
    · cases hr
      exact Double.isUnsigned_ofScientific
    · cases hr
  | text _ hr =>
    unfold Lexeme.readText at hr
    split at hr
    · cases hr
      trivial
    all_goals cases hr
  | word hc hr =>
    simp only [Lexeme.readWord] at hr
    split at hr
    · cases hr
    · rename_i hq
      cases hr
      refine knows_classify ?_
      rw [String.toList_ofList]
      refine ⟨c, _, rfl, hc, ?_⟩
      have hspan : Lexeme.spanName (c == '"') rest = ((Lexeme.spanName (c == '"') rest).1, false,
          (Lexeme.spanName (c == '"') rest).2.2) := by
        rw [← Bool.eq_false_iff.mpr hq]
      exact Lexeme.spanName_taken hspan

/-- The comma is a lexeme of its own and never an operator. -/
theorem Produces.ne_comma {l : Lexeme} (h : v.Produces l) : l ≠ .operator "," := by
  intro hl
  rw [hl] at h
  rcases h.knows with hs | hs
  · revert hs
    decide
  · have hword := hs.1
    revert hword
    decide

end Vocabulary

end PanelCalc
