import PanelCalc.Proofs.Syntax.Renaming
import PanelCalc.Proofs.Vocabulary.BuiltinOperators
import PanelCalc.Proofs.Vocabulary.Keyed

/-! # Built-in names in lower case

The built-in vocabularies of the two case styles have the same entries under
different names. In neither of them do two names fall together, and none is taken
for a constant or for an operator between operands. So every word of a text means
under its lower-case name what it meant before, as long as no other name looks
like a built-in one in either spelling. -/
namespace PanelCalc

variable {H : Type} {style : CaseStyle} {name : String} {l : Lexeme}

namespace Vocabulary

/-- The built-in names, as they are registered: those of functions and those of operators that are
written like functions. -/
def builtinNames : List String := namedUnaryFunctions.map (·.1) ++ Builtin.all.map (·.name)

/-- A built-in name in lower case, and any other name as it is. -/
def lowerName (name : String) : String :=
  if name ∈ builtinNames then CaseStyle.lower.spell name else name

/-- The name is built in under neither spelling. -/
def Foreign (name : String) : Prop :=
  ∀ style : CaseStyle, ∀ n ∈ builtinNames, style.spell n ≠ name

theorem mem_builtinNames_of_unary {f : String × (Float → Float)} (hf : f ∈ namedUnaryFunctions) :
    f.1 ∈ builtinNames :=
  List.mem_append_left _ (List.mem_map_of_mem hf)

theorem mem_builtinNames_of_function (f : Builtin) : f.name ∈ builtinNames :=
  List.mem_append_right _ (List.mem_map_of_mem (Builtin.mem_all f))

theorem lowerName_of_mem (h : name ∈ builtinNames) : lowerName name = CaseStyle.lower.spell name :=
  if_pos h

theorem lowerName_of_foreign (h : Foreign name) : lowerName name = name :=
  if_neg fun hn => h .upper name hn rfl

/-! ## Entries of built-in names -/

theorem unary?_builtin (style : CaseStyle) {f : String × (Float → Float)}
    (hf : f ∈ namedUnaryFunctions) :
    (builtin style : Vocabulary H).unary? (style.spell f.1) =
      some ⟨style.spell f.1, Priority.named, cellUnary f.1 f.2⟩ :=
  find?_of_nodup (keyed_builtin style).unary (List.mem_cons_of_mem _ (List.mem_map_of_mem hf))

/-- Operators between operands have no upper case in any spelling. -/
theorem binary?_lower : (builtin .lower : Vocabulary H).binary? = (builtin .upper).binary? := by
  have same : ∀ f ∈ binaryFunctions, CaseStyle.lower.spell f.1 = f.1 := by decide +kernel
  have entries : (builtin .lower : Vocabulary H).binary = (builtin .upper).binary := by
    refine congrArg (· ++ [commaEntry]) (List.map_congr_left ?_)
    rintro ⟨name, priority, f⟩ hf
    have hname : CaseStyle.lower.spell name = name := same _ hf
    simp only [hname]
    rfl
  funext s
  rw [binary?, binary?, entries]

/-- A built-in name is a word, and neither a constant nor an operator between operands. -/
theorem plain_of_mem (h : name ∈ builtinNames) (style : CaseStyle) :
    Text.isIdentifier (style.spell name) = true ∧
      namedConstants.lookup (style.spell name) = none ∧
      (builtin style : Vocabulary H).isBinaryKeyword (style.spell name) = false := by
  have apart : ∀ n ∈ builtinNames, Text.isIdentifier (style.spell n) = true ∧
      namedConstants.lookup (style.spell n) = none ∧
      ∀ s ∈ "," :: binaryFunctions.map (style.spell ·.1), s ≠ style.spell n := by
    cases style <;> decide +kernel
  obtain ⟨hword, hconstant, hne⟩ := apart name h
  refine ⟨hword, hconstant, Bool.eq_false_iff.mpr fun hb => ?_⟩
  rcases symbol_of_binary? (Bool.and_eq_true_iff.mp hb).2 with hs | ⟨f, hf, hs⟩
  · exact hne _ (.head _) hs.symm
  · exact hne _ (.tail _ (List.mem_map_of_mem hf)) hs

theorem classify_unary (style : CaseStyle) {f : String × (Float → Float)}
    (hf : f ∈ namedUnaryFunctions) :
    (builtin style : Vocabulary H).classify (style.spell f.1) = .namedUnary (style.spell f.1) := by
  obtain ⟨hword, hconstant, hb⟩ := plain_of_mem (H := H) (mem_builtinNames_of_unary hf) style
  refine classify_eq_namedUnary.mpr ⟨hconstant, hb, ?_⟩
  rw [isNamedUnary, hword, unary?_builtin style hf]
  rfl

/-- No function has the name of an operator before an operand. -/
theorem classify_function (style : CaseStyle) (f : Builtin) :
    (builtin style : Vocabulary H).classify (style.spell f.name) =
      .identifier (style.spell f.name) := by
  have apart : ∀ f ∈ Builtin.all, ∀ s ∈ "-" :: namedUnaryFunctions.map (style.spell ·.1),
      s ≠ style.spell f.name := by
    cases style <;> decide +kernel
  obtain ⟨-, hconstant, hb⟩ := plain_of_mem (H := H) (mem_builtinNames_of_function f) style
  refine classify_eq_identifier.mpr ⟨hconstant, hb, Bool.eq_false_iff.mpr fun hu => ?_⟩
  obtain ⟨e, he⟩ := Option.isSome_iff_exists.mp (Bool.and_eq_true_iff.mp hu).2
  rcases symbol_of_unary? he with hs | ⟨-, g, hg, hs⟩
  · exact apart f (Builtin.mem_all f) _ (.head _) hs.symm
  · exact apart f (Builtin.mem_all f) _ (.tail _ (List.mem_map_of_mem hg)) hs

/-- A name that is no operator is that of a function. -/
theorem function_of_identifier (hm : name ∈ builtinNames)
    (hc : (builtin .upper : Vocabulary H).classify name = .identifier name) :
    ∃ f : Builtin, f.name = name := by
  rcases List.mem_append.mp hm with hm | hm
  · obtain ⟨f, hf, rfl⟩ := List.mem_map.mp hm
    have hu := classify_unary (H := H) .upper hf
    cases hu.symm.trans hc
  · obtain ⟨f, -, rfl⟩ := List.mem_map.mp hm
    exact ⟨f, rfl⟩

/-! ## Other names -/

theorem Foreign.isNamedUnary (h : Foreign name) :
    (builtin style : Vocabulary H).isNamedUnary name = false := by
  refine Bool.eq_false_iff.mpr fun hu => ?_
  obtain ⟨hword, hu⟩ := Bool.and_eq_true_iff.mp hu
  obtain ⟨e, he⟩ := Option.isSome_iff_exists.mp hu
  rcases symbol_of_unary? he with rfl | ⟨-, f, hf, hs⟩
  · exact absurd hword (by decide)
  · exact h style f.1 (mem_builtinNames_of_unary hf) hs

theorem Foreign.function? (h : Foreign name) :
    (builtin style : Vocabulary H).function? name = none := by
  refine Option.eq_none_iff_forall_not_mem.mpr fun e he => ?_
  obtain ⟨f, -, rfl⟩ := List.mem_map.mp (List.mem_of_find?_eq_some he)
  exact h style f.name (mem_builtinNames_of_function f) (by simpa using List.find?_some he)

/-- A word that is no name means the same in both spellings. -/
theorem classify_lower (hl : l.properName? = none)
    (h : (builtin .upper : Vocabulary H).classify name = l) :
    (builtin .lower : Vocabulary H).classify name = l := by
  have hkeyword : (builtin .lower : Vocabulary H).isBinaryKeyword name =
      (builtin .upper : Vocabulary H).isBinaryKeyword name := by
    rw [isBinaryKeyword, isBinaryKeyword, binary?_lower]
  rw [classify_eq_iff] at h ⊢
  cases h with
  | constant hc => exact .constant hc
  | operator hc hb => exact .operator hc (hkeyword.trans hb)
  | namedUnary | identifier => cases hl

/-! ## From one spelling to the other -/

/-- What is found in a text, with or without an error behind it, can be found. -/
theorem produces_of_found {v : Vocabulary H} {cursor : Text.Cursor}
    (h : Lexeme.Found v.classify cursor l) : v.Produces l := by
  induction h with
  | here hn => exact ⟨_, _, _, hn, rfl⟩
  | later _ _ ih => exact ih

/-- **Operators bind alike** in both spellings. -/
theorem renames_lowerName : (builtin .upper : Vocabulary H).grammar.Renames lowerName
    (builtin .lower : Vocabulary H).grammar where
  sign := by decide +kernel
  unary := by
    intro name p hp
    obtain ⟨e, he, rfl⟩ := Option.map_eq_some_iff.mp hp
    rcases symbol_of_unary? he with rfl | ⟨hpriority, f, hf, rfl⟩
    · rw [show lowerName "-" = "-" from by decide +kernel]
      exact hp
    · have hlower : lowerName (CaseStyle.upper.spell f.1) = CaseStyle.lower.spell f.1 :=
        lowerName_of_mem (mem_builtinNames_of_unary hf)
      rw [hlower, hpriority]
      exact Option.map_eq_some_iff.mpr ⟨_, unary?_builtin .lower hf, rfl⟩
  binary := by
    funext s
    simp only [grammar, binary?_lower]

/-- **Words mean the same** in both spellings. -/
theorem Knows.carries (hl : (builtin .upper : Vocabulary H).Knows l)
    (hn : ∀ name, l = .identifier name → name ∈ builtinNames ∨ Foreign name) :
    Lexeme.Carries (builtin .upper : Vocabulary H).classify (builtin .lower : Vocabulary H).classify
      lowerName l := by
  cases l with
  | namedUnary name =>
    obtain ⟨hword, hc⟩ := hl
    obtain ⟨-, -, hu⟩ := classify_eq_namedUnary.mp hc
    obtain ⟨e, he⟩ := Option.isSome_iff_exists.mp (Bool.and_eq_true_iff.mp hu).2
    rcases symbol_of_unary? he with rfl | ⟨-, f, hf, rfl⟩
    · exact absurd hword (by decide)
    · have hm := mem_builtinNames_of_unary hf
      show Lexeme.IsWord (lowerName f.1).toList ∧
        (builtin .lower).classify (lowerName f.1) = .namedUnary (lowerName f.1)
      rw [lowerName_of_mem hm]
      exact ⟨isWord_of_isIdentifier (plain_of_mem (H := H) hm .lower).1, classify_unary .lower hf⟩
  | identifier name =>
    obtain ⟨hword, hc⟩ := hl
    show Lexeme.IsWord (lowerName name).toList ∧
      (builtin .lower).classify (lowerName name) = .identifier (lowerName name)
    rcases hn name rfl with hm | hforeign
    · rw [lowerName_of_mem hm]
      obtain ⟨f, rfl⟩ := function_of_identifier hm hc
      exact ⟨isWord_of_isIdentifier (plain_of_mem (H := H) hm .lower).1, classify_function .lower f⟩
    · rw [lowerName_of_foreign hforeign]
      obtain ⟨hconstant, hb, -⟩ := classify_eq_identifier.mp hc
      rw [isBinaryKeyword, ← binary?_lower] at hb
      exact ⟨hword, classify_eq_identifier.mpr ⟨hconstant, hb, hforeign.isNamedUnary⟩⟩
  | operator | number | text | constant | openParen | closeParen | comma =>
    exact fun word h => classify_lower rfl h

end Vocabulary

end PanelCalc
