import PanelCalc.Proofs.Vocabulary.Extension

/-! # Which entries a formula can mention

Registering checks how a name is spelled. Whether a formula can mention the
entry also depends on what else the name means: a constant is taken for nothing
else, an operator between operands hides an operator before its operand of the
same name, and both hide a function. Of the operators without letters, only the
minus stands before an operand. Where none of this is in the way, the plainest
formula mentions the entry; otherwise no formula does. -/
namespace PanelCalc

variable {H : Type} {v v' : Vocabulary H} {r : Registration H} {a b : String}

namespace Vocabulary

/-- The step that looks up what is registered. -/
def mention (v : Vocabulary H) (r : Registration H) : Step :=
  match r with
  | .unary .. => .unary (v.key r)
  | .binary .. => .binary (v.key r)
  | .function .. => .var (v.key r)

/-- The plainest text that mentions what is registered. -/
def usage (v : Vocabulary H) (r : Registration H) (a b : String) : String :=
  match r with
  | .binary .. => a ++ " " ++ v.key r ++ " " ++ b
  | .unary .. | .function .. => v.key r ++ "(" ++ a ++ ")"

/-- What this text is meant to be read as. -/
def usageProgram (v : Vocabulary H) (r : Registration H) (a b : String) : Program :=
  match r with
  | .unary .. => [.var a, v.mention r]
  | .binary .. => [.var a, .var b, v.mention r]
  | .function .. => [v.mention r, .var a, .call]

/-- Nothing that comes first hides what is registered. -/
def Expressible (v : Vocabulary H) (r : Registration H) : Prop :=
  match r with
  | .unary .. => v.key r = "-" ∨ Text.isIdentifier (v.key r) = true ∧
      namedConstants.lookup (v.key r) = none ∧ v.binary? (v.key r) = none
  | .binary .. => namedConstants.lookup (v.key r) = none
  | .function .. => namedConstants.lookup (v.key r) = none ∧ v.binary? (v.key r) = none ∧
      v.unary? (v.key r) = none

/-- An entry added at the end is found under its own name, if no other is. -/
theorem find?_append_self {α : Type} {entries : List α} (nameOf : α → String) {e : α}
    (h : entries.find? (nameOf · == nameOf e) = none) :
    (entries ++ [e]).find? (nameOf · == nameOf e) = some e := by
  rw [List.find?_append, h, Option.none_or, List.find?_cons_of_pos (by simp)]

/-- Constants are words, and no symbols. -/
theorem lookup_of_isOperatorSymbol {s : String} (hs : isOperatorSymbol s = true) :
    namedConstants.lookup s = none := by
  have symbols : ∀ symbol ∈ operatorSymbols, namedConstants.lookup symbol.name = none := by
    decide
  exact Lexeme.of_isOperatorSymbol (p := fun s => namedConstants.lookup s = none) hs symbols

theorem isBinaryKeyword_eq_false {w : String} (hw : Text.isIdentifier w = true) :
    v.isBinaryKeyword w = false ↔ v.binary? w = none := by
  simp [isBinaryKeyword, hw]

theorem isNamedUnary_eq_false {w : String} (hw : Text.isIdentifier w = true) :
    v.isNamedUnary w = false ↔ v.unary? w = none := by
  simp [isNamedUnary, hw]

/-! ## What hides an entry -/

/-- A lexeme that can be found in a text and makes the step is not hidden. -/
theorem expressible_of_knows (h : v.register r = .ok v') {l : Lexeme} (hl : v'.Knows l)
    (hm : l.Makes (v.mention r)) : v.Expressible r := by
  cases r with
  | unary name priority apply =>
    obtain ⟨-, -, rfl⟩ := registerUnary_ok h
    generalize hs : v.mention (.unary name priority apply) = step at hm
    cases hm with
    | sign => exact .inl (Step.unary.inj hs)
    | namedUnary s =>
      cases hs
      obtain ⟨hi, hc⟩ := hl
      obtain ⟨hnone, hb, -⟩ := classify_eq_namedUnary.mp hc
      exact .inr ⟨hi, hnone, (isBinaryKeyword_eq_false hi).mp hb⟩
    | _ => cases hs
  | binary name priority apply =>
    have hcomma := comma_ne_key h
    generalize hs : v.mention (.binary name priority apply) = step at hm
    cases hm with
    | operator s =>
      cases hs
      rcases hl with hl | ⟨-, hc⟩
      · exact lookup_of_isOperatorSymbol hl
      · exact (classify_eq_operator.mp hc).1
    | comma => exact absurd (Step.binary.inj hs).symm hcomma
    | _ => cases hs
  | function name arity body =>
    obtain ⟨hi, -, rfl⟩ := registerFunction_ok h
    generalize hs : v.mention (.function name arity body) = step at hm
    cases hm with
    | identifier s =>
      cases hs
      obtain ⟨hnone, hb, hu⟩ := classify_eq_identifier.mp hl.2
      exact ⟨hnone, (isBinaryKeyword_eq_false hi).mp hb, (isNamedUnary_eq_false hi).mp hu⟩
    | _ => cases hs

/-- An entry that is hidden has no place in any program. -/
theorem expressible_of_mem (h : v.register r = .ok v') {text : String} {p : Program}
    (hp : v'.grammar.read text = .ok p) (hm : v.mention r ∈ p) : v.Expressible r := by
  obtain ⟨ls, hls, hrun⟩ := Grammar.read_eq_ok.mp hp
  obtain ⟨l, hl, hmakes⟩ := Builder.exists_makes hrun _ hm
  exact expressible_of_knows h (produces_of_lexes hls l hl).knows hmakes

/-! ## What mentions an entry -/

/-- What scanning makes of characters up to the end are their lexemes. -/
theorem lexes_of_scans_nil {ls : List Lexeme} {chars : List Char}
    (h : Lexeme.Scans v.classify chars ls []) (column : Nat) :
    Lexeme.Lexes v.classify ⟨column, chars⟩ ls := by
  obtain ⟨column', hall⟩ := Lexeme.lexes_of_scans h column
  exact (hall ls).mpr ⟨[], by simp, .done Lexeme.next?_nil⟩

/-- An operator is found where a blank comes after it. -/
theorem scans_operator_blank {s : String} {ls : List Lexeme} {rest rest' : List Char}
    (hl : v.Knows (.operator s)) (hs : Lexeme.Scans v.classify rest ls rest') :
    Lexeme.Scans v.classify (s.toList ++ ' ' :: rest) (.operator s :: ls) rest' := by
  rcases hl with hsymbol | ⟨hword, hclass⟩
  · exact .next (Lexeme.next?_symbol hsymbol (by simp)) (.blank hs)
  · exact .next (Lexeme.next?_word (isWord_of_isIdentifier hword) hclass (by simp; decide))
      (.blank hs)

/-- An operator between two names. -/
theorem read_between {s : String} (ha : v.Knows (.identifier a)) (hb : v.Knows (.identifier b))
    (hs : v.Knows (.operator s)) (hp : (v.binary? s).isSome) :
    v.grammar.read (a ++ " " ++ s ++ " " ++ b) = .ok [.var a, .var b, .binary s] := by
  have hscan : Lexeme.Scans v.classify (a ++ " " ++ s ++ " " ++ b).toList
      [.identifier a, .operator s, .identifier b] [] := by
    have hname : Lexeme.Scans v.classify (b.toList ++ []) [.identifier b] [] :=
      scans_spelling ⟨hb, trivial⟩ (by simp) .done
    have htail := scans_operator_blank hs hname
    have hblank : ∀ c ∈ (' ' :: (s.toList ++ ' ' :: (b.toList ++ []))).head?,
        (Lexeme.identifier a).endsBefore c = true := by
      intro c hc
      cases hc
      rfl
    have hall := scans_spelling ⟨ha, trivial⟩ hblank (.blank htail)
    simpa [Lexeme.spelling] using hall
  obtain ⟨e, he⟩ := Option.isSome_iff_exists.mp hp
  refine Grammar.read_eq_ok.mpr ⟨_, lexes_of_scans_nil hscan 0, ?_⟩
  have hpriority : v.grammar.binaryPriority? s = some e.priority := by simp [grammar, he]
  simp only [Builder.run, Builder.accept, Builder.acceptOperator, hpriority]
  rfl

/-- A lexeme before a name in parentheses. -/
theorem read_before {l : Lexeme} {s : String} {p : Program} (hl : v.Spells l)
    (hs : l.spelling = s.toList) (hend : l.endsBefore '(' = true) (ha : v.Knows (.identifier a))
    (hrun : Builder.start.run v.grammar [l, .openParen, .identifier a, .closeParen] = .ok p) :
    v.grammar.read (s ++ "(" ++ a ++ ")") = .ok p := by
  have hspells : ∀ l' ∈ [l, .openParen, .identifier a, .closeParen], v.Spells l' := by
    simp only [List.forall_mem_cons]
    exact ⟨hl, ⟨trivial, trivial⟩, ⟨ha, trivial⟩, ⟨trivial, trivial⟩, by simp⟩
  have hapart : [l, .openParen, .identifier a, .closeParen].IsChain Lexeme.Apart := by
    refine .cons_cons ?_ (.cons_cons (fun _ _ => rfl) (.cons_cons ?_ (.singleton _)))
    · intro c hc
      cases hc
      exact hend
    · intro c hc
      cases hc
      rfl
  have htext : (s ++ "(" ++ a ++ ")").toList = l.spelling ++ '(' :: (a.toList ++ [')']) := by
    simp [hs]
  refine Grammar.read_eq_ok.mpr ⟨_, ?_, hrun⟩
  rw [Text.Cursor.start, htext]
  exact (lexes_spellings hspells hapart 0).mpr rfl

/-- A name in parentheses makes an operand for what waits. -/
theorem run_name {g : Grammar} {builder : Builder} (hd : builder.depth = 0)
    (hb : builder.operands = builder.joins)
    (he : builder.expected.beginsOperand ∨ builder.expected = .group)
    (ho : builder.output = []) :
    builder.run g [.openParen, .identifier a, .closeParen] =
      .ok (.var a :: builder.waiting.map (·.1)) := by
  have hinside : builder.depth + 1 ≠ 0 := by
    rw [hd]
    decide
  rw [Builder.run_cons_ok (Builder.Accepts.opened he).accept,
    Builder.run_cons_ok (Builder.Accepts.operand rfl rfl).accept,
    Builder.run_cons_ok (Builder.Accepts.closed rfl hinside).accept]
  refine Builder.finish_eq_ok.mpr ⟨rfl, ?_, rfl, congrArg (· + 1) hb, by simp [Builder.operand, ho]⟩
  simp [Builder.operand, hd]

theorem read_unary {s : String} {e : UnaryEntry H} (he : v.unary? s = some e)
    (hs : s = "-" ∨ Text.isIdentifier s = true ∧ namedConstants.lookup s = none ∧
      v.binary? s = none) (ha : v.Knows (.identifier a)) :
    v.grammar.read (s ++ "(" ++ a ++ ")") = .ok [.var a, .unary s] := by
  have hpriority : v.grammar.unaryPriority? s = some e.priority := by simp [grammar, he]
  rcases hs with rfl | ⟨hi, hc, hb⟩
  · refine read_before (l := .operator "-") ⟨.inl (by decide), trivial⟩ (by decide) (by decide) ha
      ?_
    rw [Builder.run_cons_ok (Builder.Accepts.minus rfl hpriority).accept]
    exact run_name rfl rfl (.inl rfl) rfl
  · have hnamed : v.isNamedUnary s = true := by simp [isNamedUnary, hi, he]
    have hclass := classify_eq_namedUnary.mpr ⟨hc, (isBinaryKeyword_eq_false hi).mpr hb, hnamed⟩
    refine read_before (l := .namedUnary s) ⟨⟨hi, hclass⟩, trivial⟩ rfl rfl ha ?_
    rw [Builder.run_cons_ok (Builder.Accepts.named rfl hpriority).accept]
    exact run_name rfl rfl (.inr rfl) rfl

theorem read_call {s : String} (hs : v.Knows (.identifier s)) (ha : v.Knows (.identifier a)) :
    v.grammar.read (s ++ "(" ++ a ++ ")") = .ok [.var s, .var a, .call] := by
  refine read_before (l := .identifier s) ⟨hs, trivial⟩ rfl rfl ha ?_
  have hinside : Builder.start.depth + 1 ≠ 0 := by decide
  rw [Builder.run_cons_ok (Builder.Accepts.operand rfl rfl).accept,
    Builder.run_cons_ok (Builder.Accepts.call rfl).accept,
    Builder.run_cons_ok (Builder.Accepts.operand rfl rfl).accept,
    Builder.run_cons_ok (Builder.Accepts.closed rfl hinside).accept]
  refine Builder.finish_eq_ok.mpr ⟨rfl, ?_, rfl, rfl, rfl⟩
  simp [Builder.join, Builder.operand, Builder.start]

/-- **An entry that is not hidden** is what its plainest text mentions. -/
theorem read_usage (h : v.register r = .ok v') (hr : v.Expressible r)
    (ha : v'.Knows (.identifier a)) (hb : v'.Knows (.identifier b)) :
    v'.grammar.read (v.usage r a b) = .ok (v.usageProgram r a b) := by
  cases r with
  | unary name priority apply =>
    obtain ⟨-, hnone, rfl⟩ := registerUnary_ok h
    have hfound := find?_append_self UnaryEntry.symbol
      (e := ⟨v.caseStyle.spell name, priority, apply⟩) hnone
    exact read_unary (e := ⟨v.caseStyle.spell name, priority, apply⟩) hfound hr ha
  | binary name priority apply =>
    obtain ⟨he, hnone, rfl⟩ := registerBinary_ok h
    have hfound := find?_append_self BinaryEntry.symbol
      (e := ⟨v.caseStyle.spell name, priority, apply⟩) hnone
    refine read_between ha hb ?_ (Option.isSome_of_eq_some hfound)
    rcases Bool.or_eq_true_iff.mp he.lexable with hi | hs
    · refine .inr ⟨hi, classify_eq_operator.mpr ⟨hr, ?_⟩⟩
      exact Bool.and_eq_true_iff.mpr ⟨hi, Option.isSome_of_eq_some hfound⟩
    · exact .inl hs
  | function name arity body =>
    obtain ⟨hi, -, rfl⟩ := registerFunction_ok h
    obtain ⟨hc, hb, hu⟩ := hr
    refine read_call ⟨isWord_of_isIdentifier hi, ?_⟩ ha
    exact classify_eq_identifier.mpr
      ⟨hc, (isBinaryKeyword_eq_false hi).mpr hb, (isNamedUnary_eq_false hi).mpr hu⟩

end Vocabulary

/-- A call of a name that is not bound asks the function of that name. -/
theorem Formula.evaluate_call [HostFunctions H] {s : String} {e : FunctionEntry H}
    (he : v.function? s = some e) {bindings : Bindings H} (hfree : bindings.get? s = none)
    (alignment : Alignment) :
    Formula.evaluate ⟨[.var s, .var a, .call], v⟩ bindings alignment =
      v.resolve bindings a >>= fun x => e.invoke alignment x.arguments := by
  have hs : v.resolve bindings s = .ok (.function e) := by
    simp only [Vocabulary.resolve, hfree, he]
  simp only [evaluate, List.foldlM_cons, List.foldlM_nil, Step.run, hs]
  cases v.resolve bindings a with
  | error fault => rfl
  | ok x =>
    simp only [bind, Except.bind, pure, Except.pure, Value.call]
    cases e.invoke alignment x.arguments <;> rfl

/-- **Which entries a formula can mention.** What has just been registered is
mentioned by its plainest text, and by any text at all, if and only if nothing
hides it. A call of a function then asks what was registered. -/
theorem Formula.parse_usage_iff [HostFunctions H] (h : v.register r = .ok v')
    (ha : v.Knows (.identifier a)) (hb : v.Knows (.identifier b)) (hne : a ≠ v.key r)
    (hne' : b ≠ v.key r) :
    (Formula.parse v' (v.usage r a b) = .ok ⟨v.usageProgram r a b, v'⟩ ↔ v.Expressible r) ∧
      ((∃ text f, Formula.parse v' text = .ok f ∧ v.mention r ∈ f.program) ↔ v.Expressible r) ∧
      ∀ name arity body, r = .function name arity body → ∀ bindings alignment,
        bindings.get? (v.key r) = none →
        Formula.evaluate ⟨v.usageProgram r a b, v'⟩ bindings alignment =
          v'.resolve bindings a >>= fun x =>
            FunctionEntry.invoke ⟨v.key r, arity, body⟩ alignment x.arguments := by
  have known {s : String} (hs : v.Knows (.identifier s)) (hn : s ≠ v.key r) :
      v'.Knows (.identifier s) :=
    ⟨hs.1, (Vocabulary.register_agreeAt h hn).classify.trans hs.2⟩
  have written (hr : v.Expressible r) :
      Formula.parse v' (v.usage r a b) = .ok ⟨v.usageProgram r a b, v'⟩ := by
    rw [Formula.parse, Vocabulary.read_usage h hr (known ha hne) (known hb hne')]
    rfl
  have mentioned : v.mention r ∈ v.usageProgram r a b := by
    cases r <;> simp [Vocabulary.usageProgram]
  have expressible {text : String} {f : Formula H} (hf : Formula.parse v' text = .ok f)
      (hm : v.mention r ∈ f.program) : v.Expressible r := by
    unfold Formula.parse at hf
    cases hread : v'.grammar.read text with
    | error e => rw [hread] at hf; cases hf
    | ok p =>
      rw [hread] at hf
      cases hf
      exact Vocabulary.expressible_of_mem h hread hm
  refine ⟨⟨fun hf => expressible hf mentioned, written⟩, ⟨?_, fun hr => ?_⟩, ?_⟩
  · intro hf
    obtain ⟨text, f, hf, hm⟩ := hf
    exact expressible hf hm
  · exact ⟨_, _, written hr, mentioned⟩
  · intro name arity body hr bindings alignment hfree
    subst hr
    obtain ⟨-, hnone, rfl⟩ := Vocabulary.registerFunction_ok h
    have hfound := Vocabulary.find?_append_self FunctionEntry.name
      (e := ⟨v.caseStyle.spell name, arity, body⟩) hnone
    exact evaluate_call (v := { v with functions := v.functions ++ [_] }) hfound hfree alignment

/-- An operator under the name of a constant. -/
def registerPi : Registration Empty := .binary "PI" 0 fun _ x _ => .ok x

/-- Registering takes the name of a constant, but no formula can mention it. -/
theorem Formula.parse_usage_constant : ∃ v',
    (Vocabulary.builtin .upper).register registerPi = .ok v' ∧
      Formula.parse v' "a PI b" ≠ .ok ⟨[.var "a", .var "b", .binary "PI"], v'⟩ ∧
      ∀ text f, Formula.parse v' text = .ok f → .binary "PI" ∉ f.program := by
  obtain ⟨v', hv⟩ : ∃ v', (Vocabulary.builtin .upper).register registerPi = .ok v' := ⟨_, rfl⟩
  have name (n : String) (hn : Text.isIdentifier n = true)
      (hc : (Vocabulary.builtin .upper : Vocabulary Empty).classify n = .identifier n) :
      (Vocabulary.builtin .upper : Vocabulary Empty).Knows (.identifier n) :=
    ⟨Vocabulary.isWord_of_isIdentifier hn, hc⟩
  obtain ⟨husage, hmention, -⟩ := parse_usage_iff hv (name "a" (by decide) rfl)
    (name "b" (by decide) rfl) (by decide) (by decide)
  have hidden : ¬ (Vocabulary.builtin .upper).Expressible registerPi := by
    intro hr
    cases hr
  refine ⟨v', hv, fun hp => hidden (husage.mp hp), ?_⟩
  intro text f hf hm
  exact hidden (hmention.mp ⟨text, f, hf, hm⟩)

end PanelCalc
