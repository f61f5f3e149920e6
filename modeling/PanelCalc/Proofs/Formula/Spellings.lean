import PanelCalc.Proofs.Evaluation.Spellings
import PanelCalc.Proofs.Formula.Compiled
import PanelCalc.Proofs.Syntax.Origin

/-! # Formulas in lower case

The case style of the built-in vocabulary is a matter of spelling. A formula over
the names as they are registered becomes one over the names in lower case when
every built-in name in its text is put in lower case; blanks, comments, quoted
texts and all other names stay as they are. Both formulas have the same program
but for these names, the same variables and the same values. The one condition
is that no other name of the formula, and no name that is bound, looks like a
built-in one in either spelling. -/
namespace PanelCalc

open Vocabulary

variable {H : Type} {text : String} {f : Formula H}

/-- The text of a formula with its built-in names in lower case. -/
def Formula.lowerText (H : Type) (text : String) : String :=
  Lexeme.respellText (builtin .upper : Vocabulary H).classify lowerName text

/-- The lexeme is found in the text, read with the built-in names as they are registered. -/
abbrev Formula.Mentions (H : Type) (text : String) (l : Lexeme) : Prop :=
  Lexeme.Found (builtin .upper : Vocabulary H).classify (.start text) l

/-- Every identifier of the text is a built-in name, or looks like none in either spelling. -/
def Formula.NamesApart (H : Type) (text : String) : Prop :=
  ∀ name, Mentions H text (.identifier name) → name ∈ builtinNames ∨ Foreign name

namespace Formula

theorem named_of_parse (hf : parse (builtin .upper) text = .ok f) (hn : NamesApart H text) :
    ∀ step ∈ f.program, step.Named := by
  obtain ⟨program, hread, rfl⟩ := parse_eq_ok.mp hf
  obtain ⟨ls, hls, hrun⟩ := Grammar.read_eq_ok.mp hread
  intro step hs
  cases step with
  | var name =>
    obtain ⟨l, hl, hmakes⟩ := Builder.exists_makes hrun _ hs
    cases hmakes
    have hknown := (produces_of_lexes hls _ hl).knows
    exact (hn name (hls.found_iff.mpr hl)).imp_left fun hm => function_of_identifier hm hknown.2
  | unary symbol =>
    have hresolves : ((builtin .upper : Vocabulary H).grammar.unaryPriority? symbol).isSome :=
      Builder.resolves_of_run hrun _ hs
    obtain ⟨p, hp⟩ := Option.isSome_iff_exists.mp hresolves
    obtain ⟨e, he, -⟩ := Option.map_eq_some_iff.mp hp
    exact (symbol_of_unary? he).imp_right And.right
  | literal _ | binary _ | call => trivial

/-- Functions are functions and variables are variables in both spellings. -/
theorem freeVariables_rename {program : Program} (h : ∀ step ∈ program, step.Named) :
    freeVariables ⟨program.map (Step.rename lowerName), (builtin .lower : Vocabulary H)⟩ =
      freeVariables ⟨program, (builtin .upper : Vocabulary H)⟩ := by
  unfold freeVariables
  rw [List.filterMap_map]
  refine congrArg List.eraseDups (List.filterMap_congr fun step hs => ?_)
  have hstep := h step hs
  cases step with
  | var name =>
    rcases hstep with ⟨f, rfl⟩ | hforeign
    · have hm := mem_builtinNames_of_function f
      have hupper : (builtin .upper : Vocabulary H).function? f.name = some (builtinEntry .upper f) :=
        function?_builtin .upper f
      simp only [Function.comp_apply, Step.rename, lowerName_of_mem hm, isFunction,
        function?_builtin, hupper]
      rfl
    · simp only [Function.comp_apply, Step.rename, lowerName_of_foreign hforeign, isFunction,
        hforeign.function?]
  | literal _ | unary _ | binary _ | call => rfl

/-- **Case style is only a spelling.** A formula that is read with the built-in
names as they are registered is read in lower case once its built-in names are put
in lower case, to the same program but for these names and with the same
variables. Whatever scalars and panels are bound to other names, and however
panels are aligned, it then has a value if and only if it had one before, and the
same one up to the names of functions; and it fails for the same reason. -/
theorem parse_lowerText [HostFunctions H] (hf : parse (builtin .upper) text = .ok f)
    (hn : NamesApart H text) :
    ∃ f' : Formula H, parse (builtin .lower) (lowerText H text) = .ok f' ∧
      f'.program = f.program.map (Step.rename lowerName) ∧
      f'.freeVariables = f.freeVariables ∧
      ∀ (b : Bindings H) (a : Alignment), b.Over (fun _ => True) → b.Clear →
        (∀ x, f.evaluate b a = .ok x → ∃ y, f'.evaluate b a = .ok y ∧ x.Respelled y) ∧
        ∀ e, f.evaluate b a = .error e → f'.evaluate b a = .error e.respell := by
  have hnamed := named_of_parse hf hn
  have carries (l : Lexeme) (hl : Mentions H text l) : Lexeme.Carries
      (builtin .upper : Vocabulary H).classify (builtin .lower : Vocabulary H).classify
      lowerName l := by
    refine (produces_of_found hl).knows.carries fun name hname => ?_
    exact hn name (hname ▸ hl)
  have hparse := parse_respellText renames_lowerName hf carries
  have hfree := freeVariables_rename (H := H) hnamed
  obtain ⟨hv, hwell⟩ := wellFormed_parse hf
  obtain ⟨t, ht⟩ := Program.wellFormed_iff.mp hwell
  obtain rfl : f = ⟨t.postorder, builtin .upper⟩ := by rw [← hv, ← ht]
  refine ⟨_, hparse, rfl, hfree, fun b a hb hclear => ?_⟩
  rw [← t.postorder_rename, evaluate_postorder, evaluate_postorder]
  have h := t.evaluate_rename (a := a) hb hclear hnamed
  refine ⟨fun x hx => ?_, fun e he => ?_⟩
  · rw [hx] at h
    exact Follows.exists_ok h rfl
  · rw [he] at h
    generalize (t.rename lowerName).evaluate (builtin .lower) b a = answer at h ⊢
    cases h with
    | error => rfl
    | failed h => exact absurd trivial h

example : lowerText Empty "Sum(x, 2) /* Sum */ + Sqrt(\"Sum\")" =
    "sum(x, 2) /* Sum */ + sqrt(\"Sum\")" := by
  decide +kernel

end Formula

namespace Roots

/-- `Max(x,y)-Sqrt(y)` -/
def difference : Program :=
  [.var "Max", .var "x", .var "y", .binary ",", .call, .var "y", .unary "Sqrt", .binary "-"]

/-- `x` and `y`, given as numbers. -/
def bindings : Bindings Empty := ⟨[("x", .scalar 3), ("y", .scalar 4)]⟩

theorem over_bindings : bindings.Over fun _ => True := by
  intro name value h
  simp only [Bindings.get?, bindings, List.lookup_cons] at h
  split at h
  · exact .inl ⟨3, (Option.some.inj h).symm⟩
  · split at h
    · exact .inl ⟨4, (Option.some.inj h).symm⟩
    · cases h

theorem clear_bindings : bindings.Clear := by
  intro style
  cases style <;> decide

/-- Neither `x` nor `y` is a built-in name, and the only other name is that of a function. -/
theorem namesApart : Formula.NamesApart Empty "Max(x,y)-Sqrt(y)" := by
  have name (n : String) (hi : Text.isIdentifier n = true)
      (hc : (builtin .upper : Vocabulary Empty).classify n = .identifier n) :
      (builtin .upper : Vocabulary Empty).Spells (.identifier n) :=
    ⟨⟨isWord_of_isIdentifier hi, hc⟩, trivial⟩
  let ls : List Lexeme := [.identifier "Max", .openParen, .identifier "x", .comma, .identifier "y",
    .closeParen, .operator "-", .namedUnary "Sqrt", .openParen, .identifier "y", .closeParen]
  have hspells : ∀ l ∈ ls, (builtin .upper : Vocabulary Empty).Spells l := by
    simp only [ls, List.forall_mem_cons]
    exact ⟨name _ (by decide) rfl, ⟨trivial, trivial⟩, name _ (by decide) rfl, ⟨trivial, trivial⟩,
      name _ (by decide) rfl, ⟨trivial, trivial⟩, ⟨.inl (by decide), trivial⟩,
      ⟨⟨by decide, rfl⟩, trivial⟩, ⟨trivial, trivial⟩, name _ (by decide) rfl, ⟨trivial, trivial⟩,
      by simp⟩
  have hls := (lexes_spellings hspells (by decide) 0).mpr rfl
  have foreign (style : CaseStyle) : ∀ n ∈ builtinNames, ∀ m ∈ ["x", "y"], style.spell n ≠ m := by
    cases style <;> decide
  intro name hname
  have hm : Lexeme.identifier name ∈ ls := hls.found_iff.mp hname
  obtain rfl | hm : name = "Max" ∨ name ∈ ["x", "y"] := by simpa [ls, or_assoc] using hm
  · exact .inl (by decide)
  · exact .inr fun style n hn => foreign style n hn name hm

end Roots

open Roots in
/-- The greater of two numbers, less a square root. -/
theorem Formula.parse_lowerText_roots : ∃ (f f' : Formula Empty) (z : Float),
    parse (builtin .upper) "Max(x,y)-Sqrt(y)" = .ok f ∧
      parse (builtin .lower) "max(x,y)-sqrt(y)" = .ok f' ∧ f'.freeVariables = ["x", "y"] ∧
      f.evaluate bindings .never = .ok (.scalar z) ∧
      f'.evaluate bindings .never = .ok (.scalar z) := by
  have hf : parse (builtin .upper : Vocabulary Empty) "Max(x,y)-Sqrt(y)" =
      .ok ⟨difference, builtin .upper⟩ :=
    parse_of_read (by decide +kernel)
  obtain ⟨f', hparse, -, hfree, hvalues⟩ := parse_lowerText hf namesApart
  have hlower : lowerText Empty "Max(x,y)-Sqrt(y)" = "max(x,y)-sqrt(y)" := by decide +kernel
  obtain ⟨z, hz⟩ : ∃ z,
      evaluate ⟨difference, builtin .upper⟩ bindings .never = .ok (.scalar z) := ⟨_, rfl⟩
  obtain ⟨y, hy, hzy⟩ := (hvalues bindings .never over_bindings clear_bindings).1 _ hz
  cases hzy
  exact ⟨_, f', z, hf, hlower ▸ hparse, hfree.trans (by decide), hz, hy⟩

end PanelCalc
