import Mathlib.Data.List.TakeWhile
import PanelCalc.Proofs.Lexeme.Trailing

/-! # Formulas between blanks

A formula is read alike with and without the blanks around it. So are its
errors, but not to the letter: without the blanks a column counts from the first
visible character and none lies behind the last one, and an escape sequence that
was broken off by blanks is broken off by the end of the text. -/
namespace PanelCalc

open Text (Cursor Blanks)

/-! ## Trimming -/

namespace Text

/-- The number of blanks that a text begins with. -/
def indent (text : String) : Nat := (text.toList.takeWhile isBlank).length

/-- The column after the last visible character of a text. -/
def visibleEnd (text : String) : Nat := indent text + (trim text).toList.length

/-- A text is what trimming leaves of it, between blanks. -/
theorem exists_blanks (text : String) : ∃ lead tail, Blanks lead ∧ Blanks tail ∧
    lead.length = indent text ∧ text.toList = lead ++ ((trim text).toList ++ tail) := by
  let front := text.toList.dropWhile isBlank
  refine ⟨text.toList.takeWhile isBlank, (front.reverse.takeWhile isBlank).reverse,
    fun c hc => List.mem_takeWhile_imp hc,
    fun c hc => List.mem_takeWhile_imp (List.mem_reverse.mp hc), rfl, ?_⟩
  rw [trim, String.toList_ofList, ← List.reverse_append, List.takeWhile_append_dropWhile,
    List.reverse_reverse, List.takeWhile_append_dropWhile]

end Text

/-! ## Errors -/

namespace CompileError

variable {k first stop : Nat} {e e' : CompileError} {tail : List Char}

/-- The error as it shows in the characters between two columns alone. -/
def within (first stop : Nat) (e : CompileError) : CompileError where
  column := min e.column stop - first
  fault := match e.fault with
    | .lexical (.illegalEscape sequence) =>
      .lexical (.illegalEscape (sequence.take (stop - (e.column + 1))))
    | fault => fault

/-- What becomes of an error if only the characters between two columns are left. -/
inductive Trims (first stop : Nat) : CompileError → CompileError → Prop
  | within (e : CompileError) : Trims first stop e (e.within first stop)
  | backslash {place column : Nat} {c : Char} : Text.isBlank c = true → place + 1 = stop →
      first + column < place → Trims first stop ⟨place, .lexical (.illegalEscape [c])⟩
        ⟨column, .lexical .unterminatedString⟩

theorem column_le_reach (e : CompileError) : e.column ≤ e.reach := by
  unfold reach
  split <;> omega

theorem reach_shift : (e.shift k).reach = e.reach + k := by
  obtain ⟨column, fault⟩ := e
  unfold reach shift
  simp only
  split
  · omega
  · rfl

/-- An error that shows between the columns is that of the characters between them. -/
theorem within_shift (h : e.reach ≤ stop) : (e.shift k).within k (k + stop) = e := by
  obtain ⟨column, fault⟩ := e
  have hc := (column_le_reach _).trans h
  simp only at hc
  have hcolumn : min (column + k) (k + stop) - k = column := by omega
  cases fault with
  | structural fault => simp [within, shift, hcolumn]
  | lexical fault =>
    cases fault with
    | illegalEscape sequence =>
      simp only [reach] at h
      have ht : sequence.take (k + stop - (column + k + 1)) = sequence :=
        List.take_of_length_le (by omega)
      simp [within, shift, hcolumn, ht]
    | _ => simp [within, shift, hcolumn]

/-- An error at the end of a text is one at the end of what is left. -/
theorem trims_end {last : Nat} (fault : ParseFault) (h : first + stop ≤ last) :
    Trims first (first + stop) ⟨last, .structural fault⟩ ⟨stop, .structural fault⟩ := by
  have hw : Trims first (first + stop) ⟨last, .structural fault⟩ _ := .within _
  simpa only [CompileError.within, Nat.min_eq_right h, Nat.add_sub_cancel_left] using hw

/-- An error of characters alone is what becomes of their error between blanks. -/
theorem Extends.trims (ht : Blanks tail) (h : e.Extends tail stop e') (hr : e.reach ≤ stop) :
    Trims k (k + stop) (e'.shift k) e := by
  cases h with
  | same =>
    have hw : Trims k (k + stop) (e.shift k) _ := .within _
    rwa [within_shift hr] at hw
  | backslash hp hstop hc =>
    refine .backslash (ht _ (List.mem_of_mem_head? hc)) ?_ ?_
    all_goals
      simp only
      omega
  | @escape place sequence hstop hl =>
    have hw : Trims k (k + stop)
        (shift k ⟨place, .lexical (.illegalEscape ((sequence ++ tail).take 5))⟩) _ := .within _
    have hcolumn : min (place + k) (k + stop) - k = place := by omega
    have hleft : k + stop - (place + k + 1) = sequence.length := by omega
    have htake : ((sequence ++ tail).take 5).take sequence.length = sequence := by
      rw [List.take_take, Nat.min_eq_left hl.le, List.take_left]
    simp only [CompileError.within, shift, hcolumn, hleft, htake] at hw
    exact hw

/-- The error is the same if no blanks come first and it does not show in those
that come last. -/
theorem Extends.eq_shift_iff (h : e.Extends tail stop e') (hr : e.reach ≤ stop) :
    e = e'.shift k ↔ k = 0 ∧ (e'.shift k).reach ≤ k + stop := by
  cases h with
  | same =>
    rw [reach_shift]
    constructor
    · intro heq
      have hcolumn : e.column = e.column + k := congrArg CompileError.column heq
      omega
    · rintro ⟨rfl, -⟩
      rfl
  | backslash hp hstop hc =>
    rw [reach_shift]
    constructor
    · intro heq
      cases congrArg CompileError.fault heq
    · rintro ⟨-, hreach⟩
      simp only [reach, List.length_singleton] at hreach
      omega
  | @escape place sequence hstop hl =>
    rw [reach_shift]
    constructor
    · intro heq
      have hcolumn : place = place + k := congrArg CompileError.column heq
      have hsequence : sequence = (sequence ++ tail).take 5 := by
        simpa [shift] using congrArg CompileError.fault heq
      simp only [reach, ← hsequence]
      omega
    · rintro ⟨rfl, hreach⟩
      simp only [reach, List.length_take, List.length_append] at hreach
      have hnil : tail = [] := List.length_eq_zero_iff.mp (by omega)
      subst hnil
      rw [List.append_nil, List.take_of_length_le hl.le]
      rfl

end CompileError

/-! ## Reading -/

namespace Lexeme

variable {σ : Type} {classify : String → Lexeme} {take : σ → Located → Except CompileError σ}
  {state : σ} {column : Nat} {lead rest : List Char}

theorem fold_blanks (hl : Blanks lead) : fold classify take state ⟨column, lead ++ rest⟩ =
    fold classify take state ⟨column + lead.length, rest⟩ := by
  have same : next? classify ⟨column, lead ++ rest⟩ = _ :=
    next?_of_trivia_append (.of_blanks hl) column rest
  cases hn : next? classify ⟨column + lead.length, rest⟩ with
  | error e => rw [fold_of_error (same.trans hn), fold_of_error hn]
  | ok answer =>
    cases answer with
    | none => rw [fold_of_none (same.trans hn), fold_of_none hn]
    | some found => rw [fold_of_some (same.trans hn), fold_of_some hn]

end Lexeme

namespace Grammar

variable {g : Grammar} {b : Builder} {text : String}

theorem take_reach {located : Located} {e : CompileError} (h : g.take b located = .error e) :
    e.reach ≤ located.column := by
  obtain ⟨fault, -, rfl⟩ := take_eq_error.mp h
  exact le_rfl

/-- What is taken of a text between blanks, from what is taken of the text with
the blanks behind it. -/
theorem fold_trim {lead tail : List Char} (hl : Blanks lead)
    (htext : text.toList = lead ++ ((Text.trim text).toList ++ tail)) :
    Lexeme.fold g.classify g.take b (.start text) =
      (Lexeme.fold g.classify g.take b ((Cursor.start (Text.trim text)).extend tail)).mapError
        (·.shift lead.length) := by
  have hstart : (⟨0 + lead.length, (Text.trim text).toList ++ tail⟩ : Cursor) =
      ((Cursor.start (Text.trim text)).extend tail).shift lead.length := by
    simp only [Cursor.start, Cursor.extend, Cursor.shift]
  rw [Cursor.start, htext, Lexeme.fold_blanks hl, hstart, Lexeme.fold_shift fun _ => take_shift _]

/-- **Blanks around a text** do not matter to what it is read as, and to its error
only as far as it shows in them. -/
theorem read_trim (g : Grammar) (text : String) :
    (∀ program, g.read text = .ok program ↔ g.read (Text.trim text) = .ok program) ∧
      ∀ e, g.read text = .error e → ∃ e', g.read (Text.trim text) = .error e' ∧
        CompileError.Trims (Text.indent text) (Text.visibleEnd text) e e' ∧
        (e' = e ↔ Text.indent text = 0 ∧ e.reach ≤ Text.visibleEnd text) := by
  obtain ⟨lead, tail, hl, ht, hindent, htext⟩ := Text.exists_blanks text
  have hwritten := fold_trim (g := g) (b := .start) hl htext
  have hbehind : Extended tail _ id
      (Lexeme.fold g.classify g.take .start (.start (Text.trim text))) _ := Lexeme.fold_append ht
  rw [Cursor.endColumn_start] at hbehind
  have hlength := congrArg List.length htext
  simp only [List.length_append] at hlength
  unfold read Text.visibleEnd
  rw [← hindent, Cursor.endColumn_start, Cursor.endColumn_start]
  cases hfold : Lexeme.fold g.classify g.take .start (.start (Text.trim text)) with
  | error e' =>
    obtain ⟨e, he, hextends⟩ := hbehind.of_error hfold
    have hreach := Lexeme.fold_reach (fun _ _ _ => take_reach) hfold
    rw [Cursor.endColumn_start] at hreach
    rw [hwritten, he]
    refine ⟨fun program => ⟨nofun, nofun⟩, fun written h => ⟨e', rfl, ?_⟩⟩
    cases h
    exact ⟨hextends.trims ht hreach, hextends.eq_shift_iff hreach⟩
  | ok built =>
    rw [hwritten, hbehind.of_ok hfold]
    simp only [id, Except.mapError, bind, Except.bind]
    cases built.finish with
    | ok program => exact ⟨fun _ => Iff.rfl, nofun⟩
    | error fault =>
      refine ⟨fun program => ⟨nofun, nofun⟩, fun written h => ⟨_, rfl, ?_⟩⟩
      cases h
      refine ⟨CompileError.trims_end fault (by omega), ?_⟩
      simp only [CompileError.reach, CompileError.mk.injEq, and_true]
      omega

end Grammar

/-- Formulas between blanks are those without the blanks. -/
theorem Formula.parse_trim {H : Type} (v : Vocabulary H) (text : String) :
    (∀ f, parse v text = .ok f ↔ parse v (Text.trim text) = .ok f) ∧
      ∀ e, parse v text = .error e → ∃ e', parse v (Text.trim text) = .error e' ∧
        CompileError.Trims (Text.indent text) (Text.visibleEnd text) e e' ∧
        (e' = e ↔ Text.indent text = 0 ∧ e.reach ≤ Text.visibleEnd text) := by
  obtain ⟨hok, herror⟩ := v.grammar.read_trim text
  unfold parse
  cases hr : v.grammar.read text with
  | ok program =>
    rw [(hok program).mp hr]
    exact ⟨fun _ => Iff.rfl, nofun⟩
  | error e =>
    obtain ⟨e', hr', h⟩ := herror e hr
    rw [hr']
    refine ⟨fun f => ⟨nofun, nofun⟩, fun written hw => ⟨e', rfl, ?_⟩⟩
    cases hw
    exact h

end PanelCalc
