import Mathlib.Logic.Function.Basic
import PanelCalc.Proofs.Formula.Resolution
import PanelCalc.Proofs.Text.LowerCase
import PanelCalc.Proofs.Vocabulary.Keyed
import PanelCalc.Proofs.Vocabulary.Usage

/-! # Registering in place

A vocabulary may be kept in three tables that are changed in place. A call that
registers something checks the name as it is spelled, and spells it once more when
it stores the entry, in place of any other of that name. Whatever calls have come
before, it never meets another entry there: it stores one that is new, or fails
and leaves the tables alone. So no entry is ever replaced, and what is checked of
a new entry holds of all. -/
namespace PanelCalc

variable {H : Type}

/-- Entries by the names that they are stored under. -/
structure Tables (H : Type) where
  unary : String → Option (UnaryEntry H)
  binary : String → Option (BinaryEntry H)
  functions : String → Option (FunctionEntry H)

/-- The entries of a vocabulary by name. -/
def Vocabulary.tables (v : Vocabulary H) : Tables H := ⟨v.unary?, v.binary?, v.function?⟩

namespace Tables

/-! ## Storing entries -/

/-- Stores an operator before its operand under its name, in place of any other. -/
def insertUnary (style : CaseStyle) (name : String) (priority : Int)
    (apply : Alignment → Value H → Except EvalError (Value H)) (t : Tables H) : Tables H :=
  let symbol := style.spell name
  { t with unary := Function.update t.unary symbol (some { symbol, priority, apply }) }

/-- Stores an operator between operands under its name, in place of any other. -/
def insertBinary (style : CaseStyle) (name : String) (priority : Int)
    (apply : Alignment → Value H → Value H → Except EvalError (Value H)) (t : Tables H) :
    Tables H :=
  let symbol := style.spell name
  { t with binary := Function.update t.binary symbol (some { symbol, priority, apply }) }

/-- Stores a function under its name, in place of any other. -/
def insertFunction (style : CaseStyle) (name : String) (arity : Arity) (body : FunctionBody H)
    (t : Tables H) : Tables H :=
  let name := style.spell name
  { t with functions := Function.update t.functions name (some { name, arity, body }) }

/-- Registers something in place. What was stored before a failure would stay. -/
def register (style : CaseStyle) : Registration H → ExceptT RegisterError (StateM (Tables H)) Unit
  | .unary name priority apply => do
    let key := style.spell name
    if ((← get).unary key).isSome then throw (.duplicate key .unary)
    if !isLexable key then throw (.unlexableSymbol key)
    if key = "+" then throw (.signOperator key)
    ExceptT.mk (pure (Vocabulary.checkPriority key priority))
    modify (insertUnary style key priority apply)
  | .binary name priority apply => do
    let key := style.spell name
    if ((← get).binary key).isSome then throw (.duplicate key .binary)
    if !isLexable key then throw (.unlexableSymbol key)
    ExceptT.mk (pure (Vocabulary.checkPriority key priority))
    modify (insertBinary style key priority apply)
  | .function name arity body => do
    let key := style.spell name
    if ((← get).functions key).isSome then throw (.duplicate key .functions)
    if !Text.isIdentifier key then throw (.unlexableSymbol key)
    modify (insertFunction style key arity body)

/-- What a call looks at before it stores anything. -/
def check (style : CaseStyle) (t : Tables H) : Registration H → Except RegisterError Unit
  | .unary name priority _ => do
    let key := style.spell name
    if (t.unary key).isSome then throw (.duplicate key .unary)
    if !isLexable key then throw (.unlexableSymbol key)
    if key = "+" then throw (.signOperator key)
    Vocabulary.checkPriority key priority
  | .binary name priority _ => do
    let key := style.spell name
    if (t.binary key).isSome then throw (.duplicate key .binary)
    if !isLexable key then throw (.unlexableSymbol key)
    Vocabulary.checkPriority key priority
  | .function name _ _ => do
    let key := style.spell name
    if (t.functions key).isSome then throw (.duplicate key .functions)
    if !Text.isIdentifier key then throw (.unlexableSymbol key)

/-- Stores what a call registers under its name, which is spelled twice. -/
def insert (style : CaseStyle) (t : Tables H) : Registration H → Tables H
  | .unary name priority apply => insertUnary style (style.spell name) priority apply t
  | .binary name priority apply => insertBinary style (style.spell name) priority apply t
  | .function name arity body => insertFunction style (style.spell name) arity body t

/-! ## Calls that change tables in place -/

section InPlace

variable {σ ε : Type} {s s' : σ} {e : ε} {x : Except ε Unit} {p : Prop} [Decidable p]

/-- What a call leaves that goes from one state to another where a check finds nothing wrong. -/
def checked (x : Except ε Unit) (s s' : σ) : Except ε Unit × σ :=
  match x with
  | .ok () => (.ok (), s')
  | .error e => (.error e, s)

theorem checked_ite :
    checked (if p then .error e else x) s s' = if p then (.error e, s) else checked x s s' := by
  by_cases hp : p
  · rw [if_pos hp, if_pos hp]
    rfl
  · rw [if_neg hp, if_neg hp]

theorem throwing (rest : Except ε σ) :
    (if p then throw e >>= fun _ : PUnit => rest else rest) = if p then .error e else rest := by
  split <;> rfl

theorem throwing_last :
    (if p then throw e else pure () : Except ε Unit) = if p then .error e else .ok () := by
  split <;> rfl

theorem map_ite (f : Unit → σ) : Except.map f (if p then .error e else x) =
    if p then .error e else Except.map f x := by
  split <;> rfl

theorem bind_pure_eq_map (y : σ) : (x >>= fun _ => pure y) = x.map fun _ => y := by
  cases x <;> rfl

/-- A check that fails ends a call, and the state stays as it is. -/
theorem run_throwing (rest : ExceptT ε (StateM σ) Unit) :
    (if p then throw e >>= fun _ : PUnit => rest else rest).run s =
      if p then (.error e, s) else rest.run s := by
  split <;> rfl

theorem run_get (rest : σ → ExceptT ε (StateM σ) Unit) :
    (get >>= rest).run s = (rest s).run s := rfl

theorem run_modify (f : σ → σ) :
    (modify f : ExceptT ε (StateM σ) Unit).run s = checked (.ok ()) s (f s) := rfl

theorem run_checked_modify (f : σ → σ) :
    (ExceptT.mk (pure x) >>= fun _ => (modify f : ExceptT ε (StateM σ) Unit)).run s =
      checked x s (f s) := by
  cases x <;> rfl

end InPlace

/-- A call stores its entry where all is well, and leaves the tables alone otherwise. -/
theorem run_register (style : CaseStyle) (t : Tables H) (r : Registration H) :
    (register style r).run t = checked (t.check style r) t (t.insert style r) := by
  cases r with
  | unary | binary =>
    simp only [register, check, insert, run_get, run_throwing, run_checked_modify, throwing,
      checked_ite]
  | function =>
    simp only [register, check, insert, run_get, run_throwing, run_modify, throwing, throwing_last,
      checked_ite]

/-- The tables that a history of calls leaves. -/
def after (style : CaseStyle) (t : Tables H) (history : List (Registration H)) : Tables H :=
  history.foldl (fun t r => ((register style r).run t).2) t

end Tables

namespace Vocabulary

variable {v v' start : Vocabulary H} {r : Registration H} {style : CaseStyle}

/-- The vocabulary with what is registered. -/
def extended (v : Vocabulary H) : Registration H → Vocabulary H
  | .unary name priority apply =>
    { v with unary := v.unary ++ [⟨v.caseStyle.spell name, priority, apply⟩] }
  | .binary name priority apply =>
    { v with binary := v.binary ++ [⟨v.caseStyle.spell name, priority, apply⟩] }
  | .function name arity body =>
    { v with functions := v.functions ++ [⟨v.caseStyle.spell name, arity, body⟩] }

theorem register_eq (v : Vocabulary H) (r : Registration H) :
    v.register r = (v.tables.check v.caseStyle r).map fun _ => v.extended r := by
  cases r with
  | unary =>
    simp only [register, registerUnary, Tables.check, Tables.throwing, Tables.map_ite,
      Tables.bind_pure_eq_map, extended, tables]
  | binary =>
    simp only [register, registerBinary, Tables.check, Tables.throwing, Tables.map_ite,
      Tables.bind_pure_eq_map, extended, tables]
  | function =>
    simp only [register, registerFunction, Tables.check, Tables.throwing, Tables.throwing_last,
      Tables.map_ite, extended, tables]
    rfl

/-- An entry added at the end is stored where there was none. -/
theorem lookup_concat {α : Type} {entries : List α} (nameOf : α → String) {e : α}
    (hfree : entries.find? (nameOf · == nameOf e) = none) :
    (fun name => (entries ++ [e]).find? (nameOf · == name)) =
      Function.update (fun name => entries.find? (nameOf · == name)) (nameOf e) (some e) := by
  funext name
  by_cases hname : name = nameOf e
  · rw [hname, Function.update_self, find?_append_self nameOf hfree]
  · rw [Function.update_of_ne hname, find?_append_of_ne entries hname]

/-- The name is the same when it is spelled again, and no other entry is in its place. -/
theorem tables_extended (h : v.register r = .ok v') :
    (v.extended r).tables = v.tables.insert v.caseStyle r := by
  cases r with
  | unary name priority apply =>
    obtain ⟨-, hfree, -⟩ := registerUnary_ok h
    rw [Tables.insert, Tables.insertUnary, CaseStyle.spell_spell]
    exact congrArg (Tables.mk · v.binary? v.function?)
      (lookup_concat UnaryEntry.symbol (e := ⟨v.caseStyle.spell name, priority, apply⟩) hfree)
  | binary name priority apply =>
    obtain ⟨-, hfree, -⟩ := registerBinary_ok h
    rw [Tables.insert, Tables.insertBinary, CaseStyle.spell_spell]
    exact congrArg (Tables.mk v.unary? · v.function?)
      (lookup_concat BinaryEntry.symbol (e := ⟨v.caseStyle.spell name, priority, apply⟩) hfree)
  | function name arity body =>
    obtain ⟨-, hfree, -⟩ := registerFunction_ok h
    rw [Tables.insert, Tables.insertFunction, CaseStyle.spell_spell]
    exact congrArg (Tables.mk v.unary? v.binary? ·)
      (lookup_concat FunctionEntry.name (e := ⟨v.caseStyle.spell name, arity, body⟩) hfree)

/-- **Registering in place** does to the tables of a vocabulary what registering does to it. -/
theorem run_register (hstyle : v.caseStyle = style) (r : Registration H) :
    (Tables.register style r).run v.tables = match v.register r with
      | .ok v' => (.ok (), v'.tables)
      | .error e => (.error e, v.tables) := by
  subst hstyle
  rw [Tables.run_register]
  have hregister := register_eq v r
  cases hc : v.tables.check v.caseStyle r with
  | error e =>
    rw [hc] at hregister
    rw [hregister]
    rfl
  | ok u =>
    rw [hc] at hregister
    rw [hregister]
    exact congrArg (Prod.mk _) (tables_extended hregister).symm

variable {e : RegisterError} {t : Tables H}

/-- A call that fails leaves all tables as they are. -/
theorem eq_of_run_error (hstyle : v.caseStyle = style)
    (h : (Tables.register style r).run v.tables = (.error e, t)) :
    v.register r = .error e ∧ t = v.tables := by
  rw [run_register hstyle] at h
  cases hr : v.register r with
  | error e' =>
    rw [hr] at h
    cases h
    exact ⟨rfl, rfl⟩
  | ok v' =>
    rw [hr] at h
    cases h

theorem eq_of_run_ok (hstyle : v.caseStyle = style)
    (h : (Tables.register style r).run v.tables = (.ok (), t)) :
    ∃ v', v.register r = .ok v' ∧ v'.tables = t := by
  rw [run_register hstyle] at h
  cases hr : v.register r with
  | error e' =>
    rw [hr] at h
    cases h
  | ok v' =>
    rw [hr] at h
    cases h
    exact ⟨v', rfl, rfl⟩

theorem caseStyle_register (h : v.register r = .ok v') : v'.caseStyle = v.caseStyle := by
  cases r with
  | unary =>
    obtain ⟨-, -, rfl⟩ := registerUnary_ok h
    rfl
  | binary =>
    obtain ⟨-, -, rfl⟩ := registerBinary_ok h
    rfl
  | function =>
    obtain ⟨-, -, rfl⟩ := registerFunction_ok h
    rfl

theorem Reachable.caseStyle (h : Reachable start v) : v.caseStyle = start.caseStyle := by
  induction h with
  | start => rfl
  | register r _ hr ih => exact (caseStyle_register hr).trans ih

/-- A history of calls, failures included, leads to the tables of a vocabulary. -/
theorem exists_after (hstyle : start.caseStyle = style) (history : List (Registration H)) :
    ∃ v, Reachable start v ∧ v.tables = start.tables.after style history := by
  induction history using List.reverseRecOn with
  | nil => exact ⟨start, .start, rfl⟩
  | append_singleton history r ih =>
    obtain ⟨v, hv, htables⟩ := ih
    have hlast : start.tables.after style (history ++ [r]) =
        ((Tables.register style r).run v.tables).2 := by
      rw [htables, Tables.after, List.foldl_append]
      rfl
    rw [hlast, run_register (hv.caseStyle.trans hstyle)]
    cases hr : v.register r with
    | error e => exact ⟨v, hv, rfl⟩
    | ok v' => exact ⟨v', .register r hv hr, rfl⟩

end Vocabulary

/-! ## What registering never does -/

namespace Tables

/-- One entry more, in its own table, under the name as it is spelled, which was free. -/
def Adds (style : CaseStyle) (t : Tables H) : Registration H → Tables H → Prop
  | .unary name priority apply, t' => t.unary (style.spell name) = none ∧
      t' = ⟨Function.update t.unary (style.spell name) (some ⟨style.spell name, priority, apply⟩),
        t.binary, t.functions⟩
  | .binary name priority apply, t' => t.binary (style.spell name) = none ∧
      t' = ⟨t.unary,
        Function.update t.binary (style.spell name) (some ⟨style.spell name, priority, apply⟩),
        t.functions⟩
  | .function name arity body, t' => t.functions (style.spell name) = none ∧
      t' = ⟨t.unary, t.binary,
        Function.update t.functions (style.spell name) (some ⟨style.spell name, arity, body⟩)⟩

/-- Every entry is still in its place. -/
structure Keeps (t t' : Tables H) : Prop where
  unary : ∀ name e, t.unary name = some e → t'.unary name = some e
  binary : ∀ name e, t.binary name = some e → t'.binary name = some e
  functions : ∀ name e, t.functions name = some e → t'.functions name = some e

theorem Keeps.refl (t : Tables H) : t.Keeps t :=
  ⟨fun _ _ h => h, fun _ _ h => h, fun _ _ h => h⟩

theorem Keeps.trans {t t' t'' : Tables H} (h : t.Keeps t') (h' : t'.Keeps t'') : t.Keeps t'' where
  unary name e he := h'.unary name e (h.unary name e he)
  binary name e he := h'.binary name e (h.binary name e he)
  functions name e he := h'.functions name e (h.functions name e he)

theorem update_of_some {α : Type} {entries : String → Option α} {key name : String} {e : α}
    (hfree : entries key = none) (h : entries name = some e) (x : Option α) :
    Function.update entries key x name = some e := by
  rw [Function.update_of_ne, h]
  rintro rfl
  rw [hfree] at h
  cases h

theorem Adds.keeps {style : CaseStyle} {t t' : Tables H} {r : Registration H}
    (h : t.Adds style r t') : t.Keeps t' := by
  cases r with
  | unary =>
    obtain ⟨hfree, rfl⟩ := h
    exact ⟨fun _ _ he => update_of_some hfree he _, fun _ _ he => he, fun _ _ he => he⟩
  | binary =>
    obtain ⟨hfree, rfl⟩ := h
    exact ⟨fun _ _ he => he, fun _ _ he => update_of_some hfree he _, fun _ _ he => he⟩
  | function =>
    obtain ⟨hfree, rfl⟩ := h
    exact ⟨fun _ _ he => he, fun _ _ he => he, fun _ _ he => update_of_some hfree he _⟩

/-- Whether a name is an identifier, or a symbol that is read as the operator of that very name. -/
def Expressible (name : String) : Prop :=
  Text.isIdentifier name ∨ ∀ classify column,
    Lexeme.Lexes classify ⟨column, name.toList⟩ [.operator name]

/-- What holds of all entries. The built-in comma alone is no operator that could be registered. -/
structure Safe (style : CaseStyle) (t : Tables H) : Prop where
  unary : ∀ name e, t.unary name = some e → e.symbol = name ∧ style.spell name = name ∧
    Expressible name ∧ name ≠ "+" ∧ 0 ≤ e.priority ∧ e.priority ≤ Priority.highest
  binary : ∀ name e, t.binary name = some e → e.symbol = name ∧ style.spell name = name ∧
    (e = Vocabulary.commaEntry ∨
      Expressible name ∧ 0 ≤ e.priority ∧ e.priority ≤ Priority.highest)
  functions : ∀ name e, t.functions name = some e → e.name = name ∧ style.spell name = name ∧
    Text.isIdentifier name

end Tables

namespace Vocabulary

variable {v v' start : Vocabulary H} {r : Registration H} {style : CaseStyle}

theorem adds_of_register (h : v.register r = .ok v') : v.tables.Adds v.caseStyle r v'.tables := by
  have hextended : v.extended r = v' := by
    have hregister := register_eq v r
    rw [h] at hregister
    cases hc : v.tables.check v.caseStyle r with
    | error e =>
      rw [hc] at hregister
      cases hregister
    | ok u =>
      rw [hc] at hregister
      exact (Except.ok.inj hregister).symm
  have htables := tables_extended h
  rw [hextended] at htables
  cases r with
  | unary name priority apply =>
    rw [Tables.insert, Tables.insertUnary, CaseStyle.spell_spell] at htables
    exact ⟨(registerUnary_ok h).2.1, htables⟩
  | binary name priority apply =>
    rw [Tables.insert, Tables.insertBinary, CaseStyle.spell_spell] at htables
    exact ⟨(registerBinary_ok h).2.1, htables⟩
  | function name arity body =>
    rw [Tables.insert, Tables.insertFunction, CaseStyle.spell_spell] at htables
    exact ⟨(registerFunction_ok h).2.1, htables⟩

theorem Reachable.keeps (h : Reachable start v) : start.tables.Keeps v.tables := by
  induction h with
  | start => exact .refl _
  | register r _ hr ih => exact ih.trans (adds_of_register hr).keeps

theorem Reachable.keyed (h : Reachable start v) (hs : start.Keyed) : v.Keyed := by
  induction h with
  | start => exact hs
  | register r _ hr ih => exact ih.register hr

/-- Names are stored as they are spelled. -/
structure Spelled (v : Vocabulary H) : Prop where
  unary : ∀ e ∈ v.unary, v.caseStyle.spell e.symbol = e.symbol
  binary : ∀ e ∈ v.binary, v.caseStyle.spell e.symbol = e.symbol
  functions : ∀ e ∈ v.functions, v.caseStyle.spell e.name = e.name

theorem Spelled.register (hv : v.Spelled) (h : v.register r = .ok v') : v'.Spelled := by
  cases r with
  | unary name priority apply =>
    obtain ⟨-, -, rfl⟩ := registerUnary_ok h
    exact ⟨List.forall_mem_append.mpr ⟨hv.unary, List.forall_mem_singleton.mpr
      (CaseStyle.spell_spell ..)⟩, hv.binary, hv.functions⟩
  | binary name priority apply =>
    obtain ⟨-, -, rfl⟩ := registerBinary_ok h
    exact ⟨hv.unary, List.forall_mem_append.mpr ⟨hv.binary, List.forall_mem_singleton.mpr
      (CaseStyle.spell_spell ..)⟩, hv.functions⟩
  | function name arity body =>
    obtain ⟨-, -, rfl⟩ := registerFunction_ok h
    exact ⟨hv.unary, hv.binary, List.forall_mem_append.mpr ⟨hv.functions,
      List.forall_mem_singleton.mpr (CaseStyle.spell_spell ..)⟩⟩

theorem Reachable.spelled (h : Reachable start v) (hs : start.Spelled) : v.Spelled := by
  induction h with
  | start => exact hs
  | register r _ hr ih => exact ih.register hr

theorem spelled_empty (style : CaseStyle) : (empty style : Vocabulary H).Spelled :=
  ⟨by simp [empty], by simp [empty], by simp [empty]⟩

theorem spelled_builtin (style : CaseStyle) : (builtin style : Vocabulary H).Spelled := by
  refine ⟨?_, ?_, ?_⟩
  · intro e he
    rcases List.mem_cons.mp he with rfl | he
    · show style.spell "-" = "-"
      cases style <;> decide
    · obtain ⟨f, -, rfl⟩ := List.mem_map.mp he
      exact CaseStyle.spell_spell ..
  · intro e he
    rcases List.mem_append.mp he with he | he
    · obtain ⟨f, -, rfl⟩ := List.mem_map.mp he
      exact CaseStyle.spell_spell ..
    · rw [List.mem_singleton.mp he]
      show style.spell "," = ","
      cases style <;> decide
  · intro e he
    obtain ⟨f, -, rfl⟩ := List.mem_map.mp he
    exact CaseStyle.spell_spell ..

theorem expressible_of_isLexable {name : String} (h : isLexable name) :
    Tables.Expressible name := by
  rcases (Bool.or_eq_true ..).mp h with h | h
  · exact .inl h
  · refine .inr fun classify column => ?_
    have hend : ∀ c ∈ ([] : List Char).head?, c ≠ '=' ∧ c ≠ '*' := nofun
    obtain ⟨column', hnext⟩ := Lexeme.next?_symbol h hend column
    rw [List.append_nil] at hnext
    exact .next hnext (.done Lexeme.next?_nil)

theorem safe_tables (hformed : v.WellFormed) (hspelled : v.Spelled) :
    v.tables.Safe v.caseStyle where
  unary name e he := by
    have hmem := List.mem_of_find?_eq_some he
    obtain rfl : e.symbol = name := by simpa using List.find?_some he
    obtain ⟨hl, hs, hp⟩ := hformed.unary e hmem
    exact ⟨rfl, hspelled.unary e hmem, expressible_of_isLexable hl, hs, hp⟩
  binary name e he := by
    have hmem := List.mem_of_find?_eq_some he
    obtain rfl : e.symbol = name := by simpa using List.find?_some he
    refine ⟨rfl, hspelled.binary e hmem, ?_⟩
    rcases hformed.binary e hmem with ⟨hl, hp⟩ | hcomma
    · exact .inr ⟨expressible_of_isLexable hl, hp⟩
    · exact .inl hcomma
  functions name e he := by
    have hmem := List.mem_of_find?_eq_some he
    obtain rfl : e.name = name := by simpa using List.find?_some he
    exact ⟨rfl, hspelled.functions e hmem, hformed.functions e hmem⟩

/-- **Registering is safe.** Take the built-in vocabulary or the empty one, in either style, and
any history of calls that register something in place. A further call that fails leaves all tables
as they are. One that succeeds adds one entry to its own table, under its name as spelled, where
there was none before. So no entry is replaced, whatever is called later. Names are all different,
and every entry is stored under its own, which a formula can express; no plus stands before its
operand, and priorities are in range. The built-in comma is the only exception, and it is there if
it was there at the start. -/
theorem registering_safe (hstart : start = builtin style ∨ start = empty style)
    (history : List (Registration H)) :
    ∃ v, Reachable start v ∧ v.tables = start.tables.after style history ∧
      (∀ r e t, (Tables.register style r).run v.tables = (.error e, t) →
        v.register r = .error e ∧ t = v.tables) ∧
      (∀ r t, (Tables.register style r).run v.tables = (.ok (), t) →
        v.tables.Adds style r t ∧ ∃ v', v.register r = .ok v' ∧ v'.tables = t) ∧
      (∀ later, v.tables.Keeps (v.tables.after style later)) ∧
      v.Keyed ∧ v.tables.Safe style ∧ v.tables.binary "," = start.binary? "," := by
  obtain ⟨hstyle, hkeyed, hspelled, hformed⟩ : start.caseStyle = style ∧ start.Keyed ∧
      start.Spelled ∧ start.WellFormed := by
    rcases hstart with rfl | rfl
    · exact ⟨rfl, keyed_builtin style, spelled_builtin style, wellFormed_builtin style⟩
    · exact ⟨rfl, keyed_empty style, spelled_empty style, wellFormed_empty style⟩
  obtain ⟨v, hv, htables⟩ := exists_after hstyle history
  have hstyle' : v.caseStyle = style := hv.caseStyle.trans hstyle
  refine ⟨v, hv, htables, fun r e t => eq_of_run_error hstyle', fun r t hrun => ?_,
    fun later => ?_, hv.keyed hkeyed, ?_, hv.binary?_comma⟩
  · obtain ⟨v', hr, rfl⟩ := eq_of_run_ok hstyle' hrun
    exact ⟨hstyle' ▸ adds_of_register hr, v', hr, rfl⟩
  · obtain ⟨w, hw, hafter⟩ := exists_after hstyle' later
    rw [← hafter]
    exact hw.keeps
  · rw [← hstyle']
    exact safe_tables (hv.wellFormed hformed) (hv.spelled hspelled)

/-- A call that registers a word in capitals. -/
def registerCapitals : Registration Empty := .binary "PLUS" 3 fun _ x _ => .ok x

/-- The built-in tables in lower case after that call. -/
def capitalsTaken : Tables Empty :=
  (builtin .lower : Vocabulary Empty).tables.after .lower [registerCapitals]

/-- The operator registered as `PLUS` is stored as `plus`, and once only. -/
theorem registering_safe_plus :
    capitalsTaken.Safe .lower ∧ (capitalsTaken.binary "plus").map BinaryEntry.priority = some 3 ∧
      (Tables.register .lower registerCapitals).run capitalsTaken =
        (.error (.duplicate "plus" .binary), capitalsTaken) := by
  obtain ⟨v, -, htables, hfail, -, -, -, hsafe, -⟩ :=
    registering_safe (.inl rfl) [registerCapitals]
  rw [htables] at hfail hsafe
  have hagain : ((Tables.register .lower registerCapitals).run capitalsTaken).1 =
      .error (.duplicate "plus" .binary) := by
    decide
  exact ⟨hsafe, by decide, Prod.ext hagain (hfail _ _ _ (Prod.ext hagain rfl)).2⟩

end Vocabulary

end PanelCalc
