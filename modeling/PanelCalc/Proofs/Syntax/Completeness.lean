import PanelCalc.Proofs.Syntax.Building

/-! # Every program has a reading

Where a builder succeeds with lexemes that nest no deeper than priorities fit,
there is something to read from them: a lexeme that no reading can take next is
one that the builder refuses. Each goal is read by induction on the number of
lexemes, and `Reads.run` carries the success of the builder over what has been
read already. -/
namespace PanelCalc

open Builder Priority

/-- Where an operand must begin, nothing else may come. -/
inductive BeginsOperand (g : Grammar) : List Lexeme → Prop
  | plus {ls} : BeginsOperand g (.operator "+" :: ls)
  | minus {p ls} : g.unaryPriority? "-" = some p → BeginsOperand g (.operator "-" :: ls)
  | named {name p ls} : g.unaryPriority? name = some p →
      BeginsOperand g (.namedUnary name :: .openParen :: ls)
  | number {x ls} : BeginsOperand g (.number x :: ls)
  | constant {x ls} : BeginsOperand g (.constant x :: ls)
  | text {s ls} : BeginsOperand g (.text s :: ls)
  | identifier {name ls} : BeginsOperand g (.identifier name :: ls)
  | group {ls} : BeginsOperand g (.openParen :: ls)

namespace Builder

variable {g : Grammar} {b : Builder} {ls : List Lexeme} {program : Program}

/-- After a named operator comes a parenthesis. -/
theorem group_of_run (hb : b.expected = .group) (h : b.run g ls = .ok program) :
    ∃ rest, ls = .openParen :: rest := by
  cases ls with
  | nil =>
    have := (finish_eq_ok.mp h).2.2.1
    rw [hb] at this
    cases this
  | cons l rest =>
    cases l with
    | openParen => exact ⟨rest, rfl⟩
    | operator s =>
      refine absurd h (run_refused (f := .unexpected (.operator s)) ?_)
      simp only [accept, acceptOperator, hb]
      rfl
    | _ => exact absurd h (run_refused (by simp only [accept, acceptClose, acceptComma, hb]; rfl))

theorem beginsOperand_of_run (hb : b.expected.beginsOperand)
    (hc : b.expected = .argument → ls.head? ≠ some .closeParen) (h : b.run g ls = .ok program) :
    BeginsOperand g ls := by
  have ends := Expectation.endsOperand_eq_false (.inl hb)
  cases ls with
  | nil =>
    have := (finish_eq_ok.mp h).2.2.1
    rw [ends] at this
    cases this
  | cons l rest =>
    cases l with
    | number | constant | text | identifier | openParen => constructor
    | operator s =>
      by_cases hplus : s = "+"
      · exact hplus ▸ .plus
      by_cases hminus : s = "-"
      · subst hminus
        cases hu : g.unaryPriority? "-" with
        | some p => exact .minus hu
        | none => exact absurd h (run_refused (by simp only [accept, acceptOperator, hb, hu]; rfl))
      · refine absurd h (run_refused (f := .unexpected (.operator s)) ?_)
        simp [accept, acceptOperator, hb, ends, hplus, hminus]
    | namedUnary name =>
      cases hu : g.unaryPriority? name with
      | none => exact absurd h (run_refused (by simp only [accept, hb, hu]; rfl))
      | some p =>
        rw [run_cons_ok (by simp only [accept, hb, hu]; rfl)] at h
        obtain ⟨ls, rfl⟩ := group_of_run rfl h
        exact .named hu
    | closeParen =>
      cases hx : b.expected with
      | argument => exact absurd rfl (hc hx)
      | operand => exact absurd h (run_refused (by simp only [accept, acceptClose, hx]; rfl))
      | _ => rw [hx] at hb; cases hb
    | comma => exact absurd h (run_refused (by simp only [accept, acceptComma, ends]; rfl))

end Builder

namespace Goal

/-- A builder goes on to a program from where a goal reads. -/
structure Succeeds (g : Grammar) (b : Builder) (depth : Nat) (goal : Goal) (ls : List Lexeme) :
    Prop where
  ready : goal.Ready b depth
  nesting : Lexeme.nestingFrom depth ls ≤ deepest
  /-- What follows does not close a call without arguments. -/
  argument : goal.consumes → b.expected = .argument → ls.head? ≠ some .closeParen
  /-- The comma is a lexeme of its own. -/
  comma : .operator "," ∉ ls
  runs : ∃ program, (goal.resume b).run g ls = .ok program

/-- What succeeds goes on to succeed with lexemes further on. -/
theorem Succeeds.onward {g : Grammar} {b : Builder} {d : Nat} {goal goal' : Goal}
    {ls ls' : List Lexeme} {program : Program} (hs : goal.Succeeds g b d ls)
    (hc : goal'.consumes = false) (hl : goal'.Low b d) (hsub : ls' ⊆ ls)
    (hn : Lexeme.nestingFrom d ls' ≤ deepest) (hr : (goal'.resume b).run g ls' = .ok program) :
    goal'.Succeeds g b d ls' :=
  ⟨hs.ready.onward hc hl, hn, fun h => by simp [hc] at h, fun h => hs.comma (hsub h), program, hr⟩

/-- Success is enough for a reading of a goal. -/
def Complete (g : Grammar) (goal : Goal) (ls : List Lexeme) : Prop :=
  ∀ b depth, goal.Succeeds g b depth ls → ∃ t rest, Reads g goal ls t rest

end Goal

/-- After a list comes neither a comma nor an operator. -/
theorem Reads.stops_of_list {g : Grammar} {goal : Goal} {ls rest : List Lexeme} {t : Tree}
    (h : Reads g goal ls t rest) :
    match goal with
    | .list => rest.head? ≠ some .comma ∧ Stops g 0 rest
    | .items _ => Stops g 0 ls → rest.head? ≠ some .comma ∧ Stops g 0 rest
    | _ => True := by
  induction h with
  | list h _ _ ih => exact ih h.ends
  | listed h => exact fun hs => ⟨h, hs⟩
  | item h _ _ ih => exact fun _ => ih h.ends
  | _ => trivial

section Complete

variable {g : Grammar} {b : Builder} {d : Nat} {ls rest : List Lexeme} {t : Tree}

/-- After a chain comes the end, or inside a parenthesis its end or a comma. -/
theorem Builder.next_of_run (hg : g.Sound) (hb : b.At d) {program : Program}
    (hstops : Stops g 0 rest) (hcomma : .operator "," ∉ rest)
    (h : (b.put t).run g rest = .ok program) :
    rest = [] ∧ d = 0 ∨ d ≠ 0 ∧ (rest.head? = some .closeParen ∨ rest.head? = some .comma) := by
  cases rest with
  | nil =>
    have hd : ¬ 0 < b.depth := (finish_eq_ok.mp h).2.1
    exact .inl ⟨rfl, Nat.eq_zero_of_not_pos (mt hb.depth_pos.mpr hd)⟩
  | cons l rest =>
    cases l with
    | closeParen =>
      refine .inr ⟨fun hd => absurd h (run_refused (f := .unmatchedParenthesis) ?_), .inl rfl⟩
      rw [accept_close rfl, if_pos (show (b.put t).depth = 0 from hb.depth_eq_zero.mpr hd)]
    | comma =>
      refine .inr ⟨fun hd => absurd h (run_refused (f := .unexpected .comma) ?_), .inr rfl⟩
      simp [accept, acceptComma, put, hb.depth_eq_zero.mpr hd]
    | operator s =>
      cases hp : g.binaryPriority? s with
      | none =>
        refine absurd h (run_refused (f := .unknownOperator s) ?_)
        show acceptOperator g _ s = _
        simp [acceptOperator, put, Expectation.beginsOperand, Expectation.endsOperand, hp]
      | some p =>
        -- an operator that stops a chain has a priority below that of every operator
        have hneg := hstops s p rest rfl hp
        have hne : s ≠ "," := by
          rintro rfl
          exact hcomma (List.mem_cons_self ..)
        have := (hg.binary s p hne hp).1
        omega
    | _ => exact absurd h (run_refused rfl)

/-- A list that a builder goes on from ends with a closing parenthesis. -/
theorem Reads.closes (hg : g.Sound) (hs : Goal.list.Succeeds g b d ls)
    (h : Reads g .list ls t rest) : ∃ mid, rest = .closeParen :: mid := by
  obtain ⟨program, hr⟩ := hs.runs
  rw [h.run hg b d hs.ready hs.nesting] at hr
  obtain ⟨hnext, hstops⟩ := h.stops_of_list
  have hcomma : .operator "," ∉ rest := fun hc => hs.comma (h.suffix.subset hc)
  rcases next_of_run hg hs.ready.place hstops hcomma hr with ⟨-, hd⟩ | ⟨-, hclose | hc⟩
  · exact absurd hd hs.ready.low.2
  · exact List.head?_eq_some_iff.mp hclose
  · exact absurd hc hnext

variable (hg : g.Sound)
  (ih : ∀ rest : List Lexeme, rest.length < ls.length → ∀ goal : Goal, goal.Complete g rest)

include hg in
/-- A list in a parenthesis can be read, and the builder goes on after it. -/
theorem Goal.Succeeds.list {program : Program}
    (complete : Goal.list.Complete g ls) (hs : Goal.list.Succeeds g b d ls)
    (hr : b.run g ls = .ok program) :
    ∃ t mid, Reads g .list ls t (.closeParen :: mid) ∧
      (b.put t).run g (.closeParen :: mid) = .ok program := by
  obtain ⟨t, rest, h⟩ := complete b d hs
  obtain ⟨mid, rfl⟩ := h.closes hg hs
  exact ⟨t, mid, h, (h.run hg b d hs.ready hs.nesting).symm.trans hr⟩

include hg ih in
theorem Goal.complete_operand : Goal.operand.Complete g ls := by
  intro b d hs
  obtain ⟨program, hr⟩ := hs.runs
  have place := hs.ready.place
  have hb := hs.ready.begins rfl
  have hn := hs.nesting
  have hcomma := hs.comma
  cases beginsOperand_of_run hb (hs.argument rfl) hr with
  | number => exact ⟨_, _, .number⟩
  | constant => exact ⟨_, _, .constant⟩
  | text => exact ⟨_, _, .text⟩
  | @plus ls =>
    obtain ⟨t, rest, h⟩ := ih ls (by simp) .operand b.sign d
      ⟨⟨place.of_depth_eq rfl, fun _ => rfl, hs.ready.outside, trivial⟩,
        Lexeme.nestingFrom_tail hn, (fun _ h => by cases h), fun hc => hcomma (.tail _ hc), program,
        (run_plus hb).symm.trans hr⟩
    exact ⟨t, rest, .plus h⟩
  | @minus p ls hu =>
    obtain ⟨t, rest, h⟩ := ih ls (by simp) (.chain (p + 1)) (b.before "-" p) d
      ⟨Goal.ready_before place (hg.base_unary hu), Lexeme.nestingFrom_tail hn,
        (fun _ h => by cases h), fun hc => hcomma (.tail _ hc), program,
        (run_minus hb hu).symm.trans hr⟩
    exact ⟨_, rest, .minus hu h⟩
  | @named name p ls hu =>
    obtain ⟨t, rest, h⟩ := ih (.openParen :: ls) (by simp) (.chain (p + 1)) (b.before name p) d
      ⟨Goal.ready_before place (hg.base_unary hu), Lexeme.nestingFrom_tail hn,
        (fun _ h => by cases h), fun hc => hcomma (.tail _ hc), program,
        (run_named hb hu).symm.trans hr⟩
    exact ⟨_, rest, .named hu h⟩
  | @identifier name ls =>
    obtain ⟨t, rest, h⟩ := ih ls (by simp) (.calls (.name name)) b d
      (hs.onward rfl trivial (List.subset_cons_self ..) (Lexeme.nestingFrom_tail hn)
        ((run_identifier hb).symm.trans hr))
    exact ⟨t, rest, .identifier h⟩
  | @group ls =>
    have hinside := Lexeme.nestingFrom_tail hn
    have hd := Lexeme.le_of_nestingFrom hinside
    have hin : Goal.list.Succeeds g b.inside (d + 1) ls :=
      ⟨Goal.ready_inside place hd hs.ready.outside, hinside, (fun _ h => by cases h),
        fun hc => hcomma (.tail _ hc), program, (run_openParen hb).symm.trans hr⟩
    obtain ⟨t, mid, h, hr⟩ := hin.list hg (ih ls (by simp) .list) ((run_openParen hb).symm.trans hr)
    have hlt := h.length_le
    obtain ⟨u, rest, h'⟩ := ih mid (by simp only [List.length_cons] at *; omega) (.calls t) b d
      (hs.onward rfl trivial (fun _ hl => .tail _ (h.suffix.subset (.tail _ hl)))
        (Lexeme.nestingFrom_tail (h.nestingFrom_le hinside))
        ((run_inside place hd).symm.trans hr))
    exact ⟨u, rest, .group h h'⟩

include hg ih in
theorem Goal.complete_calls (callee : Tree) : (Goal.calls callee).Complete g ls := by
  intro b d hs
  obtain ⟨program, hr⟩ := hs.runs
  have place := hs.ready.place
  have hcomma := hs.comma
  have hn := hs.nesting
  by_cases hopen : ls.head? = some .openParen
  · obtain ⟨ls, rfl⟩ := List.head?_eq_some_iff.mp hopen
    have hinside := Lexeme.nestingFrom_tail hn
    have hd := Lexeme.le_of_nestingFrom hinside
    by_cases hclose : ls.head? = some .closeParen
    · obtain ⟨ls, rfl⟩ := List.head?_eq_some_iff.mp hclose
      obtain ⟨t, rest, h⟩ := ih ls (by simp only [List.length_cons]; omega)
        (.calls (.call callee (.literal .noArguments))) b d
        (hs.onward rfl trivial (fun _ hl => .tail _ (.tail _ hl)) (Lexeme.nestingFrom_tail hinside)
          ((run_emptyCall hg place hd hs.ready.outside).symm.trans hr))
      exact ⟨t, rest, .emptyCall h⟩
    · have hr : (b.calling callee).run g ls = .ok program :=
        (run_calling place hd hs.ready.outside).symm.trans hr
      have hin : Goal.list.Succeeds g (b.calling callee) (d + 1) ls :=
        ⟨Goal.ready_calling place hd, hinside, fun _ _ => hclose, fun hc => hcomma (.tail _ hc),
          program, hr⟩
      obtain ⟨x, mid, h, hr⟩ := hin.list hg (ih ls (by simp) .list) hr
      have hlt := h.length_le
      obtain ⟨u, rest, h'⟩ := ih mid (by simp only [List.length_cons] at *; omega)
        (.calls (.call callee x)) b d
        (hs.onward rfl trivial (fun _ hl => .tail _ (h.suffix.subset (.tail _ hl)))
          (Lexeme.nestingFrom_tail (h.nestingFrom_le hinside))
          ((run_call hg place hd).symm.trans hr))
      exact ⟨u, rest, .call h h'⟩
  · exact ⟨_, _, .called hopen⟩

include hg ih in
theorem Goal.complete_joins (least : Int) (left : Tree) :
    (Goal.joins least left).Complete g ls := by
  intro b d hs
  obtain ⟨program, hr⟩ := hs.runs
  by_cases hstops : Stops g least ls
  · exact ⟨_, _, .joined hstops⟩
  · simp only [Stops, Classical.not_forall, Int.not_lt, exists_prop] at hstops
    obtain ⟨s, p, ls, rfl, hp, hl⟩ := hstops
    have place := hs.ready.place
    have hcomma := hs.comma
    have hn := Lexeme.nestingFrom_tail hs.nesting
    have hr : (b.between left s p).run g ls = .ok program :=
      (run_operator hg place hp (hs.ready.low.mono (level_le_level.mpr hl))).symm.trans hr
    have ready : (Goal.chain (p + 1)).Ready (b.between left s p) d :=
      Goal.ready_between place (hg.base_binary hp)
    obtain ⟨right, mid, h⟩ := ih ls (by simp) (.chain (p + 1)) (b.between left s p) d
      ⟨ready, hn, (fun _ h => by cases h), fun hc => hcomma (.tail _ hc), program, hr⟩
    have hlt := h.length_le
    have hr : (b.put (.binary s left right)).run g mid = .ok program :=
      (run_between hg place (hg.base_binary hp) (hg.comma_le hp) h.ends).symm.trans
        ((h.run hg _ d ready hn).symm.trans hr)
    obtain ⟨t, rest, h'⟩ := ih mid (by simp only [List.length_cons] at *; omega)
      (.joins least (.binary s left right)) b d
      (hs.onward rfl hs.ready.low (fun _ hl => .tail _ (h.suffix.subset hl)) (h.nestingFrom_le hn)
        hr)
    exact ⟨t, rest, .join hp hl h h'⟩

include hg ih in
theorem Goal.complete_items (first : Tree) : (Goal.items first).Complete g ls := by
  intro b d hs
  obtain ⟨program, hr⟩ := hs.runs
  by_cases hnext : ls.head? = some .comma
  · obtain ⟨ls, rfl⟩ := List.head?_eq_some_iff.mp hnext
    have place := hs.ready.place
    have hcomma := hs.comma
    have hn := Lexeme.nestingFrom_tail hs.nesting
    have hr : (b.between first "," comma).run g ls = .ok program :=
      (run_comma hg place hs.ready.low.2 hs.ready.low.1).symm.trans hr
    have ready : (Goal.chain 0).Ready (b.between first "," comma) d :=
      Goal.ready_between place base_comma
    obtain ⟨next, mid, h⟩ := ih ls (by simp) (.chain 0) (b.between first "," comma) d
      ⟨ready, hn, (fun _ h => by cases h), fun hc => hcomma (.tail _ hc), program, hr⟩
    have hlt := h.length_le
    have hr : (b.put (.binary "," first next)).run g mid = .ok program :=
      (run_between hg place base_comma (Int.le_refl _) h.ends).symm.trans
        ((h.run hg _ d ready hn).symm.trans hr)
    obtain ⟨t, rest, h'⟩ := ih mid (by simp only [List.length_cons] at *; omega)
      (.items (.binary "," first next)) b d
      (hs.onward rfl hs.ready.low (fun _ hl => .tail _ (h.suffix.subset hl)) (h.nestingFrom_le hn)
        hr)
    exact ⟨t, rest, .item h h'⟩
  · exact ⟨_, _, .listed hnext⟩

include hg ih in
theorem Goal.complete_chain (least : Int) : (Goal.chain least).Complete g ls := by
  intro b d hs
  obtain ⟨program, hr⟩ := hs.runs
  have hn := hs.nesting
  have ready : Goal.operand.Ready b d :=
    ⟨hs.ready.place, hs.ready.begins, hs.ready.outside, trivial⟩
  obtain ⟨t, mid, h⟩ :=
    Goal.complete_operand hg ih b d ⟨ready, hn, hs.argument, hs.comma, program, hr⟩
  obtain ⟨u, rest, h'⟩ := ih mid (h.length_lt rfl) (.joins least t) b d
    (hs.onward rfl hs.ready.low h.suffix.subset (h.nestingFrom_le hn)
      ((h.run hg b d ready hn).symm.trans hr))
  exact ⟨u, rest, .chain h h'⟩

include hg ih in
theorem Goal.complete_list : Goal.list.Complete g ls := by
  intro b d hs
  obtain ⟨program, hr⟩ := hs.runs
  have hn := hs.nesting
  have ready := hs.ready.chain_zero
  obtain ⟨t, mid, h⟩ :=
    Goal.complete_chain hg ih 0 b d ⟨ready, hn, hs.argument, hs.comma, program, hr⟩
  obtain ⟨u, rest, h'⟩ := ih mid (h.length_lt rfl) (.items t) b d
    (hs.onward rfl hs.ready.low h.suffix.subset (h.nestingFrom_le hn)
      ((h.run hg b d ready hn).symm.trans hr))
  exact ⟨u, rest, .list h h'⟩

end Complete

/-- **Whatever a builder goes on from can be read**, if it does not nest too deep. -/
theorem Goal.complete {g : Grammar} (hg : g.Sound) (ls : List Lexeme) (goal : Goal) :
    goal.Complete g ls := by
  have ih (rest : List Lexeme) (_ : rest.length < ls.length) (goal : Goal) : goal.Complete g rest :=
    Goal.complete hg rest goal
  cases goal with
  | operand => exact complete_operand hg ih
  | calls callee => exact complete_calls hg ih callee
  | chain least => exact complete_chain hg ih least
  | joins least left => exact complete_joins hg ih least left
  | list => exact complete_list hg ih
  | items first => exact complete_items hg ih first
termination_by ls.length

end PanelCalc
