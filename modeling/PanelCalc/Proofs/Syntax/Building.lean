import PanelCalc.Proofs.Syntax.Settling

/-! # What a builder makes of a reading

Each kind of phrase changes a builder twice, where it is entered and where it
is left, and leaving it puts its tree to the output. `Reads.run` follows: after
the lexemes of a reading, a builder goes on as if their tree had been put to
its output at once, as long as they nest no deeper than priorities fit. -/
namespace PanelCalc

namespace Builder

variable {g : Grammar} {b : Builder} {d : Nat} {ls rest : List Lexeme} {t : Tree}

/-- The builder with all steps of a tree in its output. -/
def put (b : Builder) (t : Tree) : Builder :=
  { b with
    started := true
    output := t.postorder.reverse ++ b.output
    expected := .afterLiteral
    operands := b.operands + t.operands
    joins := b.joins + t.joins }

/-- The builder with a tree in its output that may be called. -/
def putCallable (b : Builder) (t : Tree) : Builder := { b.put t with expected := .afterCallable }

/-- The builder after a plus that is a sign. -/
def sign (b : Builder) : Builder := { b with started := true, expected := .operand }

/-- The builder with an operator before its operand waiting above all others. -/
def before (b : Builder) (symbol : String) (priority : Int) : Builder :=
  { b with started := true }.opener symbol priority .operand

/-- The builder with an operator between operands waiting above all others. -/
def await (b : Builder) (step : Step) (priority : Int) (expected : Expectation) : Builder :=
  { b with
    started := true
    waiting := (step, Priority.atDepth priority b.depth) :: b.waiting
    joins := b.joins + 1
    expected }

/-- The builder after an operator between a tree and what follows. -/
def between (b : Builder) (left : Tree) (symbol : String) (priority : Int) : Builder :=
  (b.put left).await (.binary symbol) priority .operand

/-- The builder inside a parenthesis. -/
def inside (b : Builder) : Builder :=
  { b with started := true, depth := b.depth + 1, expected := .operand }

/-- The builder inside the parenthesis of a call. -/
def calling (b : Builder) (callee : Tree) : Builder :=
  { b.putCallable callee with depth := b.depth + 1 }.await .call Priority.call .argument

/-! ## Entering -/

theorem accept_plus (hb : b.expected.beginsOperand) : b.accept g (.operator "+") = .ok b.sign :=
  (Accepts.plus hb).accept

theorem run_plus (hb : b.expected.beginsOperand) :
    b.run g (.operator "+" :: ls) = b.sign.run g ls :=
  run_cons_ok (accept_plus hb)

theorem accept_minus {p : Int} (hb : b.expected.beginsOperand)
    (hu : g.unaryPriority? "-" = some p) :
    b.accept g (.operator "-") = .ok (b.before "-" p) :=
  (Accepts.minus hb hu).accept

theorem run_minus {p : Int} (hb : b.expected.beginsOperand) (hu : g.unaryPriority? "-" = some p) :
    b.run g (.operator "-" :: ls) = (b.before "-" p).run g ls :=
  run_cons_ok (accept_minus hb hu)

theorem accept_openParen (hb : b.expected.beginsOperand ∨ b.expected = .group) :
    b.accept g .openParen = .ok b.inside :=
  (Accepts.opened hb).accept

theorem accept_named {name : String} {p : Int} (hb : b.expected.beginsOperand)
    (hu : g.unaryPriority? name = some p) :
    b.accept g (.namedUnary name) = .ok { b.before name p with expected := .group } :=
  (Accepts.named hb hu).accept

theorem run_named {name : String} {p : Int} (hb : b.expected.beginsOperand)
    (hu : g.unaryPriority? name = some p) :
    b.run g (.namedUnary name :: .openParen :: ls) =
      (b.before name p).run g (.openParen :: ls) := by
  rw [run_cons_ok (accept_named hb hu)]
  exact run_cons_congr (by rw [accept_openParen (.inr rfl), accept_openParen (.inl rfl)]; rfl)

theorem run_identifier {name : String} (hb : b.expected.beginsOperand) :
    b.run g (.identifier name :: ls) = (b.putCallable (.name name)).run g ls :=
  run_cons_ok (Accepts.operand hb rfl).accept

theorem run_openParen (hb : b.expected.beginsOperand) :
    b.run g (.openParen :: ls) = b.inside.run g ls :=
  run_cons_ok (accept_openParen (.inl hb))

theorem join_of_clear {step : Step} {p : Int} {e : Expectation}
    (hc : b.Clear (Priority.atDepth p b.depth).toInt) :
    { b with started := true }.join step p e = b.await step p e := by
  simp only [join, await]
  rw [settle_of_clear hc]

theorem run_operator (hg : g.Sound) (hb : b.At d) {left : Tree} {s : String} {p : Int}
    (hp : g.binaryPriority? s = some p) (hc : b.Clear (Priority.level p d)) :
    (b.put left).run g (.operator s :: ls) = (b.between left s p).run g ls := by
  rw [← hb.toInt_atDepth (hg.base_binary hp)] at hc
  exact run_cons_ok ((Accepts.operator rfl hp).accept.trans
    (congrArg Except.ok (join_of_clear (b := b.put left) hc)))

theorem run_comma (hg : g.Sound) (hb : b.At d) {first : Tree} (hd : d ≠ 0)
    (hc : b.Clear (Priority.level Priority.comma d)) :
    (b.put first).run g (.comma :: ls) = (b.between first "," Priority.comma).run g ls := by
  rw [← hb.toInt_atDepth Priority.base_comma] at hc
  have hd : b.depth ≠ 0 := mt hb.depth_eq_zero.mp hd
  refine run_cons_ok ((Accepts.comma (b := b.put first) rfl hd).accept.trans ?_)
  rw [hg.comma]
  exact congrArg Except.ok (join_of_clear (b := b.put first) hc)

theorem run_calling (hb : b.At d) (hd : d + 1 ≤ Priority.deepest) {callee : Tree}
    (hc : b.Clear (Priority.level Priority.call (d + 1))) :
    (b.putCallable callee).run g (.openParen :: ls) = (b.calling callee).run g ls := by
  rw [← Priority.toInt_atDepth Priority.base_call hd, ← hb.depth_add_one] at hc
  exact run_cons_ok (congrArg Except.ok
    (join_of_clear (b := { b.putCallable callee with depth := b.depth + 1 }) hc))

/-! ## Leaving -/

/-- What a closing parenthesis makes of a builder with a tree. -/
theorem run_closeParen (hd : b.depth ≠ 0) : (b.put t).run g (.closeParen :: ls) =
    ({ b with depth := b.depth - 1 }.putCallable t).run g ls :=
  run_cons_ok (by rw [accept_close rfl, if_neg (show (b.put t).depth ≠ 0 from hd)]; rfl)

/-- An operator before an operand ends where its operand does. -/
theorem run_before (hg : g.Sound) (hb : b.At d) {s : String} {p : Int}
    (hu : g.unaryPriority? s = some p) (h : Stops g (p + 1) ls) :
    ((b.before s p).put t).run g ls = (b.put (.unary s t)).run g ls := by
  have place : ((b.before s p).put t).At d := hb.of_depth_eq rfl
  refine (run_pop_of_stops hg place rfl rfl (hg.base_unary hu)
    (Int.le_trans (by decide) (hg.unary s p hu).1) h).trans (congrArg (run g · ls) ?_)
  simp [pop, put, before, opener, Tree.postorder, Tree.operands, Tree.joins]

/-- An operator between operands ends where its right operand does. -/
theorem run_between (hg : g.Sound) (hb : b.At d) {s : String} {p : Int} {left : Tree}
    (hp : Priority.Base p) (hcomma : Priority.comma ≤ p) (h : Stops g (p + 1) ls) :
    ((b.between left s p).put t).run g ls = (b.put (.binary s left t)).run g ls := by
  have place : ((b.between left s p).put t).At d := hb.of_depth_eq rfl
  refine (run_pop_of_stops hg place rfl rfl hp hcomma h).trans (congrArg (run g · ls) ?_)
  simp [pop, put, between, await, Tree.postorder, Tree.operands, Tree.joins]
  omega

/-- Behind its closing parenthesis a builder is where it was before the opening one. -/
theorem run_inside (hb : b.At d) (hd : d + 1 ≤ Priority.deepest) :
    (b.inside.put t).run g (.closeParen :: ls) = (b.putCallable t).run g ls := by
  rw [run_closeParen (hb.depth_add_one_ne_zero hd)]
  refine congrArg (run g · ls) ?_
  simp [inside, putCallable, put]

/-- A call ends with its parenthesis. -/
theorem run_call (hg : g.Sound) (hb : b.At d) (hd : d + 1 ≤ Priority.deepest) {callee : Tree} :
    ((b.calling callee).put t).run g (.closeParen :: ls) =
    (b.putCallable (.call callee t)).run g ls := by
  have htop : (Priority.atDepth Priority.call (b.depth + 1)).toInt =
      Priority.level Priority.call (d + 1) := by
    rw [hb.depth_add_one, Priority.toInt_atDepth Priority.base_call hd]
  have hplace : ({ b.calling callee with depth := b.depth + 1 - 1 }.putCallable t).At d :=
    hb.of_depth_eq (Int32.add_sub_cancel ..)
  rw [run_closeParen (hb.depth_add_one_ne_zero hd)]
  refine (run_pop_of_call_le hg hplace hd rfl rfl (Int.le_of_eq htop.symm)).trans
    (congrArg (run g · ls) ?_)
  simp [pop, put, putCallable, calling, await, Tree.postorder, Tree.operands, Tree.joins]
  omega

theorem run_emptyCall (hg : g.Sound) (hb : b.At d) (hd : d + 1 ≤ Priority.deepest) {callee : Tree}
    (hc : b.Clear (Priority.level Priority.call (d + 1))) :
    (b.putCallable callee).run g (.openParen :: .closeParen :: ls) =
      (b.putCallable (.call callee (.literal .noArguments))).run g ls := by
  rw [run_calling hb hd hc, ← run_call hg hb hd, run_closeParen (hb.depth_add_one_ne_zero hd)]
  exact run_cons_ok rfl

/-- After an operand that is not called it does not matter whether it may be. -/
theorem run_putCallable (h : ls.head? ≠ some .openParen) :
    (b.putCallable t).run g ls = (b.put t).run g ls := by
  cases ls with
  | nil => rfl
  | cons l ls =>
    cases l with
    | openParen => exact absurd rfl h
    | _ => rfl

theorem Clear.mono {p q : Int} (h : b.Clear p) (hpq : p ≤ q) : b.Clear q :=
  fun entry he => Int.lt_of_lt_of_le (h entry he) hpq

end Builder

open Builder Priority

namespace Goal

/-- The builder at the beginning of what a goal reads. -/
def resume (b : Builder) : Goal → Builder
  | operand | chain _ | list => b
  | calls callee => b.putCallable callee
  | joins _ t | items t => b.put t

/-- The operators that wait bind less tightly than those that a goal may take. -/
def Low (b : Builder) (depth : Nat) : Goal → Prop
  | operand | calls _ => True
  | chain least | joins least _ => b.Clear (level least depth)
  | list | items _ => b.Clear (level comma depth) ∧ depth ≠ 0

/-- What is asked of the builder before an operand, to read for a goal from there. -/
structure Ready (b : Builder) (depth : Nat) (goal : Goal) : Prop where
  place : b.At depth
  begins : goal.consumes → b.expected.beginsOperand
  outside : b.Clear (level call (depth + 1))
  low : goal.Low b depth

variable {b : Builder} {d : Nat}

/-- After an operator, whatever binds more tightly is read for its operand. -/
theorem ready_chain {step : Step} {p : Int} {w : List (Step × Int32)} (hb : b.At d)
    (begins : b.expected.beginsOperand) (hw : b.waiting = (step, atDepth p b.depth) :: w)
    (hp : Base p) : (chain (p + 1)).Ready b d := by
  refine ⟨hb, fun _ => begins, ?_, ?_⟩
  all_goals
    intro entry he
    rw [hw, List.head?_cons, Option.mem_some_iff] at he
    subst he
    simp only [hb.toInt_atDepth hp]
  · exact level_lt_call hp.le_highest
  · exact level_lt_level.mpr (Int.lt_succ p)

theorem ready_before (hb : b.At d) {s : String} {p : Int} (hp : Base p) :
    (chain (p + 1)).Ready (b.before s p) d :=
  ready_chain (hb.of_depth_eq rfl) rfl rfl hp

theorem ready_between (hb : b.At d) {left : Tree} {s : String} {p : Int} (hp : Base p) :
    (chain (p + 1)).Ready (b.between left s p) d :=
  ready_chain (hb.of_depth_eq rfl) rfl rfl hp

/-- Inside a parenthesis nothing that waits outside is in the way. -/
theorem ready_list {q : Int} (hb : b.At (d + 1)) (begins : b.expected.beginsOperand)
    (hc : b.Clear q) (hq : q ≤ level comma (d + 1)) : list.Ready b (d + 1) := by
  refine ⟨hb, fun _ => begins, hc.mono ?_, hc.mono hq, Nat.succ_ne_zero d⟩
  exact Int.le_trans hq (Int.le_of_lt (level_lt_call (by decide)))

theorem ready_inside (hb : b.At d) (hd : d + 1 ≤ deepest) (h : b.Clear (level call (d + 1))) :
    list.Ready b.inside (d + 1) :=
  ready_list ⟨hb.depth_add_one, hd⟩ rfl h (call_le_level (by decide))

theorem ready_calling (hb : b.At d) (hd : d + 1 ≤ deepest) {callee : Tree} :
    list.Ready (b.calling callee) (d + 1) := by
  have place : (b.calling callee).At (d + 1) := ⟨hb.depth_add_one, hd⟩
  refine ready_list place rfl ?_ (Int.le_refl (level comma (d + 1)))
  intro entry he
  cases he
  have htop := place.toInt_atDepth base_call
  exact htop ▸ level_lt_level.mpr (by decide)

/-- A goal that goes on behind a tree asks for nothing of what is expected. -/
theorem Ready.onward {goal goal' : Goal} (h : goal.Ready b d) (hc : goal'.consumes = false)
    (hl : goal'.Low b d) : goal'.Ready b d :=
  ⟨h.place, fun h => by simp [hc] at h, h.outside, hl⟩

/-- A list begins with a chain. -/
theorem Ready.chain_zero (h : list.Ready b d) : (chain 0).Ready b d :=
  ⟨h.place, h.begins, h.outside, h.low.1.mono (level_le_level.mpr (by decide))⟩

end Goal

/-- What is left of lexemes nests no deeper than all of them. -/
theorem Reads.nestingFrom_le {g : Grammar} {goal : Goal} {ls rest : List Lexeme} {t : Tree}
    (h : Reads g goal ls t rest) {d n : Nat} (hn : Lexeme.nestingFrom d ls ≤ n) :
    Lexeme.nestingFrom d rest ≤ n := by
  induction h generalizing d with
  | called _ | joined _ | listed _ => exact hn
  | number | constant | text => exact Lexeme.nestingFrom_tail hn
  | plus _ ih | minus _ _ ih | named _ _ ih | identifier _ ih =>
    exact ih (Lexeme.nestingFrom_tail hn)
  | emptyCall _ ih => exact ih (Lexeme.nestingFrom_tail (Lexeme.nestingFrom_tail hn))
  | group _ _ ih ih' | call _ _ ih ih' =>
    exact ih' (Lexeme.nestingFrom_tail (ih (Lexeme.nestingFrom_tail hn)))
  | chain _ _ ih ih' | list _ _ ih ih' => exact ih' (ih hn)
  | join _ _ _ _ ih ih' | item _ _ ih ih' => exact ih' (ih (Lexeme.nestingFrom_tail hn))

/-- **A builder does what a reading says.** After the lexemes of a reading it
goes on as if their tree had been put to its output at once, if they nest no
deeper than priorities fit. -/
theorem Reads.run {g : Grammar} (hg : g.Sound) {goal : Goal} {ls rest : List Lexeme} {t : Tree}
    (h : Reads g goal ls t rest) : ∀ (b : Builder) (d : Nat), goal.Ready b d →
      Lexeme.nestingFrom d ls ≤ deepest → (goal.resume b).run g ls = (b.put t).run g rest := by
  induction h with
  | plus _ ih =>
    intro b d hb hn
    exact (run_plus (hb.begins rfl)).trans
      (ih b.sign d ⟨hb.place.of_depth_eq rfl, fun _ => rfl, hb.outside, trivial⟩
        (Lexeme.nestingFrom_tail hn))
  | @minus p _ _ _ hu h ih =>
    intro b d hb hn
    rw [← run_before hg hb.place hu h.ends, ← ih (b.before "-" p) d
      (Goal.ready_before hb.place (hg.base_unary hu)) (Lexeme.nestingFrom_tail hn)]
    exact run_minus (hb.begins rfl) hu
  | @named name p _ _ _ hu h ih =>
    intro b d hb hn
    rw [← run_before hg hb.place hu h.ends, ← ih (b.before name p) d
      (Goal.ready_before hb.place (hg.base_unary hu)) (Lexeme.nestingFrom_tail hn)]
    exact run_named (hb.begins rfl) hu
  | number | constant | text =>
    intro b d hb _
    exact run_cons_ok (Accepts.operand (hb.begins rfl) rfl).accept
  | identifier _ ih =>
    intro b d hb hn
    exact (run_identifier (hb.begins rfl)).trans
      (ih b d (hb.onward rfl trivial) (Lexeme.nestingFrom_tail hn))
  | group h _ ih ih' =>
    intro b d hb hn
    have hin := Lexeme.nestingFrom_tail hn
    have hd := Lexeme.le_of_nestingFrom hin
    have hmid := h.nestingFrom_le hin
    rw [← ih' b d (hb.onward rfl trivial) (Lexeme.nestingFrom_tail hmid)]
    refine (run_openParen (hb.begins rfl)).trans ?_
    exact (ih b.inside (d + 1) (Goal.ready_inside hb.place hd hb.outside) hin).trans
      (run_inside hb.place hd)
  | called h =>
    intro b _ _ _
    exact run_putCallable h
  | emptyCall _ ih =>
    intro b d hb hn
    have hin := Lexeme.nestingFrom_tail hn
    exact (run_emptyCall hg hb.place (Lexeme.le_of_nestingFrom hin) hb.outside).trans
      (ih b d (hb.onward rfl trivial) (Lexeme.nestingFrom_tail hin))
  | @call callee _ _ _ _ _ h _ ih ih' =>
    intro b d hb hn
    have hin := Lexeme.nestingFrom_tail hn
    have hd := Lexeme.le_of_nestingFrom hin
    have hmid := h.nestingFrom_le hin
    rw [← ih' b d (hb.onward rfl trivial) (Lexeme.nestingFrom_tail hmid)]
    refine (run_calling hb.place hd hb.outside).trans ?_
    exact (ih (b.calling callee) (d + 1) (Goal.ready_calling hb.place hd) hin).trans
      (run_call hg hb.place hd)
  | chain h _ ih ih' =>
    intro b d hb hn
    rw [← ih' b d (hb.onward rfl hb.low) (h.nestingFrom_le hn)]
    exact ih b d ⟨hb.place, hb.begins, hb.outside, trivial⟩ hn
  | joined _ | listed _ =>
    intro b _ _ _
    rfl
  | @join _ left s p _ _ _ _ _ hp hl h _ ih ih' =>
    intro b d hb hn
    have hright := Lexeme.nestingFrom_tail hn
    rw [← ih' b d (hb.onward rfl hb.low) (h.nestingFrom_le hright)]
    refine (run_operator hg hb.place hp (hb.low.mono (level_le_level.mpr hl))).trans ?_
    have hready : (Goal.chain (p + 1)).Ready (b.between left s p) d :=
      Goal.ready_between hb.place (hg.base_binary hp)
    refine (ih (b.between left s p) d hready hright).trans ?_
    exact run_between hg hb.place (hg.base_binary hp) (hg.comma_le hp) h.ends
  | list h _ ih ih' =>
    intro b d hb hn
    rw [← ih' b d (hb.onward rfl hb.low) (h.nestingFrom_le hn)]
    exact ih b d hb.chain_zero hn
  | @item first _ _ _ _ _ h _ ih ih' =>
    intro b d hb hn
    have hnext := Lexeme.nestingFrom_tail hn
    rw [← ih' b d (hb.onward rfl hb.low) (h.nestingFrom_le hnext)]
    refine (run_comma hg hb.place hb.low.2 hb.low.1).trans ?_
    have hready : (Goal.chain (comma + 1)).Ready (b.between first "," comma) d :=
      Goal.ready_between hb.place base_comma
    refine (ih (b.between first "," comma) d hready hnext).trans ?_
    exact run_between hg hb.place base_comma (Int.le_refl _) h.ends

end PanelCalc
