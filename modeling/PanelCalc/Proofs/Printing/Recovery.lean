import PanelCalc.Proofs.Printing.Inorder
import PanelCalc.Proofs.Printing.Neighbours
import PanelCalc.Proofs.Printing.Rightmost

/-! # What reads back is bracketed

If the lexemes of the text of a tree read back as the tree, then no parenthesis
that the text leaves out was needed. Whatever is read from the text of a part of
the tree is taken apart where the text was put together. -/
namespace PanelCalc

namespace Tree

/-- The text of a tree is balanced. Outside of its parentheses it has no
operator, and a comma if it is a list. -/
theorem outside_lexemes (t : Tree) : ∃ o, outside 0 t.lexemes = some o ∧
    (∀ s, .operator s ∉ o) ∧ (t.isList = true → .comma ∈ o) := by
  have group {ls o : List Lexeme} (h : outside 0 ls = some o) :
      outside 0 (enclosed ls) = some [] := outside_group h rfl
  induction t with
  | literal value =>
    cases value with
    | number x =>
      simp only [lexemes, numberLexemes]
      split
      · exact ⟨[], rfl, by simp, by simp [isList]⟩
      · exact ⟨_, rfl, by simp, by simp [isList]⟩
    | text s => exact ⟨_, rfl, by simp, by simp [isList]⟩
    | noArguments => exact ⟨_, rfl, by simp, by simp [isList]⟩
  | name n => exact ⟨_, rfl, by simp, by simp [isList]⟩
  | unary s x ih =>
    obtain ⟨o, ho, -⟩ := ih
    unfold lexemes
    split
    · rw [unaryLexeme_of_hasLetter ‹_›]
      exact ⟨_, outside_cons_some rfl (group ho), by simp, by simp [isList]⟩
    · have hu : outside 0 (unaryLexeme s :: x.lexemes) = some (unaryLexeme s :: o) := by
        unfold unaryLexeme
        split <;> exact outside_cons_some rfl ho
      exact ⟨_, group hu, by simp, by simp [isList]⟩
  | binary s x y ihx ihy =>
    obtain ⟨o, ho, hs, -⟩ := ihx
    obtain ⟨o', ho', hs', -⟩ := ihy
    unfold lexemes
    split
    · refine ⟨_, outside_append_some ho (outside_cons_some rfl ho'), fun s => ?_, by simp⟩
      simp [hs s, hs' s]
    · rename_i hc
      refine ⟨_, group (outside_append_some ho (outside_cons_some rfl ho')), by simp, ?_⟩
      simp [isList, hc]
  | call callee x ihc ihx =>
    obtain ⟨o, ho, hs, -⟩ := ihc
    obtain ⟨o', ho', -⟩ := ihx
    refine ⟨_, outside_append_some ho (group ho'), ?_, by simp [isList]⟩
    simpa using hs

theorem isList_spelledOut (t : Tree) : t.spelledOut.isList = t.isList := by
  cases t with
  | literal value =>
    cases value with
    | number x =>
      simp only [spelledOut]
      split <;> rfl
    | text _ | noArguments => rfl
  | _ => rfl

end Tree

variable {H : Type} {v : Vocabulary H} {g : Grammar} {t : Tree} {inner rest : List Lexeme}

/-- How a tree is recovered from its text. -/
structure Tree.Recovers (g : Grammar) (t : Tree) : Prop where
  called : ∀ {rest}, Callable g (t.lexemes ++ rest) t.spelledOut rest →
    t.isList = false ∧ t.Bracketed g ∧ t.isCallable = true
  operand : ∀ {rest}, Reads g .operand (t.lexemes ++ rest) t.spelledOut rest →
    t.isList = false ∧ t.Bracketed g ∧
      ∀ s q ls, rest = .operator s :: ls → g.binaryPriority? s = some q → t.Precedes g q
  list : ∀ {rest}, Listing g (t.lexemes ++ rest) t.spelledOut rest → t.Bracketed g

namespace Tree.Recovers

/-- A value that is no list of several is read as an operand wherever it is read. -/
theorem of_operand (hl : t.isList = false)
    (hc : ∀ {rest}, Callable g (t.lexemes ++ rest) t.spelledOut rest →
      t.Bracketed g ∧ t.isCallable = true)
    (ho : ∀ {rest}, Reads g .operand (t.lexemes ++ rest) t.spelledOut rest →
      t.Bracketed g ∧
        ∀ s q ls, rest = .operator s :: ls → g.binaryPriority? s = some q → t.Precedes g q) :
    t.Recovers g where
  called h := ⟨hl, hc h⟩
  operand h := ⟨hl, ho h⟩
  list h := by
    generalize hu : t.spelledOut = u at h
    cases h with
    | first h =>
      obtain ⟨o, houtside, hs, -⟩ := t.outside_lexemes
      rw [← hu] at h
      exact (ho (h.operand_of_chain houtside hs)).1
    | next _ _ =>
      have := t.isList_spelledOut
      rw [hu, hl] at this
      cases this

/-- A text in parentheses is recovered with what is in them. -/
theorem of_enclosed {o : List Lexeme} (ht : t.lexemes = enclosed inner)
    (ho : outside 0 inner = some o) (hl : t.isList = false) (hc : t.isCallable = true)
    (hcall : ∀ callee x, t.spelledOut ≠ .call callee x) (hprec : ∀ q, t.Precedes g q)
    (h : ∀ {rest}, Reads g .list (inner ++ .closeParen :: rest) t.spelledOut
      (.closeParen :: rest) → t.Bracketed g) : t.Recovers g := by
  refine .of_operand hl (fun {rest} hr => ⟨?_, hc⟩) fun hr => ⟨?_, fun _ q _ _ _ => hprec q⟩
  · rw [ht] at hr
    generalize hls : enclosed inner ++ rest = ls at hr
    generalize hu : t.spelledOut = u at hr h hcall
    cases hr with
    | name => cases hls
    | group hr =>
      cases hls
      exact h (by simpa using hr)
    | emptyCall _ | call _ _ => exact absurd rfl (hcall _ _)
  · rw [ht] at hr
    exact h (hr.list_of_enclosed ho)

variable {s : String} {x y callee : Tree}

/-- An operator with letters and the parentheses of its operand. -/
theorem named (hs : Text.hasLetter s = true) (hx : x.Recovers g) : (unary s x).Recovers g := by
  have hplus : s ≠ "+" := by
    rintro rfl
    revert hs
    decide
  refine .of_operand rfl (fun h => ?_) fun {rest} h => ?_
  · rw [lexemes_named hs, unaryLexeme_of_hasLetter hs] at h
    rcases h.head with ⟨n, ls, heq⟩ | ⟨ls, heq⟩ <;> cases heq
  · rw [lexemes_named hs] at h
    obtain ⟨p, u, heq, hp, hchain, -⟩ := h.operand_unary hplus
    obtain ⟨-, rfl⟩ := Tree.unary.inj heq
    obtain ⟨o, ho, -⟩ := x.outside_lexemes
    have hinside : Reads g .operand (enclosed x.lexemes ++ rest) x.spelledOut rest :=
      hchain.operand_of_chain (outside_group ho rfl) (by simp)
    have hb := hx.list (hinside.list_of_enclosed ho).listing
    refine ⟨⟨hb, fun hn => ?_⟩, fun s' q ls hr hq _ p' hp' => ?_⟩
    · rw [hs] at hn
      cases hn
    · have hlt : q < p + 1 := hchain.ends s' q ls hr hq
      rw [hp] at hp'
      cases hp'
      omega

/-- An operator without letters and its operand in parentheses. -/
theorem signed (hs : Text.hasLetter s = false) (hplus : s ≠ "+") (hne : x.lexemes ≠ [])
    (hx : x.Recovers g) : (unary s x).Recovers g := by
  obtain ⟨o, ho, hop, -⟩ := x.outside_lexemes
  have hinner : outside 0 (unaryLexeme s :: x.lexemes) = some (unaryLexeme s :: o) := by
    unfold unaryLexeme
    split <;> exact outside_cons_some rfl ho
  refine .of_enclosed (lexemes_signed hs) hinner rfl (by simp [isCallable, hs])
    (by simp [spelledOut]) (fun q hn => ?_) fun {rest} h => ?_
  · rw [hs] at hn
    cases hn
  cases h.chain_of_list rfl with
  | chain h h' =>
    rcases h'.joins_split with ⟨heq, rfl⟩ | ⟨_, _, _, _, _, _, _, heq, -⟩
    · rw [← heq] at h
      obtain ⟨p, u, heq, -, hchain, hopen⟩ := h.operand_unary hplus
      obtain ⟨-, rfl⟩ := Tree.unary.inj heq
      obtain ⟨hl, hb, -⟩ := hx.operand (hchain.operand_of_chain ho hop)
      refine ⟨hb, fun _ => ⟨hl, fun hm => ?_⟩⟩
      obtain ⟨l, ls, hls⟩ := List.exists_cons_of_ne_nil hne
      have := hopen hm
      rw [hls] at this ⊢
      exact this
    · cases heq

/-- Two operands with an operator between them in parentheses. -/
theorem joined (hs : s ≠ ",") (hne : ∀ op ls rest, x.lexemes ++ rest ≠ .operator op :: ls)
    (hx : x.Recovers g) (hy : y.Recovers g) : (binary s x y).Recovers g := by
  obtain ⟨ox, hox, hopx, -⟩ := x.outside_lexemes
  obtain ⟨oy, hoy, hopy, -⟩ := y.outside_lexemes
  have hinner := outside_append_some hox (outside_cons_some (l := .operator s) rfl hoy)
  refine .of_enclosed (lexemes_joined hs) hinner (by simp [isList, hs]) (by simp [isCallable, hs])
    (by simp [spelledOut]) (fun _ => trivial) fun {rest} h => ?_
  cases h.chain_of_list (by simp [spelledOut, isList, hs]) with
  | chain h h' =>
    rcases h'.joins_split with ⟨rfl, rfl⟩ |
      ⟨pre, op, s', p, x', y', ls, heq, rfl, hpre, hp, hy', hx'⟩
    · -- an operand that took the operator up would have it outside of its parentheses
      have hfirst : ∀ ls, x.lexemes ++ .operator s :: y.lexemes ++ .closeParen :: rest ≠
          .operator "+" :: ls := by simpa using fun ls => hne "+" ls _
      rcases h.operand_outer hfirst with ⟨_, _, heq⟩ | ⟨taken, o, heq, ho, hop⟩
      · cases heq
      · obtain rfl := List.append_cancel_right heq
        rw [hinner] at ho
        cases ho
        exact absurd (by simp) (hop s)
    · obtain ⟨rfl, rfl, rfl⟩ := Tree.binary.inj heq
      obtain ⟨taken, o, heq, ho, -⟩ := h.outer
      obtain ⟨taken', o', rfl, ho', -⟩ := hy'.outer
      have heq : (x.lexemes ++ .operator s :: y.lexemes) ++ .closeParen :: rest =
          (taken ++ pre ++ .operator s :: taken') ++ .closeParen :: rest := by simpa using heq
      have hparts := outside_unique_of_not_mem (List.append_cancel_right heq) hox hoy
        (outside_append_some ho hpre) rfl rfl (hopx s) (hopy s)
      obtain ⟨hleft, -, rfl⟩ := hparts
      obtain ⟨hly, hby, -⟩ := hy.operand (hy'.operand_of_chain hoy hopy)
      rcases hx' with ⟨rfl, rfl⟩ | ⟨s', ls', rfl⟩
      · have h : Reads g .operand (x.lexemes ++ .operator s :: (y.lexemes ++ .closeParen :: rest))
            x.spelledOut (.operator s :: (y.lexemes ++ .closeParen :: rest)) := by
          simpa using h
        obtain ⟨hlx, hbx, hprec⟩ := hx.operand h
        exact ⟨hbx, hby, hly, fun _ => ⟨hlx, fun q hq => hprec s q _ rfl hq⟩⟩
      · rw [hleft] at hox
        exact absurd (outside_of_append_cons ho hox rfl).1 (hopx s')

/-- Two values with a comma between them. -/
theorem listed (hx : x.Recovers g) (hy : y.Recovers g) : (binary "," x y).Recovers g := by
  obtain ⟨ox, hox, -⟩ := x.outside_lexemes
  obtain ⟨oy, hoy, hopy, -⟩ := y.outside_lexemes
  obtain ⟨o, ho, -, hcomma⟩ := (binary "," x y).outside_lexemes
  -- what has no comma outside of its parentheses is not the text of a list
  have hno {taken rest o' : List Lexeme} (heq : (binary "," x y).lexemes ++ rest = taken ++ rest)
      (ht : outside 0 taken = some o') : .comma ∈ o' := by
    rw [← List.append_cancel_right heq, ho] at ht
    cases ht
    exact hcomma rfl
  refine ⟨fun h => ?_, fun h => ?_, fun {rest} h => ?_⟩
  · obtain ⟨taken, o', heq, ho', hc⟩ := h.outer
    exact absurd (hno heq ho') hc
  · obtain ⟨taken, o', heq, ho', hc⟩ := h.outer
    exact absurd (hno heq ho') hc
  generalize hu : (binary "," x y).spelledOut = u at h
  cases h with
  | first h =>
    obtain ⟨taken, o', heq, ho', hc⟩ := h.outer
    exact absurd (hno heq ho') hc
  | next h h' =>
    obtain ⟨-, rfl, rfl⟩ := Tree.binary.inj hu
    obtain ⟨taken, ot, heq, hot⟩ := h.outer
    obtain ⟨taken', ot', rfl, hot', hc⟩ := h'.outer
    have heq : (x.lexemes ++ .comma :: y.lexemes) ++ rest =
        (taken ++ .comma :: taken') ++ rest := by
      simpa [lexemes] using heq
    rcases append_cons_cases (List.append_cancel_right heq) with
      ⟨rfl, -, rfl⟩ | ⟨c, rfl, hyl⟩ | ⟨c, hxl, rfl⟩
    · obtain ⟨hly, hby, -⟩ := hy.operand (h'.operand_of_chain hoy hopy)
      have h : Listing g (x.lexemes ++ .comma :: (y.lexemes ++ rest)) x.spelledOut
          (.comma :: (y.lexemes ++ rest)) := by simpa [lexemes] using h
      exact ⟨hx.list h, hby, hly, fun hne => absurd rfl hne⟩
    · -- the part of the text behind its last comma keeps less than the tree
      have hkept : y.spelledOut.kept = taken'.flatMap Lexeme.kept := by
        simpa [Goal.kept, Goal.given] using h'.kept
      have := congrArg List.length (y.kept_lexemes.trans hkept)
      rw [hyl] at this
      simp [Lexeme.kept] at this
      omega
    · rw [hxl] at hox
      obtain ⟨-, w, hw⟩ := outside_of_append_cons hot hox rfl
      exact absurd (outside_of_append_cons hw hot' rfl).1 hc

/-- A value and the arguments that it is called with. -/
theorem applied (hne : callee.lexemes ≠ [])
    (hop : ∀ op ls rest, callee.lexemes ++ rest ≠ .operator op :: ls) (hc : callee.Recovers g)
    (hx : x = .literal .noArguments ∨ x.spelledOut ≠ .literal .noArguments ∧ x.Recovers g) :
    (Tree.call callee x).Recovers g := by
  obtain ⟨oc, hoc, -⟩ := callee.outside_lexemes
  obtain ⟨ox, hox, -⟩ := x.outside_lexemes
  have called {rest : List Lexeme} (h : Callable g ((Tree.call callee x).lexemes ++ rest)
      (Tree.call callee x).spelledOut rest) : (Tree.call callee x).Bracketed g := by
    rw [lexemes_call_append] at h
    generalize hls : callee.lexemes ++ .openParen :: (x.lexemes ++ .closeParen :: rest) = ls at h
    generalize hu : (Tree.call callee x).spelledOut = u at h
    cases h with
    | name => cases hu
    | group h =>
      obtain ⟨inner, oi, rfl, hoi, -⟩ := h.outer
      obtain ⟨l, others, hl⟩ := List.exists_cons_of_ne_nil hne
      rw [hl] at hls hoc
      obtain ⟨rfl, hls⟩ := List.cons.inj hls
      have hls : (others ++ .openParen :: x.lexemes) ++ .closeParen :: rest =
          inner ++ .closeParen :: rest := by simpa using hls
      rw [← List.append_cancel_right hls, outside_eq_none hoc] at hoi
      cases hoi
    | emptyCall h =>
      obtain ⟨rfl, hempty⟩ := Tree.call.inj hu
      obtain rfl := hx.resolve_right fun hx => hx.1 hempty
      rw [← hls] at h
      obtain ⟨-, hb, hcall⟩ := hc.called h
      exact ⟨hb, hcall, trivial⟩
    | call h h' =>
      obtain ⟨rfl, rfl⟩ := Tree.call.inj hu
      obtain ⟨taken, ot, rfl, hot, -⟩ := h.outer
      obtain ⟨inner, oi, rfl, hoi, -⟩ := h'.outer
      have heq : (callee.lexemes ++ .openParen :: x.lexemes) ++ .closeParen :: rest =
          (taken ++ .openParen :: inner) ++ .closeParen :: rest := by simpa using hls
      obtain ⟨rfl, rfl⟩ := outside_unique_right hoc hox hot hoi (List.append_cancel_right heq)
      obtain ⟨-, hb, hcall⟩ := hc.called h
      refine ⟨hb, hcall, ?_⟩
      rcases hx with rfl | ⟨-, hx⟩
      · trivial
      · exact hx.list h'.listing
  refine .of_operand rfl (fun h => ⟨called h, rfl⟩) fun {rest} h => ⟨?_, fun _ _ _ _ _ => trivial⟩
  have hfirst : ∀ s ls, (Tree.call callee x).lexemes ++ rest ≠ .operator s :: ls := by
    intro s ls
    rw [lexemes_call_append]
    exact hop s ls _
  rcases h.callable_or hfirst with h | ⟨-, hcall, -⟩
  · exact called h
  · exact absurd rfl (hcall _ _)

end Tree.Recovers

/-- Every tree that can be spelled is recovered from its text. -/
theorem Tree.recovers (ht : t.Spellable v) : t.Recovers g := by
  have hbegins {t : Tree} (ht : t.Spellable v) (op : String) (ls rest : List Lexeme) :
      t.lexemes ++ rest ≠ .operator op :: ls := by
    obtain ⟨l, others, hl, hb⟩ := exists_begins ht
    rw [hl]
    intro h
    cases h
    cases hb
  have hne {t : Tree} (ht : t.Spellable v) : t.lexemes ≠ [] := by
    obtain ⟨l, others, hl, -⟩ := exists_begins ht
    rw [hl]
    exact List.cons_ne_nil _ _
  have hempty {t : Tree} (ht : t.Spellable v) : t.spelledOut ≠ .literal .noArguments := by
    cases t with
    | literal value =>
      cases value with
      | number x =>
        simp only [spelledOut]
        split <;> simp
      | text s => simp [spelledOut]
      | noArguments => exact absurd ht id
    | _ => simp [spelledOut]
  induction t with
  | literal value =>
    cases value with
    | number x =>
      cases hi : x.isInf with
      | true =>
        refine .of_enclosed (lexemes_infinite hi) rfl rfl hi ?_ (fun _ => trivial) fun _ => trivial
        simp [spelledOut, hi]
      | false =>
        refine .of_operand rfl (fun h => ?_) fun _ => ⟨trivial, fun _ _ _ _ _ => trivial⟩
        rw [lexemes_finite hi] at h
        rcases h.head with ⟨n, ls, heq⟩ | ⟨ls, heq⟩ <;> cases heq
    | text s =>
      refine .of_operand rfl (fun h => ?_) fun _ => ⟨trivial, fun _ _ _ _ _ => trivial⟩
      rcases h.head with ⟨n, ls, heq⟩ | ⟨ls, heq⟩ <;> cases heq
    | noArguments => exact absurd ht id
  | name n =>
    exact .of_operand rfl (fun _ => ⟨trivial, rfl⟩) fun _ => ⟨trivial, fun _ _ _ _ _ => trivial⟩
  | unary s x ih =>
    have hplus : s ≠ "+" := by
      rintro rfl
      rcases ht.1 with h | h
      · revert h
        decide
      · have := h.1
        revert this
        decide
    cases hs : Text.hasLetter s with
    | true => exact .named hs (ih ht.2.2)
    | false => exact .signed hs hplus (hne ht.2.2) (ih ht.2.2)
  | binary s x y ihx ihy =>
    by_cases hs : s = ","
    · subst hs
      exact .listed (ihx ht.2.1) (ihy ht.2.2)
    · exact .joined hs (hbegins ht.2.1) (ihx ht.2.1) (ihy ht.2.2)
  | call callee x ihc ihx =>
    refine .applied (hne ht.1) (hbegins ht.1) (ihc ht.1) (ht.2.imp_right fun hx => ?_)
    exact ⟨hempty hx, ihx hx⟩

/-- **Only a bracketed tree reads back** from the lexemes of its text. -/
theorem Tree.bracketed_of_reads (ht : t.Spellable v)
    (h : Reads g (.chain 0) t.lexemes t.spelledOut []) : t.isList = false ∧ t.Bracketed g := by
  obtain ⟨o, ho, hop, -⟩ := t.outside_lexemes
  rw [← List.append_nil t.lexemes] at h
  obtain ⟨hl, hb, -⟩ := (recovers ht).operand (h.operand_of_chain ho hop)
  exact ⟨hl, hb⟩

end PanelCalc
