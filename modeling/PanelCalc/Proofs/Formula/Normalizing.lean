import PanelCalc.Proofs.Formula.NormalForms

/-! # Simplifying to a normal form

To simplify a formula with numbers for some of its names is to put the numbers in
place of the names and then to simplify without any. What comes out is a normal
form: all terms of numbers have become numbers, and simplifying once more changes
nothing. -/
namespace PanelCalc.Formula

variable {H : Type} {f : Formula H} {numbers : String → Option Float} {name : String} {x : Float}
  {names : List String}

/-- The formula with a number in place of a name. -/
def withNumber (f : Formula H) (name : String) (x : Float) : Formula H :=
  f.substitute name ⟨[.literal (.number x)], f.vocabulary⟩

/-- The formula with their numbers in place of those names that have one. -/
def withNumbers (numbers : String → Option Float) (f : Formula H) : List String → Formula H
  | [] => f
  | name :: names =>
    match numbers name with
    | some x => (f.withNumber name x).withNumbers numbers names
    | none => f.withNumbers numbers names

/-- Numbers matter at the names that are mentioned. -/
theorem simplify_congr {numbers' : String → Option Float}
    (h : ∀ n, .var n ∈ f.program → numbers n = numbers' n) :
    f.simplify numbers = f.simplify numbers' := by
  have hstep : ∀ step ∈ f.program, ∀ output,
      Step.simplify f.vocabulary numbers output step =
        Step.simplify f.vocabulary numbers' output step := by
    intro step hm output
    fun_cases Step.simplify f.vocabulary numbers output step with
    | case1 n output x hn => simp only [Step.simplify, ← h n hm, hn]
    | case2 n output hn => simp only [Step.simplify, ← h n hm, hn]
    | case5 symbol y x output hs => simp only [Step.simplify, if_neg hs]
    | case6 => simp only [Step.simplify]
    | _ => rfl
  unfold simplify
  rw [foldlM_congr hstep]

/-! ## Numbers in place of names -/

theorem program_withNumber : (f.withNumber name x).program =
    f.program.map fun step => if step = .var name then .literal (.number x) else step := by
  rw [List.map_eq_flatMap]
  show f.program.flatMap _ = f.program.flatMap _
  congr 1
  funext step
  split <;> rfl

/-- A name gives way to its number just as well when simplifying. -/
theorem simplify_withNumber (h : numbers name = some x) :
    (f.withNumber name x).simplify numbers = f.simplify numbers := by
  unfold simplify
  rw [program_withNumber, List.foldlM_map]
  congr 2
  funext output step
  split
  · rename_i hs
    rw [hs]
    simp [Step.simplify, h]
  · rfl

theorem simplify_withNumbers (f : Formula H) (names : List String) :
    (f.withNumbers numbers names).simplify numbers = f.simplify numbers := by
  induction names generalizing f with
  | nil => rfl
  | cons name names ih =>
    cases h : numbers name with
    | none => simp only [withNumbers, h, ih]
    | some x => simp only [withNumbers, h, ih, simplify_withNumber h]

theorem mem_withNumber {n : String} (h : .var n ∈ (f.withNumber name x).program) :
    .var n ∈ f.program ∧ n ≠ name := by
  rw [program_withNumber] at h
  obtain ⟨step, hm, hstep⟩ := List.mem_map.mp h
  split at hstep
  · cases hstep
  · rename_i hne
    subst hstep
    exact ⟨hm, fun hn => hne (congrArg Step.var hn)⟩

/-- The names that are left have no numbers. -/
theorem mem_withNumbers {n : String} (h : .var n ∈ (f.withNumbers numbers names).program) :
    .var n ∈ f.program ∧ (n ∈ names → numbers n = none) := by
  induction names generalizing f with
  | nil => exact ⟨h, nofun⟩
  | cons name names ih =>
    cases hname : numbers name with
    | none =>
      simp only [withNumbers, hname] at h
      obtain ⟨hm, hnames⟩ := ih h
      refine ⟨hm, fun hn => ?_⟩
      rcases List.mem_cons.mp hn with rfl | hn
      · exact hname
      · exact hnames hn
    | some x =>
      simp only [withNumbers, hname] at h
      obtain ⟨hm, hnames⟩ := ih h
      obtain ⟨hf, hne⟩ := mem_withNumber hm
      exact ⟨hf, fun hn => hnames ((List.mem_cons.mp hn).resolve_left hne)⟩

/-! ## The normal form -/

/-- **Simplifying leads to a normal form.** Nothing is left to carry out, no step
has been added, and simplifying again without any numbers changes nothing. A term
of numbers, wherever it stands, becomes the number that it is simplified to by
itself, and the only terms of numbers that are left are numbers. Simplifying with
numbers for names is simplifying the formula with the numbers in their places, an
error of an operator included. -/
theorem simplify_normalizes (f : Formula H) (numbers : String → Option Float) :
    (∀ f', f.simplify numbers = .ok f' →
      f'.program.Normal numbers ∧ f'.program.length ≤ f.program.length ∧
      (∀ front (t : Tree) back, t.Ground numbers → f.program = front ++ t.postorder ++ back →
        ∃ x, simplify ⟨t.postorder, f.vocabulary⟩ numbers =
            .ok ⟨[.literal (.number x)], f.vocabulary⟩ ∧
          simplify ⟨front ++ .literal (.number x) :: back, f.vocabulary⟩ numbers = .ok f') ∧
      (∀ t : Tree, t.Ground numbers → t.postorder <:+: f'.program →
        ∃ x, t = .literal (.number x)) ∧
      f'.simplify (fun _ => none) = .ok f') ∧
    ∀ names, (∀ n, .var n ∈ f.program → (numbers n).isSome → n ∈ names) →
      (f.withNumbers numbers names).simplify (fun _ => none) = f.simplify numbers := by
  refine ⟨fun f' h => ?_, fun names hnames => ?_⟩
  · have hnormal := normal_simplify h
    refine ⟨hnormal, length_simplify h, fun front t back ht hf => ?_,
      fun t ht hp => ht.eq_number hnormal hp, simplify_of_normal hnormal.without_numbers⟩
    have hparts : simplify ⟨front ++ t.postorder ++ back, f.vocabulary⟩ numbers = .ok f' := by
      rw [← hf]
      exact h
    exact simplify_ground ht hparts
  · rw [← simplify_withNumbers f names]
    refine simplify_congr fun n hn => ?_
    obtain ⟨hf, hgone⟩ := mem_withNumbers hn
    cases hnumber : numbers n with
    | none => rfl
    | some x => exact absurd (hgone (hnames n hf (by simp [hnumber]))) (by simp [hnumber])

/-- A call whose second argument is a term of numbers, times such a term with a name:
`Ts_Mean(close, 2 + 1) * (1 - n)`. -/
def meanTimes : Formula Empty where
  program :=
    [.var "Ts_Mean", .var "close", .literal (.number 2), .literal (.number 1), .binary "+",
      .binary ",", .call, .literal (.number 1), .var "n", .binary "-", .binary "*"]
  vocabulary := .builtin .upper

/-- The number three for the name `n`. -/
def threeForN (name : String) : Option Float := if name = "n" then some 3 else none

/-- With three for `n`, both terms of `meanTimes` become numbers, the one inside the call too. -/
theorem simplify_normalizes_meanTimes : ∃ f', meanTimes.simplify threeForN = .ok f' ∧
    f'.program = [.var "Ts_Mean", .var "close", .literal (.number (2 + 1)), .binary ",", .call,
      .literal (.number (1 - 3)), .binary "*"] ∧
    f'.program.Normal threeForN ∧ f'.simplify (fun _ => none) = .ok f' ∧
    (∃ x, simplify (H := Empty) ⟨[.literal (.number 2), .literal (.number 1), .binary "+"],
      .builtin .upper⟩ threeForN = .ok ⟨[.literal (.number x)], .builtin .upper⟩) ∧
    (∀ t : Tree, t.Ground threeForN → t.postorder <:+: f'.program →
      ∃ x, t = .literal (.number x)) ∧
    (meanTimes.withNumbers threeForN ["n"]).simplify (fun _ => none) = .ok f' := by
  have hs : meanTimes.simplify threeForN = .ok ⟨[.var "Ts_Mean", .var "close",
      .literal (.number (2 + 1)), .binary ",", .call, .literal (.number (1 - 3)), .binary "*"],
      .builtin .upper⟩ := rfl
  obtain ⟨hresult, hnames⟩ := simplify_normalizes meanTimes threeForN
  obtain ⟨hnormal, -, hterms, hleft, hagain⟩ := hresult _ hs
  have hcover : ∀ n, .var n ∈ meanTimes.program → (threeForN n).isSome → n ∈ ["n"] := by
    intro n _ hn
    unfold threeForN at hn
    split at hn
    · simp [*]
    · cases hn
  obtain ⟨x, hx, -⟩ := hterms [.var "Ts_Mean", .var "close"]
    (.binary "+" (.literal (.number 2)) (.literal (.number 1))) _
    (.binary (by decide) (.number 2) (.number 1)) rfl
  exact ⟨_, hs, rfl, hnormal, hagain, ⟨x, hx⟩, hleft, (hnames ["n"] hcover).trans hs⟩

end PanelCalc.Formula
