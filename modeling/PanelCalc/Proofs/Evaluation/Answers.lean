import Mathlib.Data.List.Forall2

/-! # Answers

An answer is a result or an error. One answer follows another if both are
results that are related in some way, or both the same error. Where failures do
not matter, anything follows an error. Of a single answer it may be known that
it fails with certain errors only. -/
namespace PanelCalc

theorem bind_ok {ε α β : Type} {x : Except ε α} {f : α → Except ε β} {y : β}
    (h : (x >>= f) = .ok y) : ∃ a, x = .ok a ∧ f a = .ok y := by
  cases x with
  | error e => cases h
  | ok a => exact ⟨a, rfl, h⟩

theorem map_ok {ε α β : Type} {x : Except ε α} {f : α → β} {y : β} (h : x.map f = .ok y) :
    ∃ a, x = .ok a ∧ f a = y := by
  cases x with
  | error e => cases h
  | ok a => exact ⟨a, rfl, Except.ok.inj h⟩

/-- Errors that are told in another way leave results as they are. -/
theorem mapError_ok {ε ε' α : Type} {x : Except ε α} {f : ε → ε'} {y : α}
    (h : x.mapError f = .ok y) : x = .ok y := by
  cases x with
  | error e => cases h
  | ok a => exact congrArg Except.ok (Except.ok.inj h)

/-- Two steps give a result if the first does and the second one does with it. -/
theorem exists_bind_ok {ε α β : Type} {x : Except ε α} {f : α → Except ε β} :
    (∃ y, (x >>= f) = .ok y) ↔ ∃ a, x = .ok a ∧ ∃ y, f a = .ok y := by
  constructor
  · rintro ⟨y, h⟩
    obtain ⟨a, ha, hy⟩ := bind_ok h
    exact ⟨a, ha, y, hy⟩
  · rintro ⟨a, rfl, y, hy⟩
    exact ⟨y, hy⟩

/-- Two steps fail as the first does, or as the second one does with its result. -/
theorem bind_error {ε α β : Type} {x : Except ε α} {f : α → Except ε β} {e : ε}
    (h : (x >>= f) = .error e) : x = .error e ∨ ∃ a, x = .ok a ∧ f a = .error e := by
  cases x with
  | error e' => exact .inl (congrArg Except.error (Except.error.inj h))
  | ok a => exact .inr ⟨a, rfl, h⟩

/-- Steps that do the same one by one do the same one after another. -/
theorem foldlM_congr {ε α β : Type} {f g : β → α → Except ε β} {xs : List α}
    (h : ∀ x ∈ xs, ∀ y, f y x = g y x) (y : β) : xs.foldlM f y = xs.foldlM g y := by
  induction xs generalizing y with
  | nil => rfl
  | cons x xs ih =>
    obtain ⟨hx, hxs⟩ := List.forall_mem_cons.mp h
    rw [List.foldlM_cons, List.foldlM_cons, hx y]
    exact bind_congr (ih hxs)

/-- What every step keeps holds at the end if it holds at the start. -/
theorem foldlM_preserves {ε α β : Type} {P : β → Prop} {f : β → α → Except ε β} {xs : List α}
    (step : ∀ x ∈ xs, ∀ {y z}, f y x = .ok z → P y → P z) {y z : β} (h : xs.foldlM f y = .ok z)
    (hy : P y) : P z := by
  induction xs generalizing y with
  | nil =>
    cases h
    exact hy
  | cons x xs ih =>
    obtain ⟨hx, hxs⟩ := List.forall_mem_cons.mp step
    obtain ⟨next, hnext, h⟩ := bind_ok h
    exact ih hxs h (hx hnext hy)

theorem getElem?_of_forall₂ {α β : Type} {R : α → β → Prop} {xs : List α} {ys : List β} {i : Nat}
    {x : α} (h : List.Forall₂ R xs ys) (hx : xs[i]? = some x) : ∃ y, ys[i]? = some y ∧ R x y := by
  obtain ⟨hi, rfl⟩ := List.getElem?_eq_some_iff.mp hx
  have hj : i < ys.length := h.length_eq ▸ hi
  exact ⟨ys[i], List.getElem?_eq_getElem hj, h.get hi hj⟩

/-- The results of a list of steps are those of its steps. -/
theorem forall₂_of_mapM {ε α β : Type} {f : α → Except ε β} {xs : List α} {ys : List β}
    (h : xs.mapM f = .ok ys) : List.Forall₂ (fun x y => f x = .ok y) xs ys := by
  induction xs generalizing ys with
  | nil =>
    cases h
    exact .nil
  | cons x xs ih =>
    rw [List.mapM_cons] at h
    obtain ⟨y, hy, h⟩ := bind_ok h
    obtain ⟨others, hothers, h⟩ := bind_ok h
    cases h
    exact .cons hy (ih hothers)

theorem getElem?_of_mapM {ε α β : Type} {f : α → Except ε β} {xs : List α} {ys : List β} {i : Nat}
    {x : α} (h : xs.mapM f = .ok ys) (hx : xs[i]? = some x) :
    ∃ y, f x = .ok y ∧ ys[i]? = some y := by
  obtain ⟨y, hy, hf⟩ := getElem?_of_forall₂ (forall₂_of_mapM h) hx
  exact ⟨y, hf, hy⟩

/-- A list of steps gives a result if each of them does. -/
theorem mapM_ok_iff {ε α β : Type} {f : α → Except ε β} {xs : List α} :
    (∃ ys, xs.mapM f = .ok ys) ↔ ∀ x ∈ xs, ∃ y, f x = .ok y := by
  constructor
  · rintro ⟨ys, h⟩ x hx
    obtain ⟨i, hi⟩ := List.getElem?_of_mem hx
    obtain ⟨y, hy, -⟩ := getElem?_of_mapM h hi
    exact ⟨y, hy⟩
  · intro h
    induction xs with
    | nil => exact ⟨[], rfl⟩
    | cons x xs ih =>
      obtain ⟨y, hy⟩ := h x (.head _)
      obtain ⟨ys, hys⟩ := ih fun x hx => h x (.tail _ hx)
      exact ⟨y :: ys, by rw [List.mapM_cons, hy, hys]; rfl⟩

/-- The results of a tuple of steps. -/
theorem mapM_ofFn {ε α β : Type} {f : α → Except ε β} {n : Nat} {xs : Fin n → α} {ys : Fin n → β}
    (h : ∀ i, f (xs i) = .ok (ys i)) : (List.ofFn xs).mapM f = .ok (List.ofFn ys) := by
  induction n with
  | zero => rfl
  | succ n ih =>
    rw [List.ofFn_succ, List.ofFn_succ, List.mapM_cons, h 0, ih fun i => h i.succ]
    rfl

theorem exists_of_mapM_ofFn {ε α β : Type} {f : α → Except ε β} {n : Nat} {xs : Fin n → α}
    {results : List β} (h : (List.ofFn xs).mapM f = .ok results) :
    ∃ ys : Fin n → β, results = List.ofFn ys ∧ ∀ i, f (xs i) = .ok (ys i) := by
  have each : ∀ i, ∃ y, f (xs i) = .ok y := fun i =>
    mapM_ok_iff.mp ⟨results, h⟩ (xs i) (List.mem_ofFn.mpr ⟨i, rfl⟩)
  choose ys hys using each
  exact ⟨ys, Except.ok.inj (h.symm.trans (mapM_ofFn hys)), hys⟩

/-- Two answers: related results, or one and the same error. Unless errors are
taken strictly, any answer follows one. -/
inductive Follows {ε α β : Type} (strict : Prop) (R : α → β → Prop) :
    Except ε α → Except ε β → Prop
  | ok {x y} : R x y → Follows strict R (.ok x) (.ok y)
  | error {e} : Follows strict R (.error e) (.error e)
  | failed {e y} : ¬ strict → Follows strict R (.error e) y

/-- Two answers: related results, or one and the same error. -/
abbrev Alike {ε α β : Type} (R : α → β → Prop) : Except ε α → Except ε β → Prop :=
  Follows True R

namespace Follows

variable {ε ε' α β α' β' : Type} {strict : Prop} {R : α → β → Prop} {S : α' → β' → Prop}

theorem bind {x : Except ε α} {y : Except ε β} {f : α → Except ε α'} {g : β → Except ε β'}
    (h : Follows strict R x y) (hf : ∀ a b, R a b → Follows strict S (f a) (g b)) :
    Follows strict S (x >>= f) (y >>= g) := by
  cases h with
  | ok h => exact hf _ _ h
  | error => exact .error
  | failed h => exact .failed h

theorem map {x : Except ε α} {y : Except ε β} {f : α → α'} {g : β → β'}
    (h : Follows strict R x y) (hf : ∀ a b, R a b → S (f a) (g b)) :
    Follows strict S (x.map f) (y.map g) := by
  cases h with
  | ok h => exact .ok (hf _ _ h)
  | error => exact .error
  | failed h => exact .failed h

theorem mapError {x : Except ε α} {y : Except ε β} (h : Follows strict R x y) (f : ε → ε') :
    Follows strict R (x.mapError f) (y.mapError f) := by
  cases h with
  | ok h => exact .ok h
  | error => exact .error
  | failed h => exact .failed h

theorem imp {x : Except ε α} {y : Except ε β} {R' : α → β → Prop} (h : Follows strict R x y)
    (hR : ∀ a b, R a b → R' a b) : Follows strict R' x y := by
  cases h with
  | ok h => exact .ok (hR _ _ h)
  | error => exact .error
  | failed h => exact .failed h

theorem of_eq {x y : Except ε α} (h : x = y) : Follows strict Eq x y := by
  subst h
  cases x with
  | ok a => exact .ok rfl
  | error e => exact .error

/-- Answers with the same results are the same. -/
theorem eq {x y : Except ε α} (h : Alike Eq x y) : x = y := by
  cases h with
  | ok h => rw [h]
  | error => rfl
  | failed h => exact absurd trivial h

theorem mapM {f : α → Except ε α'} {g : β → Except ε β'} {xs : List α} {ys : List β}
    (h : List.Forall₂ R xs ys) (hf : ∀ a b, R a b → Follows strict S (f a) (g b)) :
    Follows strict (List.Forall₂ S) (xs.mapM f) (ys.mapM g) := by
  induction h with
  | nil => exact .ok .nil
  | cons h _ ih =>
    rw [List.mapM_cons, List.mapM_cons]
    refine (hf _ _ h).bind fun a b hab => ih.bind fun as bs hs => ?_
    exact .ok (.cons hab hs)

/-- Steps that follow each other one by one do so one after another. -/
theorem foldlM {γ : Type} {f : α → γ → Except ε α} {g : β → γ → Except ε β} {xs : List γ}
    (hf : ∀ x ∈ xs, ∀ a b, R a b → Follows strict R (f a x) (g b x)) {a : α} {b : β} (h : R a b) :
    Follows strict R (xs.foldlM f a) (xs.foldlM g b) := by
  induction xs generalizing a b with
  | nil => exact .ok h
  | cons x xs ih =>
    obtain ⟨hx, hxs⟩ := List.forall_mem_cons.mp hf
    rw [List.foldlM_cons, List.foldlM_cons]
    exact (hx a b h).bind fun _ _ => ih hxs

/-- A result is followed by a result. -/
theorem exists_ok {x : Except ε α} {y : Except ε β} {a : α} (h : Follows strict R x y)
    (ha : x = .ok a) : ∃ b, y = .ok b ∧ R a b := by
  subst ha
  cases h with
  | ok h => exact ⟨_, rfl, h⟩

/-- What is known of the results because they are results. -/
theorem of_ok {x : Except ε α} {y : Except ε β} {R' : α → β → Prop} (h : Follows strict R x y)
    (hR : ∀ a b, x = .ok a → y = .ok b → R a b → R' a b) : Follows strict R' x y := by
  cases h with
  | ok h => exact .ok (hR _ _ rfl rfl h)
  | error => exact .error
  | failed h => exact .failed h

/-- Where failures do not matter, it is enough to answer every result. -/
theorem of_lenient {x : Except ε α} {y : Except ε β}
    (h : ∀ a, x = .ok a → ∃ b, y = .ok b ∧ R a b) : Follows False R x y := by
  cases x with
  | error e => exact .failed id
  | ok a =>
    obtain ⟨b, rfl, hb⟩ := h a rfl
    exact .ok hb

end Follows

/-- A result, or one of certain errors. -/
inductive FailsBy {ε α : Type} (P : ε → Prop) : Except ε α → Prop
  | ok {x} : FailsBy P (.ok x)
  | error {e} : P e → FailsBy P (.error e)

namespace FailsBy

variable {ε ε' α β : Type} {P Q : ε → Prop}

theorem of_error {x : Except ε α} (h : FailsBy P x) {e : ε} (he : x = .error e) : P e := by
  subst he
  cases h with
  | error h => exact h

theorem imp {x : Except ε α} (h : FailsBy P x) (hP : ∀ e, P e → Q e) : FailsBy Q x := by
  cases h with
  | ok => exact .ok
  | error h => exact .error (hP _ h)

theorem bind {x : Except ε α} {f : α → Except ε β} (h : FailsBy P x) (hf : ∀ a, FailsBy P (f a)) :
    FailsBy P (x >>= f) := by
  cases h with
  | ok => exact hf _
  | error h => exact .error h

theorem mapError {x : Except ε' α} {f : ε' → ε} (h : ∀ e, P (f e)) : FailsBy P (x.mapError f) := by
  cases x with
  | ok a => exact .ok
  | error e => exact .error (h e)

theorem mapM {f : α → Except ε β} {xs : List α} (h : ∀ x, FailsBy P (f x)) :
    FailsBy P (xs.mapM f) := by
  induction xs with
  | nil => exact .ok
  | cons x xs ih =>
    rw [List.mapM_cons]
    exact (h x).bind fun y => ih.bind fun ys => .ok

end FailsBy

end PanelCalc
