import Mathlib.Data.List.Forall2

/-!
# Computations that leave a state whatever they come to

Checks, loading and lowering are computations that may end with an error and leave a state
in either case. This module says what a sequence of them does: the outcome of a sequence is
that of its first step that fails, a property of states that every step preserves is
preserved by the whole, as is one of the errors that the steps end with, and a list that is
worked through with success is worked through element by element.
-/

namespace ModuleTyping

variable {ε σ α β : Type}

/-- Of two lists that are related element by element, each element of the first has a
counterpart in the second. -/
theorem exists_related {R : α → β → Prop} {l : List α} {l' : List β}
    (related : List.Forall₂ R l l') {a : α} (member : a ∈ l) : ∃ b ∈ l', R a b := by
  induction related with
  | nil => cases member
  | cons first _ ih =>
      rcases List.mem_cons.mp member with rfl | member
      · exact ⟨_, List.mem_cons_self, first⟩
      · obtain ⟨b, member, related⟩ := ih member
        exact ⟨b, List.mem_cons_of_mem _ member, related⟩

/-- A computation over states of type `σ` that may end with an error. -/
abbrev Stateful (ε σ α : Type) := ExceptT ε (StateM σ) α

namespace Stateful

theorem bind_apply (x : Stateful ε σ α) (f : α → Stateful ε σ β) (s : σ) :
    (x >>= f) s =
      match x s with
      | (.ok a, t) => f a t
      | (.error e, t) => (.error e, t) := by
  simp only [Bind.bind, ExceptT.bind, ExceptT.mk, StateT.bind, ExceptT.bindCont]
  rcases x s with ⟨_ | _, _⟩ <;> rfl

/-- A success of two steps is one of each. -/
theorem ok_of_bind {x : Stateful ε σ α} {f : α → Stateful ε σ β} {s t : σ} {b : β}
    (ran : (x >>= f) s = (.ok b, t)) : ∃ a r, x s = (.ok a, r) ∧ f a r = (.ok b, t) := by
  rw [bind_apply] at ran
  rcases first : x s with ⟨e | a, r⟩
  · rw [first] at ran
    cases ran
  · rw [first] at ran
    exact ⟨a, r, rfl, ran⟩

/-- Every run from a state with the property leaves one that has it. -/
def Preserves (P : σ → Prop) (x : Stateful ε σ α) : Prop :=
  ∀ s, P s → P (x s).2

namespace Preserves

variable {P : σ → Prop}

theorem pure (a : α) : Preserves P (Pure.pure a : Stateful ε σ α) :=
  fun _ holds => holds

theorem throws (e : ε) : Preserves P (throw e : Stateful ε σ α) :=
  fun _ holds => holds

theorem modifies {f : σ → σ} (kept : ∀ s, P s → P (f s)) :
    Preserves P (modify f : Stateful ε σ Unit) :=
  kept

theorem get_bind {f : σ → Stateful ε σ β} (rest : ∀ s, Preserves P (f s)) :
    Preserves P (get >>= f) :=
  fun s holds => rest s s holds

theorem bind {x : Stateful ε σ α} {f : α → Stateful ε σ β} (first : Preserves P x)
    (rest : ∀ a, Preserves P (f a)) : Preserves P (x >>= f) := by
  intro s holds
  have after := first s holds
  rw [bind_apply]
  generalize x s = run at after ⊢
  rcases run with ⟨e | a, t⟩
  · exact after
  · exact rest a t after

theorem forM_mem {f : α → Stateful ε σ Unit} {l : List α} (each : ∀ a ∈ l, Preserves P (f a)) :
    Preserves P (l.forM f) := by
  induction l with
  | nil => exact .pure ()
  | cons a l ih =>
      exact (each a List.mem_cons_self).bind fun _ =>
        ih fun b member => each b (List.mem_cons_of_mem a member)

theorem forM {f : α → Stateful ε σ Unit} (each : ∀ a, Preserves P (f a)) (l : List α) :
    Preserves P (l.forM f) :=
  forM_mem fun a _ => each a

theorem mapM {f : α → Stateful ε σ β} (each : ∀ a, Preserves P (f a)) (l : List α) :
    Preserves P (l.mapM f) := by
  induction l with
  | nil => exact .pure []
  | cons a l ih =>
      rw [List.mapM_cons]
      exact (each a).bind fun _ => ih.bind fun _ => .pure _

end Preserves

/-- Whatever state it starts from, it ends with an error that has the property, if with any. -/
def Fails (E : ε → Prop) (x : Stateful ε σ α) : Prop :=
  ∀ s e, (x s).1 = .error e → E e

namespace Fails

variable {E : ε → Prop}

theorem pure (a : α) : Fails E (Pure.pure a : Stateful ε σ α) := by
  intro s e failed
  cases failed

theorem throws {e : ε} (holds : E e) : Fails E (throw e : Stateful ε σ α) := by
  intro s e failed
  cases failed
  exact holds

theorem modifies (f : σ → σ) : Fails E (modify f : Stateful ε σ Unit) := by
  intro s e failed
  cases failed

theorem get_bind {f : σ → Stateful ε σ β} (rest : ∀ s, Fails E (f s)) : Fails E (get >>= f) :=
  fun s => rest s s

theorem bind {x : Stateful ε σ α} {f : α → Stateful ε σ β} (first : Fails E x)
    (rest : ∀ a, Fails E (f a)) : Fails E (x >>= f) := by
  intro s e failed
  have errors := first s
  rw [bind_apply] at failed
  generalize x s = run at errors failed
  rcases run with ⟨e' | a, t⟩
  · cases failed
    exact errors e rfl
  · exact rest a t e failed

theorem ite {p : Prop} [Decidable p] {x y : Stateful ε σ α} (pos : Fails E x) (neg : Fails E y) :
    Fails E (if p then x else y) := by
  split
  · exact pos
  · exact neg

/-- What comes after a condition that ends the computation where it does not hold. -/
theorem guarded {p : Prop} [Decidable p] {e : ε} {rest : Unit → Stateful ε σ α} (holds : E e)
    (next : Fails E (rest ())) : Fails E (if p then rest () else throw e >>= rest) :=
  .ite next (.bind (.throws holds) fun _ => next)

theorem forM {f : α → Stateful ε σ Unit} (each : ∀ a, Fails E (f a)) (l : List α) :
    Fails E (l.forM f) := by
  induction l with
  | nil => exact .pure ()
  | cons a l ih => exact (each a).bind fun _ => ih

theorem mapM {f : α → Stateful ε σ β} (each : ∀ a, Fails E (f a)) (l : List α) :
    Fails E (l.mapM f) := by
  induction l with
  | nil => exact .pure []
  | cons a l ih =>
      rw [List.mapM_cons]
      exact (each a).bind fun _ => ih.bind fun _ => .pure _

end Fails

/-! ### Two runs side by side -/

section Agree

variable {τ γ δ : Type} {S : σ → τ → Prop} {R : α → β → Prop} {Q : γ → δ → Prop}

/-- Both runs end with an error, or both succeed with related results and leave related
states. -/
def Corresponds (S : σ → τ → Prop) (R : α → β → Prop) :
    Except ε α × σ → Except ε β × τ → Prop
  | (.ok a, s), (.ok b, t) => R a b ∧ S s t
  | (.error _, _), (.error _, _) => True
  | _, _ => False

/-- Two runs that correspond fail both or succeed both. -/
theorem Corresponds.cases {S : σ → τ → Prop} {R : α → β → Prop} {run : Except ε α × σ}
    {run' : Except ε β × τ} (corresponds : Corresponds S R run run') :
    (∃ e e' s t, run = (.error e, s) ∧ run' = (.error e', t)) ∨
      ∃ a b s t, run = (.ok a, s) ∧ run' = (.ok b, t) ∧ R a b ∧ S s t := by
  rcases run with ⟨e | a, s⟩ <;> rcases run' with ⟨e' | b, t⟩
  · exact .inl ⟨e, e', s, t, rfl, rfl⟩
  · exact corresponds.elim
  · exact corresponds.elim
  · exact .inr ⟨a, b, s, t, rfl, rfl, corresponds⟩

/-- Of two runs that correspond, both succeed or neither does. -/
theorem Corresponds.ok_iff {S : σ → τ → Prop} {R : α → β → Prop} {run : Except ε α × σ}
    {run' : Except ε β × τ} (corresponds : Corresponds S R run run') :
    (∃ a, run.1 = .ok a) ↔ ∃ b, run'.1 = .ok b := by
  obtain ⟨_, _, _, _, rfl, rfl⟩ | ⟨a, b, _, _, rfl, rfl, -⟩ := corresponds.cases
  · constructor <;> rintro ⟨_, ⟨⟩⟩
  · exact ⟨fun _ => ⟨b, rfl⟩, fun _ => ⟨a, rfl⟩⟩

/-- Runs from related states correspond. -/
structure Agree (S : σ → τ → Prop) (R : α → β → Prop) (x : Stateful ε σ α)
    (y : Stateful ε τ β) : Prop where
  run : ∀ {s t}, S s t → Corresponds S R (x s) (y t)

namespace Agree

theorem pure {a : α} {b : β} (related : R a b) :
    Agree S R (Pure.pure a : Stateful ε σ α) (Pure.pure b) :=
  ⟨fun states => ⟨related, states⟩⟩

theorem throws (e e' : ε) : Agree S R (throw e : Stateful ε σ α) (throw e') :=
  ⟨fun _ => trivial⟩

theorem modifies {f : σ → σ} {g : τ → τ} (kept : ∀ s t, S s t → S (f s) (g t)) :
    Agree S (fun _ _ => True) (modify f : Stateful ε σ Unit) (modify g) :=
  ⟨fun states => ⟨trivial, kept _ _ states⟩⟩

theorem bind {x : Stateful ε σ α} {y : Stateful ε τ β} {f : α → Stateful ε σ γ}
    {g : β → Stateful ε τ δ} (first : Agree S R x y)
    (rest : ∀ a b, R a b → Agree S Q (f a) (g b)) : Agree S Q (x >>= f) (y >>= g) := by
  refine ⟨fun {s t} states => ?_⟩
  rw [bind_apply, bind_apply]
  obtain ⟨_, _, _, _, ran, ran'⟩ | ⟨a, b, _, _, ran, ran', related, states⟩ :=
    (first.run states).cases
  · rw [ran, ran']
    trivial
  · rw [ran, ran']
    exact (rest a b related).run states

theorem mono {R' : α → β → Prop} {x : Stateful ε σ α} {y : Stateful ε τ β}
    (agree : Agree S R x y) (weaker : ∀ a b, R a b → R' a b) : Agree S R' x y := by
  refine ⟨fun {s t} states => ?_⟩
  obtain ⟨_, _, _, _, ran, ran'⟩ | ⟨a, b, _, _, ran, ran', related, states⟩ :=
    (agree.run states).cases
  · rw [ran, ran']
    trivial
  · rw [ran, ran']
    exact ⟨weaker a b related, states⟩

theorem ite {p q : Prop} [Decidable p] [Decidable q] {x x' : Stateful ε σ α}
    {y y' : Stateful ε τ β} (same : p ↔ q) (pos : p → Agree S R x y)
    (neg : ¬ p → Agree S R x' y') : Agree S R (if p then x else x') (if q then y else y') := by
  by_cases holds : p
  · rw [if_pos holds, if_pos (same.mp holds)]
    exact pos holds
  · rw [if_neg holds, if_neg fun other => holds (same.mpr other)]
    exact neg holds

/-- What comes after a condition that ends the computations where it does not hold. -/
theorem guarded {p q : Prop} [Decidable p] [Decidable q] (same : p ↔ q) {e e' : ε}
    {rest : Unit → Stateful ε σ α} {rest' : Unit → Stateful ε τ β}
    (next : Agree S R (rest ()) (rest' ())) :
    Agree S R (if p then rest () else throw e >>= rest)
      (if q then rest' () else throw e' >>= rest') :=
  .ite same (fun _ => next) fun _ => .bind (R := fun _ _ => True) (.throws e e') fun _ _ _ => next

end Agree

end Agree

end Stateful

end ModuleTyping
