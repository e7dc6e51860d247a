import Mathlib.Data.List.Induction

/-!
# Histories

A history is a list of what happened, and the place of something in it is its time. Much of
what a table or a bus knows is a matter of what happened last: what was done at a time stands
until something undoes it (`Standing`). One law says what stands after one more moment
(`standing_concat`), so what stands after a whole history is found by induction from its end.
-/

namespace ModuleTyping

/-- Something was done at a time, and nothing that undoes it happened since. -/
structure Standing {τ : Type} (history : List τ) (time : Nat) (does undoes : τ → Prop) : Prop where
  done : ∃ moment, history[time]? = some moment ∧ does moment
  since : ∀ later moment, time < later → history[later]? = some moment → ¬ undoes moment

variable {τ : Type} {history : List τ} {moment : τ} {time : Nat} {does undoes : τ → Prop}

theorem getElem?_concat_eq_some {other : τ} : (history ++ [moment])[time]? = some other ↔
    history[time]? = some other ∨ time = history.length ∧ moment = other := by
  grind

theorem Standing.lt_length (stands : Standing history time does undoes) :
    time < history.length := by
  obtain ⟨moment, found, -⟩ := stands.done
  exact (List.getElem?_eq_some_iff.mp found).1

/-- What stands after one more moment stood before and is not undone by it, or is done in it. -/
theorem standing_concat : Standing (history ++ [moment]) time does undoes ↔
    (Standing history time does undoes ∧ ¬ undoes moment) ∨
      (time = history.length ∧ does moment) := by
  constructor
  · rintro ⟨⟨earlier, found, did⟩, since⟩
    rcases getElem?_concat_eq_some.mp found with found | ⟨now, rfl⟩
    · refine .inl ⟨⟨⟨earlier, found, did⟩, fun later other after found => ?_⟩, ?_⟩
      · exact since later other after (getElem?_concat_eq_some.mpr (.inl found))
      · have before := (List.getElem?_eq_some_iff.mp found).1
        exact since history.length moment before (getElem?_concat_eq_some.mpr (.inr ⟨rfl, rfl⟩))
    · exact .inr ⟨now, did⟩
  · rintro (⟨⟨⟨earlier, found, did⟩, since⟩, kept⟩ | ⟨rfl, does⟩)
    · refine ⟨⟨earlier, getElem?_concat_eq_some.mpr (.inl found), did⟩,
        fun later other after found => ?_⟩
      rcases getElem?_concat_eq_some.mp found with found | ⟨-, rfl⟩
      · exact since later other after found
      · exact kept
    · refine ⟨⟨moment, getElem?_concat_eq_some.mpr (.inr ⟨rfl, rfl⟩), does⟩,
        fun later other after found => ?_⟩
      rcases getElem?_concat_eq_some.mp found with found | ⟨rfl, -⟩
      · exact absurd (List.getElem?_eq_some_iff.mp found).1 (Nat.lt_asymm after)
      · exact absurd after (Nat.lt_irrefl _)

end ModuleTyping
