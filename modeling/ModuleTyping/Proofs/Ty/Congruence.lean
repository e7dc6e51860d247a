import ModuleTyping.Proofs.Ty.Sameness
import ModuleTyping.Proofs.Unification.Soft
import ModuleTyping.Ty.Text

/-!
# What is seen of types that are the same

Types that are the same may differ in what declared types hold and in how variables are
constrained. Whatever can be told from the outline of a type is nevertheless alike for both
(`eq_of_same`). That goes for the name of a type, for the way it is written and for the types
it is equivalent to, on either side of the comparison (`outline_equivalent`,
`equivalent_comm`).

Equivalence is coarser than sameness and is not transitive: where only one of two types is an
array or an application, the two are compared by name, and what the other holds is not looked
at.
-/

namespace ModuleTyping.Ty

/-! ### What the outline tells -/

/-- What can be told from the outline of a type is alike for types that are the same. -/
theorem eq_of_same {α : Type} (observe : Ty → α) (told : ∀ ty, observe ty.outline = observe ty)
    {a b : Ty} (alike : a.same b = true) : observe a = observe b := by
  rw [← told a, ← told b, (same_iff a b).mp alike]

theorem name_outline (ty : Ty) : ty.outline.name = ty.name := by
  cases ty <;> rfl

theorem isFunction_outline (ty : Ty) : ty.outline.isFunction = ty.isFunction := by
  cases ty <;> rfl

mutual

theorem text_outline : ∀ ty : Ty, ty.outline.text = ty.text
  | array element => by
      rw [outline, text, text, isFunction_outline element, text_outline element]
  | function params result => by
      rw [outline, text, text, textAll_outlineAll params, text_outline result]
  | generic base args => by
      rw [outline, text, text, textAll_outlineAll args, name]
  | ref referent => by rw [outline, text, text, text_outline referent]
  | mutRef referent => by rw [outline, text, text, text_outline referent]
  | map key value => by rw [outline, text, text, text_outline key, text_outline value]
  | primitive _ | abstract _ | record _ _ | sum _ _ | var _ _ | unit => rfl

theorem textAll_outlineAll : ∀ tys : List Ty, textAll (outlineAll tys) = textAll tys
  | [] => rfl
  | ty :: rest => by
      rw [outlineAll, textAll, textAll, text_outline ty, textMore_outlineAll rest]

theorem textMore_outlineAll : ∀ tys : List Ty, textMore (outlineAll tys) = textMore tys
  | [] => rfl
  | ty :: rest => by
      rw [outlineAll, textMore, textMore, text_outline ty, textMore_outlineAll rest]

end

/-! ### Equivalence of types that are the same -/

mutual

/-- Equivalence looks at no more of a type than its outline. -/
theorem outline_equivalent : ∀ a b : Ty, a.outline.equivalent b = a.equivalent b
  | var name constraint, b => var_equivalent name none constraint b
  | generic base args, b => by
      cases b with
      | generic base' args' =>
          rw [outline, equivalent, equivalent, outlineAll_equivalentAll args args', name]
      | _ => rfl
  | array element, b => by
      cases b with
      | array element' =>
          rw [outline, equivalent, equivalent, outline_equivalent element element']
      | _ => rfl
  | primitive _, _ | abstract _, _ | record _ _, _ | sum _ _, _ | function _ _, _ | ref _, _
  | mutRef _, _ | map _ _, _ | unit, _ => rfl

theorem outlineAll_equivalentAll :
    ∀ as bs : List Ty, equivalentAll (outlineAll as) bs = equivalentAll as bs
  | [], _ => rfl
  | _ :: _, [] => rfl
  | a :: as, b :: bs => by
      rw [outlineAll, equivalentAll, equivalentAll, outline_equivalent a b,
        outlineAll_equivalentAll as bs]

end

mutual

theorem equivalent_comm : ∀ a b : Ty, a.equivalent b = b.equivalent a
  | generic base args, b => by
      cases b with
      | generic base' args' =>
          rw [equivalent, equivalent, equivalentAll_comm args args', BEq.comm]
      | _ => exact BEq.comm
  | array element, b => by
      cases b with
      | array element' => exact equivalent_comm element element'
      | _ => exact BEq.comm
  -- Nothing else is taken apart: names are compared, whatever the other type is.
  | var _ _, b | primitive _, b | abstract _, b | record _ _, b | sum _ _, b | function _ _, b
  | ref _, b | mutRef _, b | map _ _, b | unit, b => by
      cases b <;> exact BEq.comm

theorem equivalentAll_comm : ∀ as bs : List Ty, equivalentAll as bs = equivalentAll bs as
  | [], [] => rfl
  | [], _ :: _ | _ :: _, [] => rfl
  | a :: as, b :: bs => by
      rw [equivalentAll, equivalentAll, equivalent_comm a b, equivalentAll_comm as bs]

end

theorem equivalent_congr_left {a a' : Ty} (alike : a.same a' = true) (b : Ty) :
    a.equivalent b = a'.equivalent b :=
  eq_of_same (·.equivalent b) (outline_equivalent · b) alike

theorem equivalent_congr_right {a a' : Ty} (alike : a.same a' = true) (b : Ty) :
    b.equivalent a = b.equivalent a' := by
  rw [equivalent_comm b a, equivalent_comm b a', equivalent_congr_left alike b]

theorem equivalent_of_same {a b : Ty} (alike : a.same b = true) : a.equivalent b = true := by
  rw [equivalent_congr_left alike b, equivalent_refl b]

/-- Sameness is an equivalence that names, texts and the coarser equivalence of types respect, and
the coarser one is reflexive, symmetric and holds between types that are the same. -/
theorem sameness_respected :
    Equivalence (fun a b : Ty => a.same b = true) ∧
      (∀ a a' : Ty, a.same a' = true →
        a.name = a'.name ∧ a.text = a'.text ∧
          ∀ b : Ty, a.equivalent b = a'.equivalent b ∧ b.equivalent a = b.equivalent a') ∧
      (∀ a : Ty, a.equivalent a = true) ∧
      (∀ a b : Ty, a.equivalent b = true → b.equivalent a = true) ∧
      ∀ a b : Ty, a.same b = true → a.equivalent b = true := by
  refine ⟨⟨same_refl, same_symm, same_trans⟩, ?_, equivalent_refl, ?_, ?_⟩
  · intro a a' alike
    have names : a.name = a'.name := eq_of_same name name_outline alike
    have texts : a.text = a'.text := eq_of_same text text_outline alike
    exact ⟨names, texts, fun b => ⟨equivalent_congr_left alike b, equivalent_congr_right alike b⟩⟩
  · intro a b fits
    rw [equivalent_comm b a, fits]
  · intro a b alike
    exact equivalent_of_same alike

/-- Arrays of a record applied to a constrained variable, and of a type of the record's name whose
contents are hidden, applied to the variable without its constraint. -/
theorem sameness_respected_hidden :
    let shown : Ty := .array
      (.generic (.record "Box" [("value", .var "T" none)]) [.var "T" (some "Numeric")])
    let hidden : Ty := .array (.generic (.abstract "Box") [.var "T" none])
    shown.same hidden = true ∧ shown ≠ hidden ∧
      shown.name = hidden.name ∧ shown.text = hidden.text ∧
        ∀ b : Ty, shown.equivalent b = hidden.equivalent b ∧
          b.equivalent shown = b.equivalent hidden := by
  intro shown hidden
  have alike : shown.same hidden = true := by decide
  have differ : shown ≠ hidden := by simp [shown, hidden]
  exact ⟨alike, differ, sameness_respected.2.1 shown hidden alike⟩

-- Equivalence is not transitive: whatever is named like an array is equivalent to all arrays.
example :
    (array i32).equivalent (primitive "array") = true ∧
      (primitive "array").equivalent (array string) = true ∧
      (array i32).equivalent (array string) = false := by
  decide

end ModuleTyping.Ty
