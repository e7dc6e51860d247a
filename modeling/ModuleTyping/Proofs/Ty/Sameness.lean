import ModuleTyping.Ty.Basic

/-!
# Sameness of types

Two types are the same when their shapes and names agree. What declared types hold and how
variables are constrained plays no part: types are the same exactly if they have the same
outline, which leaves that out (`same_iff`). So sameness is an equivalence.
-/

namespace ModuleTyping.Ty

mutual

/-- The type without what declared types hold and without constraints of variables. -/
def outline : Ty → Ty
  | primitive name => primitive name
  | abstract name => abstract name
  | record name _ => record name []
  | sum name _ => sum name []
  | var name _ => var name none
  | array element => array element.outline
  | ref referent => ref referent.outline
  | mutRef referent => mutRef referent.outline
  | function params result => function (outlineAll params) result.outline
  | generic base args => generic (primitive base.name) (outlineAll args)
  | map key value => map key.outline value.outline
  | unit => unit

/-- The outlines of the types. -/
def outlineAll : List Ty → List Ty
  | [] => []
  | ty :: rest => ty.outline :: outlineAll rest

end

mutual

theorem same_iff : ∀ a b : Ty, a.same b = true ↔ a.outline = b.outline
  | array a, b => by
      cases b with
      | array b => rw [same, outline, outline, same_iff a b, array.injEq]
      | _ => simp [same, outline]
  | ref a, b => by
      cases b with
      | ref b => rw [same, outline, outline, same_iff a b, ref.injEq]
      | _ => simp [same, outline]
  | mutRef a, b => by
      cases b with
      | mutRef b => rw [same, outline, outline, same_iff a b, mutRef.injEq]
      | _ => simp [same, outline]
  | function params result, b => by
      cases b with
      | function params' result' =>
          rw [same, outline, outline, Bool.and_eq_true, sameAll_iff params params',
            same_iff result result', function.injEq]
      | _ => simp [same, outline]
  | generic base args, b => by
      cases b with
      | generic base' args' =>
          rw [same, outline, outline, Bool.and_eq_true, beq_iff_eq, sameAll_iff args args',
            generic.injEq, primitive.injEq]
      | _ => simp [same, outline]
  | map key value, b => by
      cases b with
      | map key' value' =>
          rw [same, outline, outline, Bool.and_eq_true, same_iff key key', same_iff value value',
            map.injEq]
      | _ => simp [same, outline]
  | primitive _, b | abstract _, b | record _ _, b | sum _ _, b | var _ _, b | unit, b => by
      cases b <;> simp [same, outline]

theorem sameAll_iff : ∀ as bs : List Ty, sameAll as bs = true ↔ outlineAll as = outlineAll bs
  | [], [] => by simp [sameAll, outlineAll]
  | [], _ :: _ | _ :: _, [] => by simp [sameAll, outlineAll]
  | a :: as, b :: bs => by
      rw [sameAll, outlineAll, outlineAll, Bool.and_eq_true, same_iff a b, sameAll_iff as bs,
        List.cons.injEq]

end

theorem same_refl (ty : Ty) : ty.same ty = true :=
  (same_iff ty ty).mpr rfl

theorem same_symm {a b : Ty} (alike : a.same b = true) : b.same a = true :=
  (same_iff b a).mpr ((same_iff a b).mp alike).symm

theorem same_trans {a b c : Ty} (first : a.same b = true) (second : b.same c = true) :
    a.same c = true :=
  (same_iff a c).mpr (((same_iff a b).mp first).trans ((same_iff b c).mp second))

theorem mem_outlineAll {ty : Ty} {tys : List Ty} (member : ty ∈ tys) :
    ty.outline ∈ outlineAll tys := by
  induction member with
  | head => exact List.mem_cons_self
  | tail _ _ ih => exact List.mem_cons_of_mem _ ih

/-- An application is not the same as one of its arguments. -/
theorem not_same_of_mem {base ty : Ty} {args : List Ty} (member : ty ∈ args) :
    ¬ (generic base args).same ty = true := by
  intro alike
  have outlines := (same_iff _ _).mp alike
  have smaller := List.sizeOf_lt_of_mem (mem_outlineAll member)
  rw [← outlines, outline, generic.sizeOf_spec] at smaller
  omega

end ModuleTyping.Ty
