import ModuleTyping.Proofs.Lowering.Alternatives

/-!
# Names that are referred to and names that are called

A name is resolved in one way where it stands for a value and in another where it is called. A
value is looked for among the functions before the built-in ones (`Elaborates.Name`), a callee
among the built-in functions first (`Elaborates.Callee`). The two agree on every name but those of
the built-in functions: a function that is registered under such a name can be passed on as a
value, and a call of the name does not reach it.
-/

namespace ModuleTyping

namespace Elaborates

variable {S : Surroundings} {Γ : Locals} {name canonical : String}

/-- A name becomes a reference only if it is not local and stands for a function, which the
reference then gives by its registered name. -/
theorem Name.entry_of_functionRef {ty : Ty} (named : Name S Γ name (.functionRef canonical) ty) :
    Γ.lookup name = none ∧ ∃ entry, S.functions.entry? name = some entry ∧
      entry.name = canonical := by
  cases named with
  | function unbound _ found => exact ⟨unbound, _, found, rfl⟩

/-- A function is called under its registered name unless the name is that of a built-in one. -/
theorem Callee.eq_of_entry {callee : Typed.Callee} {entry : Entry Signature}
    (called : Callee S name callee) (found : S.functions.entry? name = some entry) :
    callee = if isBuiltin name then .builtin name else .function entry.name := by
  cases called with
  | builtin isBuiltin => rw [if_pos isBuiltin]
  | function notBuiltin held =>
      rw [notBuiltin, Option.some.inj (held.symm.trans found)]
      rfl

/-- A call of a name that is not local calls what the name stands for as a callee. -/
theorem Form.callee_of_call {place : Origin} {args : List Source.Expr} {form : Typed.ExprForm}
    {ty : Ty} (call : Form S Γ (.call ⟨.var name, place⟩ args) form ty)
    (unbound : Γ.lookup name = none) :
    ∃ callee args', form = .call callee args' ∧ Callee S name callee := by
  cases call with
  | callName _ called _ => exact ⟨_, _, rfl, called⟩
  | callValue isValue _ _ =>
      -- Among names only local ones are called as values.
      change (Γ.lookup name).isSome = true at isValue
      rw [unbound] at isValue
      cases isValue

/-- Where a name becomes a reference to a function, a call of it calls that function, unless the
name is that of a built-in one. -/
theorem Expr.call_of_reference {place calleePlace callPlace : Origin} {args : List Source.Expr}
    {reference call : Typed.Expr} (referred : Expr S Γ ⟨.var name, place⟩ reference)
    (toFunction : reference.form = .functionRef canonical)
    (called : Expr S Γ ⟨.call ⟨.var name, calleePlace⟩ args, callPlace⟩ call) :
    ∃ args', call.form =
      .call (if isBuiltin name then .builtin name else .function canonical) args' := by
  cases referred with
  | mk named =>
      cases toFunction
      cases named with
      | name named =>
          obtain ⟨unbound, entry, found, rfl⟩ := named.entry_of_functionRef
          cases called with
          | mk called =>
              obtain ⟨callee, args', rfl, resolved⟩ := called.callee_of_call unbound
              rw [resolved.eq_of_entry found]
              exact ⟨args', rfl⟩

end Elaborates

namespace Lower

/-- In any state, if a name is lowered to a reference to a function, so that it is not local, then
every call of the name that is accepted there calls that function, unless there is a built-in
function of the name, which is called then. -/
theorem calls_follow_references (config : Config) (source : Option (String → Option Summary))
    {s after : LowerState} {name canonical : String} {place : Origin} {expected : Option Ty}
    {reference : Typed.Expr}
    (referred : (lowerExpr ⟨.var name, place⟩ expected).run { config, source } s =
      (.ok reference, after))
    (toFunction : reference.form = .functionRef canonical) :
    ∀ (calleePlace callPlace : Origin) (args : List Source.Expr) (wanted : Option Ty)
      (call : Typed.Expr) (left : LowerState),
      (lowerExpr ⟨.call ⟨.var name, calleePlace⟩ args, callPlace⟩ wanted).run { config, source } s =
        (.ok call, left) →
      ∃ args', call.form =
        .call (if isBuiltin name then .builtin name else .function canonical) args' := by
  intro calleePlace callPlace args wanted call left called
  have reference_elaborates := elaborates_lowerExpr (c := { config, source }) rfl _ expected
    (.of_state s) (congrArg Prod.fst referred)
  have call_elaborates := elaborates_lowerExpr (c := { config, source }) rfl _ wanted
    (.of_state s) (congrArg Prod.fst called)
  exact reference_elaborates.call_of_reference toFunction call_elaborates

/-- The name is an alias, and the call has a call as its argument. -/
theorem calls_follow_references_aliased :
    let add : Signature := { name := "add", params := [.i32, .i32], result := .i32 }
    let functions := (((∅ : FunctionTable).register add {}).registerAlias "plus" "add").toOption
    let s : LowerState := { env := { functions := functions.getD ∅ } }
    let plus : Source.Expr := ⟨.var "plus", none⟩
    let one : Source.Expr := ⟨.literal (.int 1), none⟩
    let sum : Source.Expr := ⟨.call plus [one, ⟨.call plus [one, one], none⟩], none⟩
    ∃ reference after call left, (lowerExpr plus none).run {} s = (.ok reference, after) ∧
      reference.form = .functionRef "add" ∧ (lowerExpr sum none).run {} s = (.ok call, left) ∧
      ∃ args', call.form =
        .call (if isBuiltin "plus" then .builtin "plus" else .function "add") args' := by
  intro add functions s plus one sum
  have named : (lowerExpr plus none).run {} s =
      (.ok ⟨.functionRef "add", add.toTy, none⟩, s) := by
    dsimp only [plus, s, functions, add]
    rfl
  have ok : ((lowerExpr sum none).run {} s).1.toOption.isSome = true := by decide +kernel
  rcases called : (lowerExpr sum none).run {} s with ⟨_ | call, left⟩
  · rw [called] at ok
    cases ok
  · exact ⟨_, _, call, left, named, rfl, rfl,
      calls_follow_references {} none named rfl none none _ none call left called⟩

/-- A function under the name of a built-in one is what the name refers to, and not what a call
of the name calls. -/
theorem registered_println_not_called :
    let println : Signature := { name := "println", params := [.string, .i32], result := .string }
    let s : LowerState := { env := { functions := (∅ : FunctionTable).register println {} } }
    let name : Source.Expr := ⟨.var "println", none⟩
    let args : List Source.Expr := [⟨.literal (.str "hi"), none⟩, ⟨.literal (.int 2), none⟩]
    s.env.scopes.lookup? "println" = none ∧
      ((lowerExpr name none).run {} s).1 =
        .ok ⟨.functionRef "println", .function [.string, .i32] .string, none⟩ ∧
      ((lowerExpr ⟨.call name args, none⟩ none).run {} s).1 =
        .ok ⟨.call (.builtin "println")
          [⟨.literal (.str "hi"), .string, none⟩, ⟨.literal (.int 2), .i32, none⟩], .i32, none⟩ :=
  ⟨rfl, rfl, rfl⟩

end Lower

end ModuleTyping
