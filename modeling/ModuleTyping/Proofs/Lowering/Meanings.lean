import ModuleTyping.Proofs.Inference.Environments
import ModuleTyping.Proofs.Lowering.Order

/-!
# What written types mean

What a written type stands for depends on what the names in it stand for, and on the type
parameters around it, and on nothing else. `WrittenType.meaning` says that as a function,
and resolving a type comes to it (`reads_resolve`). With it, what a declaration leaves in
the tables is a function of what it finds there (`declared_lowerTypeDecl`).
-/

namespace ModuleTyping

/-- What the names of types stand for. -/
abbrev Meanings := String → Option TypeInfo

namespace WrittenType

/-- The type that a name means by itself. -/
def meaningOfName (T : Meanings) (name : String) : Option Ty :=
  if name = "auto" then some .auto
  else if name = "unit" then some .unit
  else (T name).map TypeInfo.ty

/-- The type that a name means with type arguments. -/
def meaningOfApplied (T : Meanings) (name : String) (args : List Ty) : Option Ty :=
  match T name with
  | none =>
    match name, args with
    | "Map", [key, value] => some (.map key value)
    | _, _ => none
  | some info =>
    if !info.typeParams.isEmpty && info.typeParams.length != args.length then none
    else
      (TypeParam.validate name info.typeParams args).toOption.map fun _ => .generic info.ty args

theorem meaningOfApplied_of_unknown {T : Meanings} {name : String} {args : List Ty}
    (unknown : T name = none) (other : ¬ ∃ key value, name = "Map" ∧ args = [key, value]) :
    meaningOfApplied T name args = none := by
  unfold meaningOfApplied
  rw [unknown]
  dsimp only
  split
  · exact absurd ⟨_, _, rfl, rfl⟩ other
  · rfl

theorem meaningOfName_cases {T : Meanings} {name : String} {means : Ty}
    (given : meaningOfName T name = some means) :
    means = .auto ∨ means = .unit ∨ ∃ info, T name = some info ∧ means = info.ty := by
  unfold meaningOfName at given
  split at given
  · exact .inl (Option.some.inj given).symm
  · split at given
    · exact .inr (.inl (Option.some.inj given).symm)
    · obtain ⟨info, held, rfl⟩ := Option.map_eq_some_iff.mp given
      exact .inr (.inr ⟨info, held, rfl⟩)

/-- An applied name means a map, if it stands for nothing, or else what it stands for at the
arguments. -/
theorem meaningOfApplied_cases {T : Meanings} {name : String} {args : List Ty} {means : Ty}
    (given : meaningOfApplied T name args = some means) :
    (T name = none ∧ ∃ key value, args = [key, value] ∧ means = .map key value) ∨
      ∃ info, T name = some info ∧ means = .generic info.ty args := by
  unfold meaningOfApplied at given
  cases held : T name with
  | none =>
      rw [held] at given
      dsimp only at given
      split at given
      · exact .inl ⟨rfl, _, _, rfl, (Option.some.inj given).symm⟩
      · cases given
  | some info =>
      rw [held] at given
      dsimp only at given
      split at given
      · cases given
      · obtain ⟨_, -, rfl⟩ := Option.map_eq_some_iff.mp given
        exact .inr ⟨info, rfl, rfl⟩

mutual

/-- The type that a written type means where these type parameters are in scope. -/
def meaning (T : Meanings) (params : List TypeParam) : WrittenType → Option Ty
  | named name =>
    match params.find? (·.name == name) with
    | some param => some param.toVar
    | none => meaningOfName T name
  | generic name args => (meanings T params args).bind (meaningOfApplied T name)
  | array element => (element.meaning T params).map .array
  | function inputs result =>
    (meanings T params inputs).bind fun inputs =>
      (result.meaning T params).map (.function inputs)
  | ref referent => (referent.meaning T params).map .ref
  | mutRef referent => (referent.meaning T params).map .mutRef
  | map key value =>
    (key.meaning T params).bind fun key => (value.meaning T params).map (.map key)
  | unit => some .unit

/-- The types that written types mean. -/
def meanings (T : Meanings) (params : List TypeParam) : List WrittenType → Option (List Ty)
  | [] => some []
  | ty :: rest =>
    (ty.meaning T params).bind fun ty => (meanings T params rest).map (ty :: ·)

end

/-- The type that a written type means, if one is written. -/
def meaning? (T : Meanings) (params : List TypeParam) : Option WrittenType → Option (Option Ty)
  | none => some none
  | some ty => (ty.meaning T params).map some

end WrittenType

namespace Source

/-- The fields that written fields mean. -/
def fieldMeanings (T : Meanings) (params : List TypeParam) :
    List (String × WrittenType) → Option (List (String × Ty))
  | [] => some []
  | (name, ty) :: rest =>
    (ty.meaning T params).bind fun ty => (fieldMeanings T params rest).map ((name, ty) :: ·)

/-- The variants that written variants mean. -/
def variantMeanings (T : Meanings) (params : List TypeParam) :
    List (String × List WrittenType) → Option (List (String × List Ty))
  | [] => some []
  | (name, tys) :: rest =>
    (WrittenType.meanings T params tys).bind fun tys =>
      (variantMeanings T params rest).map ((name, tys) :: ·)

/-- The type that the body of a declaration of that name means. -/
def TypeBody.meaning (T : Meanings) (params : List TypeParam) (name : String) :
    TypeBody → Option Ty
  | record fields => (fieldMeanings T params fields).map (.record name)
  | sum variants => (variantMeanings T params variants).map (.sum name)
  | abstract => some (.abstract name)
  | synonym target => target.meaning T params

/-- What a declared type means. -/
def TypeDecl.meaning (T : Meanings) (decl : TypeDecl) : Option TypeInfo :=
  (TypeParam.normalize decl.typeParams).toOption.bind fun typeParams =>
    (decl.body.meaning T typeParams.reverse decl.name).map fun ty =>
      { name := decl.name, ty, typeParams }

/-- The signature that a declared function means where these type parameters are in scope. -/
def Function.meaning (T : Meanings) (outer : List TypeParam) (decl : Function) :
    Option Signature :=
  (TypeParam.normalize decl.typeParams).toOption.bind fun typeParams =>
    (WrittenType.meanings T (typeParams.reverse ++ outer) (decl.params.map Param.ty)).bind
      fun params =>
        (WrittenType.meaning? T (typeParams.reverse ++ outer) decl.result).map fun result =>
          { name := decl.name, params, result := result.getD .void, typeParams }

end Source

namespace Lower

variable {α β : Type} {c : Context}

/-! ### Computations that only read -/

/-- The run from a state gives this value and leaves the state as it is, or it fails because
there is no value. -/
def Gives (s : LowerState) (given : Option α) (run : Except Fault α × LowerState) : Prop :=
  (∃ a, given = some a ∧ run = (.ok a, s)) ∨ given = none ∧ ∃ fault t, run = (.error fault, t)

/-- From every state the computation gives what `f` says of it. -/
def Reads (c : Context) (x : Lower α) (f : LowerState → Option α) : Prop :=
  ∀ s, Gives s (f s) (x c s)

namespace Reads

theorem pure (a : α) : Reads c (Pure.pure a) fun _ => some a :=
  fun _ => .inl ⟨a, rfl, rfl⟩

theorem fail (cause : Cause) (origin : Origin) :
    Reads c (Lower.fail cause origin : Lower α) fun _ => none :=
  fun s => .inr ⟨rfl, _, s, rfl⟩

theorem ofExcept (result : Except Cause α) (origin : Origin) :
    Reads c (Lower.ofExcept result origin) fun _ => result.toOption := by
  cases result with
  | ok value => exact .pure value
  | error cause => exact .fail cause origin

theorem bind {x : Lower α} {f : LowerState → Option α} {g : α → Lower β}
    {h : α → LowerState → Option β} (first : Reads c x f) (rest : ∀ a, Reads c (g a) (h a)) :
    Reads c (x >>= g) fun s => (f s).bind fun a => h a s := by
  intro s
  show Gives s ((f s).bind fun a => h a s) ((x >>= g) c s)
  rw [bind_apply]
  rcases first s with ⟨a, given, ran⟩ | ⟨given, fault, t, ran⟩
  · rw [ran, given]
    exact rest a s
  · rw [ran, given]
    exact .inr ⟨rfl, fault, t, rfl⟩

theorem map {x : Lower α} {f : LowerState → Option α} (reads : Reads c x f) (g : α → β) :
    Reads c (do let a ← x; return g a) fun s => (f s).map g := by
  have both := reads.bind fun a => Reads.pure (c := c) (g a)
  simpa [Option.map_eq_bind, Function.comp_def] using both

theorem get_bind {g : LowerState → Lower β} {h : LowerState → LowerState → Option β}
    (rest : ∀ s, Reads c (g s) (h s)) : Reads c (get >>= g) fun s => h s s :=
  fun s => rest s s

theorem withTypeParams {x : Lower α} {f : LowerState → Option α} (reads : Reads c x f)
    (params : List TypeParam) :
    Reads c (Lower.withTypeParams params x) fun s =>
      f { s with typeParams := params.reverse ++ s.typeParams } := by
  intro s
  have left : ({ s with typeParams := (params.reverse ++ s.typeParams).drop params.length } :
      LowerState) = s := by
    simp
  rcases reads { s with typeParams := params.reverse ++ s.typeParams } with
    ⟨a, given, ran⟩ | ⟨given, fault, t, ran⟩
  · refine .inl ⟨a, given, ?_⟩
    unfold Lower.withTypeParams Lower.between
    dsimp only
    rw [ran]
    exact congrArg _ left
  · refine .inr ⟨given, fault, { t with typeParams := t.typeParams.drop params.length }, ?_⟩
    unfold Lower.withTypeParams Lower.between
    dsimp only
    rw [ran]

theorem of_ok {x : Lower α} {f : LowerState → Option α} {a : α} {s : LowerState}
    (reads : Reads c x f) (ran : (x.run c s).1 = .ok a) : f s = some a := by
  rcases reads s with ⟨b, given, run⟩ | ⟨-, fault, t, run⟩
  · rw [show x.run c s = _ from run] at ran
    exact given.trans (congrArg some (Except.ok.inj ran))
  · rw [show x.run c s = _ from run] at ran
    cases ran

theorem run_eq {x : Lower α} {f : LowerState → Option α} {a : α} {s : LowerState}
    (reads : Reads c x f) (given : f s = some a) : x.run c s = (.ok a, s) := by
  rcases reads s with ⟨b, given', run⟩ | ⟨given', -⟩
  · rw [← Option.some.inj (given'.symm.trans given)]
    exact run
  · cases given'.symm.trans given

end Reads

/-! ### Resolving -/

theorem reads_resolveName (name : String) (origin : Origin) :
    Reads c (resolveName name origin) fun s =>
      WrittenType.meaningOfName s.env.types.info? name := by
  unfold resolveName WrittenType.meaningOfName
  split
  · exact .pure _
  · exact .pure _
  · next notAuto notUnit =>
      simp only [if_neg notAuto, if_neg notUnit]
      refine .get_bind (h := fun s _ => (s.env.types.info? name).map TypeInfo.ty) fun s => ?_
      unfold TypeTable.lookup?
      cases s.env.types.info? name with
      | none => exact .fail _ _
      | some info => exact .pure info.ty

theorem reads_applyType (name : String) (args : List Ty) (origin : Origin) :
    Reads c (applyType name args origin) fun s =>
      WrittenType.meaningOfApplied s.env.types.info? name args := by
  refine .get_bind (h := fun s _ => WrittenType.meaningOfApplied s.env.types.info? name args)
    fun s => ?_
  cases held : s.env.types.info? name with
  | none =>
      by_cases isMap : ∃ key value, name = "Map" ∧ args = [key, value]
      · obtain ⟨key, value, rfl, rfl⟩ := isMap
        unfold WrittenType.meaningOfApplied
        rw [held]
        exact .pure _
      · rw [WrittenType.meaningOfApplied_of_unknown held isMap]
        dsimp only
        split
        · exact absurd ⟨_, _, rfl, rfl⟩ isMap
        · exact .fail _ _
  | some info =>
      unfold WrittenType.meaningOfApplied
      rw [held]
      dsimp only
      split
      · exact .fail _ _
      · exact (Reads.ofExcept _ _).map _

mutual

theorem reads_resolve (origin : Origin) : ∀ ty : WrittenType,
    Reads c (resolve origin ty) fun s => ty.meaning s.env.types.info? s.typeParams
  | .named name => by
      rw [resolve]
      refine .get_bind (h := fun s s' =>
        match s.typeParams.find? (·.name == name) with
        | some param => some param.toVar
        | none => WrittenType.meaningOfName s'.env.types.info? name) fun s => ?_
      cases s.typeParams.find? (·.name == name) with
      | some param => exact .pure _
      | none => exact reads_resolveName name origin
  | .generic name args => by
      rw [resolve]
      exact (reads_resolveAll origin args).bind fun args => reads_applyType name args origin
  | .array element => by
      rw [resolve]
      exact (reads_resolve origin element).map _
  | .function params result => by
      rw [resolve]
      exact (reads_resolveAll origin params).bind fun _ => (reads_resolve origin result).map _
  | .ref referent => by
      rw [resolve]
      exact (reads_resolve origin referent).map _
  | .mutRef referent => by
      rw [resolve]
      exact (reads_resolve origin referent).map _
  | .map key value => by
      rw [resolve]
      exact (reads_resolve origin key).bind fun _ => (reads_resolve origin value).map _
  | .unit => by
      rw [resolve]
      exact .pure _

theorem reads_resolveAll (origin : Origin) : ∀ tys : List WrittenType,
    Reads c (resolveAll origin tys) fun s =>
      WrittenType.meanings s.env.types.info? s.typeParams tys
  | [] => by
      rw [resolveAll]
      exact .pure _
  | ty :: tys => by
      rw [resolveAll]
      exact (reads_resolve origin ty).bind fun _ => (reads_resolveAll origin tys).map _

end

theorem reads_resolve? (origin : Origin) (ty : Option WrittenType) :
    Reads c (resolve? origin ty) fun s =>
      WrittenType.meaning? s.env.types.info? s.typeParams ty := by
  cases ty with
  | none => exact .pure _
  | some ty => exact (reads_resolve origin ty).map _

theorem reads_resolveFields (origin : Origin) (fields : List (String × WrittenType)) :
    Reads c (resolveFields origin fields) fun s =>
      Source.fieldMeanings s.env.types.info? s.typeParams fields := by
  induction fields with
  | nil => exact .pure _
  | cons field fields ih => exact (reads_resolve origin field.2).bind fun _ => ih.map _

theorem reads_resolveVariants (origin : Origin) (variants : List (String × List WrittenType)) :
    Reads c (resolveVariants origin variants) fun s =>
      Source.variantMeanings s.env.types.info? s.typeParams variants := by
  induction variants with
  | nil => exact .pure _
  | cons variant variants ih => exact (reads_resolveAll origin variant.2).bind fun _ => ih.map _

theorem reads_resolveBody (name : String) (origin : Origin) (body : Source.TypeBody) :
    Reads c (resolveBody name origin body) fun s =>
      body.meaning s.env.types.info? s.typeParams name := by
  cases body with
  | record fields => exact (reads_resolveFields origin fields).map _
  | sum variants => exact (reads_resolveVariants origin variants).map _
  | abstract => exact .pure _
  | synonym target => exact reads_resolve origin target

theorem reads_signatureOf (decl : Source.Function) :
    Reads c (signatureOf decl) fun s => decl.meaning s.env.types.info? s.typeParams := by
  refine (Reads.ofExcept _ _).bind fun typeParams => ?_
  exact Reads.withTypeParams ((reads_resolveAll _ _).bind fun params =>
    (reads_resolve? _ _).map _) typeParams

/-! ### Declaring -/

/-- The run declares the type as what it means, or it fails because it means nothing. -/
def Declared (s : LowerState) (decl : Source.TypeDecl) (meaning : Option TypeInfo)
    (run : Except Fault Typed.TypeDecl × LowerState) : Prop :=
  (∃ info lowered, meaning = some info ∧ run = (.ok lowered, s.withDeclaration decl info)) ∨
    meaning = none ∧ ∃ fault t, run = (.error fault, t)

theorem declared_lowerTypeAs (outside : s.typeParams = []) (decl : Source.TypeDecl) :
    Declared s decl (decl.meaning s.env.types.info?)
      (lowerTypeAs decl (Node.typeDecl decl).shape c s) := by
  have checked : Gives s (TypeParam.normalize decl.typeParams).toOption
      (declaredParams decl.typeParams decl.origin c s) := Reads.ofExcept _ _ s
  have resolved (typeParams : List TypeParam) :
      Gives s (decl.body.meaning s.env.types.info? typeParams.reverse decl.name)
        (withTypeParams typeParams (resolveBody decl.name decl.origin decl.body) c s) := by
    have resolved := (reads_resolveBody (c := c) decl.name decl.origin decl.body).withTypeParams
      typeParams s
    simp only [outside, List.append_nil] at resolved
    exact resolved
  unfold lowerTypeAs Source.TypeDecl.meaning
  rw [body_of_shape, bind_apply]
  rcases checked with ⟨typeParams, normalized, ran⟩ | ⟨refused, fault, t, ran⟩
  · rw [normalized, ran]
    dsimp only [Option.bind_some]
    rw [bind_apply]
    rcases resolved typeParams with ⟨ty, means, ran⟩ | ⟨means, fault, t, ran⟩
    · rw [means, ran]
      refine .inl ⟨{ name := decl.name, ty, typeParams },
        ⟨decl.name, ty, typeParams, decl.exported, decl.origin⟩, rfl, ?_⟩
      unfold LowerState.withDeclaration
      cases decl.body <;> rfl
    · rw [means, ran]
      exact .inr ⟨rfl, fault, t, rfl⟩
  · rw [refused, ran]
    exact .inr ⟨rfl, fault, t, rfl⟩

/-- A type is lowered to what it means, or it is refused because it means nothing. -/
theorem declared_lowerTypeDecl (standard : c.engine = .standard) (outside : s.typeParams = [])
    (decl : Source.TypeDecl) :
    Declared s decl (decl.meaning s.env.types.info?) (lowerTypeDecl decl c s) := by
  have run := dispatch_standard standard (stage_typeDecl decl) (lowerTypeAs decl)
    Product.typeDecl? s
  unfold lowerTypeDecl
  rw [run, placed]
  rcases declared_lowerTypeAs (c := c) outside decl with
    ⟨info, lowered, means, ran⟩ | ⟨means, fault, t, ran⟩
  · rw [ran]
    exact .inl ⟨info, lowered, means, rfl⟩
  · rw [ran]
    exact .inr ⟨means, _, t, rfl⟩

end Lower

end ModuleTyping
