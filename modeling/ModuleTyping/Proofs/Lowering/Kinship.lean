import ModuleTyping.Proofs.Lowering.Mentions

/-!
# Lowering from akin states

Two states are akin if they know the same, except that types may hold a name where others
hold its declaration (`LowerState.Akin`). If the declarations can be looked up, lowering
takes the same course from both: what it accepts from one it accepts from the other, with
akin types (`agrees_lowerExpr`, `agrees_lowerStmt`).
-/

namespace ModuleTyping

open Stateful (Agree Corresponds)

/-- The states know the same, but for names in place of declarations. -/
structure LowerState.Akin (known : Outlines) (s t : LowerState) : Prop where
  env : s.env.Akin known t.env
  moduleName : s.moduleName = t.moduleName
  namespaceName : s.namespaceName = t.namespaceName
  typeParams : s.typeParams = t.typeParams
  results : Ty.AkinAll known s.results t.results

namespace Lower

variable {α β : Type} {known : Outlines} {c : Context}

/-- With the standard rules, from akin states in which the declarations can be looked up, both
computations fail, or both succeed with related values and leave akin states. -/
structure Agrees (known : Outlines) (c : Context) (R : α → α → Prop) (x y : Lower α) : Prop where
  agree : c.engine = .standard →
    Agree (fun s t => s.Akin known t ∧ s.env.Told known) R (x c) (y c)

namespace Agrees

variable {R : α → α → Prop} {Q : β → β → Prop}

theorem pure {a b : α} (related : R a b) : Agrees known c R (Pure.pure a) (Pure.pure b) :=
  ⟨fun _ => .pure related⟩

theorem fail (cause cause' : Cause) (origin origin' : Origin) :
    Agrees known c R (Lower.fail cause origin) (Lower.fail cause' origin') :=
  ⟨fun _ => .throws _ _⟩

theorem bind {x y : Lower α} {f g : α → Lower β} (first : Agrees known c R x y)
    (rest : ∀ a b, R a b → Agrees known c Q (f a) (g b)) :
    Agrees known c Q (x >>= f) (y >>= g) :=
  ⟨fun standard => (first.agree standard).bind fun a b related => (rest a b related).agree standard⟩

theorem map {x y : Lower α} {f g : α → β} (first : Agrees known c R x y)
    (each : ∀ a b, R a b → Q (f a) (g b)) :
    Agrees known c Q (do let a ← x; return f a) (do let b ← y; return g b) :=
  first.bind fun a b related => .pure (each a b related)

theorem mono {R' : α → α → Prop} {x y : Lower α} (agrees : Agrees known c R x y)
    (weaker : ∀ a b, R a b → R' a b) : Agrees known c R' x y :=
  ⟨fun standard => (agrees.agree standard).mono weaker⟩

theorem check {x y : Check α} (agrees : Check.Agrees R x y) :
    Agrees known c R (Lower.check x) (Lower.check y) := by
  refine ⟨fun standard => ⟨fun {s t} states => ?_⟩⟩
  unfold Lower.check
  obtain ⟨_, _, _, _, ran, ran'⟩ | ⟨a, b, _, _, ran, ran', related, -⟩ :=
    (agrees.run (s := s.announced) (t := t.announced) trivial).cases
  · rw [ran, ran']
    trivial
  · rw [ran, ran']
    exact ⟨related, ⟨states.1.env, states.1.moduleName, states.1.namespaceName,
      states.1.typeParams, states.1.results⟩, states.2⟩

theorem get_bind {f g : LowerState → Lower β}
    (rest : ∀ s t, s.Akin known t → s.env.Told known → Agrees known c Q (f s) (g t)) :
    Agrees known c Q (get >>= f) (get >>= g) :=
  ⟨fun standard => ⟨fun {s t} states => ((rest s t states.1 states.2).agree standard).run states⟩⟩

theorem env_bind {f g : Environment → Lower β}
    (rest : ∀ a b : Environment, a.Akin known b → a.Told known → Agrees known c Q (f a) (g b)) :
    Agrees known c Q (env >>= f) (env >>= g) :=
  ⟨fun standard => ⟨fun {s t} states =>
    ((rest s.env t.env states.1.env states.2).agree standard).run states⟩⟩

theorem read_bind {f g : Context → Lower β} (rest : Agrees known c Q (f c) (g c)) :
    Agrees known c Q (read >>= f) (read >>= g) :=
  ⟨rest.agree⟩

theorem between {x y : Lower α} {enter enter' leave leave' : LowerState → LowerState}
    (agrees : Agrees known c R x y)
    (entered : ∀ s t, s.Akin known t → s.env.Told known →
      (enter s).Akin known (enter' t) ∧ (enter s).env.Told known)
    (left : ∀ s t, s.Akin known t → s.env.Told known →
      (leave s).Akin known (leave' t) ∧ (leave s).env.Told known) :
    Agrees known c R (Lower.between enter leave x) (Lower.between enter' leave' y) := by
  refine ⟨fun standard => ⟨fun {s t} states => ?_⟩⟩
  unfold Lower.between
  obtain ⟨_, _, _, _, ran, ran'⟩ | ⟨a, b, after, after', ran, ran', related, akin, told⟩ :=
    ((agrees.agree standard).run (entered s t states.1 states.2)).cases
  · rw [ran, ran']
    trivial
  · rw [ran, ran']
    exact ⟨related, left after after' akin told⟩

theorem inScope {x y : Lower α} (agrees : Agrees known c R x y) :
    Agrees known c R (Lower.inScope x) (Lower.inScope y) :=
  agrees.between
    (fun _ _ states told => ⟨{ states with env := { states.env with
      scopes := states.env.scopes.push } }, ⟨told.declared, told.named⟩⟩)
    fun _ _ states told => ⟨{ states with env := { states.env with
      scopes := states.env.scopes.pop } }, ⟨told.declared, told.named⟩⟩

theorem withTypeParams {x y : Lower α} (agrees : Agrees known c R x y)
    (params : List TypeParam) :
    Agrees known c R (Lower.withTypeParams params x) (Lower.withTypeParams params y) :=
  agrees.between
    (fun _ _ states told => ⟨{ states with typeParams := by rw [states.typeParams] }, told⟩)
    fun _ _ states told => ⟨{ states with typeParams := by rw [states.typeParams] }, told⟩

theorem withResult {x y : Lower α} (agrees : Agrees known c R x y) {result result' : Ty}
    (results : result.Akin known result') :
    Agrees known c R (Lower.withResult result x) (Lower.withResult result' y) :=
  agrees.between
    (fun _ _ states told => ⟨{ states with results := .cons results states.results }, told⟩)
    fun _ _ states told =>
      ⟨{ states with results := List.forall₂_drop 1 states.results }, told⟩

theorem bind_name (name : String) {ty ty' : Ty} (tys : ty.Akin known ty') :
    Agrees known c (fun _ _ => True) (Lower.bind name ty) (Lower.bind name ty') :=
  ⟨fun _ => .modifies fun _ _ states => ⟨{ states.1 with env := { states.1.env with
    scopes := states.1.env.scopes.bind name tys } }, ⟨states.2.declared, states.2.named⟩⟩⟩

theorem modifyEnv {f g : Environment → Environment}
    (kept : ∀ a b : Environment, a.Akin known b → (f a).Akin known (g b))
    (types : ∀ a, (f a).types = a.types := by exact fun _ => rfl) :
    Agrees known c (fun _ _ => True) (Lower.modifyEnv f) (Lower.modifyEnv g) :=
  ⟨fun _ => .modifies fun s t states => ⟨{ states.1 with env := kept _ _ states.1.env },
    ⟨by rw [types]; exact states.2.declared, states.2.named⟩⟩⟩

theorem forM {f : β → Lower Unit} (each : ∀ b, Agrees known c (fun _ _ => True) (f b) (f b))
    (l : List β) : Agrees known c (fun _ _ => True) (l.forM f) (l.forM f) := by
  induction l with
  | nil => exact .pure trivial
  | cons b l ih => exact (each b).bind fun _ _ _ => ih

theorem mapM {f : β → Lower α} (each : ∀ b, Agrees known c R (f b) (f b)) (l : List β) :
    Agrees known c (List.Forall₂ R) (l.mapM f) (l.mapM f) := by
  induction l with
  | nil => exact .pure .nil
  | cons b l ih =>
      rw [List.mapM_cons]
      exact (each b).bind fun _ _ first => ih.map fun _ _ rest => .cons first rest

theorem placed {x y : Lower α} (agrees : Agrees known c R x y) (origin origin' : Origin) :
    Agrees known c R (Lower.placed origin x) (Lower.placed origin' y) := by
  refine ⟨fun standard => ⟨fun {s t} states => ?_⟩⟩
  unfold Lower.placed
  obtain ⟨_, _, _, _, ran, ran'⟩ | ⟨a, b, _, _, ran, ran', related⟩ :=
    ((agrees.agree standard).run states).cases
  · rw [ran, ran']
    trivial
  · rw [ran, ran']
    exact related

theorem dispatch {stage : Stage} {node node' : Node}
    (staged : node.shape.stage = stage) (staged' : node'.shape.stage = stage)
    {lower lower' : Shape → Lower α}
    (agrees : Agrees known c R (lower node.shape) (lower' node'.shape))
    (take : Product → Option α) :
    Agrees known c R (Lower.dispatch stage node lower take)
      (Lower.dispatch stage node' lower' take) := by
  refine ⟨fun standard => ⟨fun {s t} states => ?_⟩⟩
  rw [dispatch_standard standard staged, dispatch_standard standard staged']
  exact ((agrees.placed _ _).agree standard).run states

/-- Computations that only read agree if what they read is related. -/
theorem of_reads {x y : Lower α} {f g : LowerState → Option α} (reads : Reads c x f)
    (reads' : Reads c y g)
    (related : ∀ s t, s.Akin known t → s.env.Told known → Option.Rel R (f s) (g t)) :
    Agrees known c R x y := by
  refine ⟨fun standard => ⟨fun {s t} states => ?_⟩⟩
  have both := related s t states.1 states.2
  rcases reads s with ⟨a, given, ran⟩ | ⟨given, fault, after, ran⟩
  · rcases reads' t with ⟨b, given', ran'⟩ | ⟨given', fault', after', ran'⟩
    · rw [given, given'] at both
      rw [ran, ran']
      cases both with
      | some values => exact ⟨values, states⟩
    · rw [given, given'] at both
      cases both
  · rcases reads' t with ⟨b, given', ran'⟩ | ⟨given', fault', after', ran'⟩
    · rw [given, given'] at both
      cases both
    · rw [ran, ran']
      trivial

end Agrees

/-! ### Written types -/

section Written

variable {s t : LowerState}

theorem info?_bareAkin (states : s.Akin known t) (name : String) :
    Meanings.BareAkin known s.env.types.info? t.env.types.info? name :=
  rel_imp (Environment.info?_related states.env name) fun _ _ _ _ infos => infos.ty_akin

theorem info?_appliedAkin (states : s.Akin known t) (name : String) :
    Meanings.AppliedAkin known s.env.types.info? t.env.types.info? name :=
  rel_imp (Environment.info?_related states.env name) fun _ _ _ _ infos =>
    ⟨infos.typeParams, Ty.eraseBase_of_eraseWithin infos.ty⟩

end Written

theorem agrees_resolve (origin origin' : Origin) (ty : WrittenType) :
    Agrees known c (Ty.Akin known) (resolve origin ty) (resolve origin' ty) := by
  refine .of_reads (reads_resolve origin ty) (reads_resolve origin' ty) fun s t states _ => ?_
  rw [states.typeParams]
  exact WrittenType.meaning_akin ty (fun name _ _ => info?_bareAkin states name)
    fun name _ => info?_appliedAkin states name

theorem agrees_resolve? (origin origin' : Origin) (ty : Option WrittenType) :
    Agrees known c (Option.Rel (Ty.Akin known)) (resolve? origin ty) (resolve? origin' ty) := by
  cases ty with
  | none => exact .pure .none
  | some ty => exact (agrees_resolve origin origin' ty).map fun _ _ tys => .some tys

/-! ### Patterns -/

theorem agrees_constructorFor (name : String) (fieldCount : Nat) {scrutinee scrutinee' : Ty}
    (scrutinees : scrutinee.Akin known scrutinee') (origin : Origin) :
    Agrees known c (Signature.Akin known) (constructorFor name fieldCount scrutinee origin)
      (constructorFor name fieldCount scrutinee' origin) := by
  refine .env_bind fun a b envs told => ?_
  have sigs := Environment.signatureFor?_related envs name scrutinees
  generalize a.constructors.signatureFor? name scrutinee = sig at sigs ⊢
  generalize b.constructors.signatureFor? name scrutinee' = sig' at sigs ⊢
  cases sigs with
  | none => exact .fail _ _ _ _
  | @some sig sig' sigs =>
      refine .bind (.check (Check.agrees_compatible sigs.result scrutinees _ _ _ _)) fun _ _ _ => ?_
      rw [sigs.params.length_eq]
      split
      · exact .pure sigs
      · exact .fail _ _ _ _

end Lower

/-- The patterns take the same constructors. -/
structure Typed.Pattern.Alike (pattern pattern' : Pattern) : Prop where
  catchAll : pattern.isCatchAll = pattern'.isCatchAll
  covered : pattern.covered = pattern'.covered

theorem Typed.Pattern.Alike.or {alternatives alternatives' : List Pattern}
    (all : List.Forall₂ Alike alternatives alternatives') :
    Alike (or alternatives) (or alternatives') := by
  constructor
  · rw [isCatchAll, isCatchAll]
    induction all with
    | nil => rfl
    | cons first _ ih => rw [anyCatchAll, anyCatchAll, first.catchAll, ih]
  · rw [Pattern.covered, Pattern.covered]
    induction all with
    | nil => rfl
    | cons first _ ih => rw [coveredAll, coveredAll, first.covered, ih]

namespace Lower

open Typed.Pattern (Alike)

variable {known : Outlines} {c : Context}

mutual

theorem agrees_lowerPattern (origin : Origin) : ∀ (pattern : Source.Pattern)
    {scrutinee scrutinee' : Ty}, scrutinee.Akin known scrutinee' →
    Agrees known c Alike (lowerPattern origin pattern scrutinee)
      (lowerPattern origin pattern scrutinee')
  | .wildcard, _, _, _ => by
      rw [lowerPattern, lowerPattern]
      exact .pure ⟨rfl, rfl⟩
  | .bind name, scrutinee, scrutinee', scrutinees => by
      rw [lowerPattern, lowerPattern]
      refine .env_bind fun a b envs told => ?_
      rw [Environment.isNullary_eq envs name]
      split
      · exact (agrees_constructorFor name 0 scrutinees origin).map fun _ _ _ => ⟨rfl, rfl⟩
      · exact (Agrees.bind_name name scrutinees).map fun _ _ _ => ⟨rfl, rfl⟩
  | .literal value, scrutinee, scrutinee', scrutinees => by
      rw [lowerPattern, lowerPattern]
      exact (Agrees.check (Check.agrees_compatible (.refl _) scrutinees _ _ _ _)).map
        fun _ _ _ => ⟨rfl, rfl⟩
  | .constructor name fields, scrutinee, scrutinee', scrutinees => by
      rw [lowerPattern, lowerPattern]
      refine .bind (agrees_constructorFor name _ scrutinees origin) fun sig sig' sigs => ?_
      exact (agrees_lowerFields origin fields sigs.params).map fun _ _ _ => ⟨rfl, rfl⟩
  | .or alternatives, scrutinee, scrutinee', scrutinees => by
      rw [lowerPattern, lowerPattern]
      exact (agrees_lowerAlternatives origin alternatives scrutinees).map fun _ _ all => .or all

theorem agrees_lowerFields (origin : Origin) : ∀ (patterns : List Source.Pattern)
    {tys tys' : List Ty}, Ty.AkinAll known tys tys' →
    Agrees known c (fun _ _ => True) (lowerFields origin patterns tys)
      (lowerFields origin patterns tys')
  | pattern :: patterns, _, _, .cons first rest => by
      rw [lowerFields, lowerFields]
      refine .bind (agrees_lowerPattern origin pattern first) fun _ _ _ => ?_
      exact (agrees_lowerFields origin patterns rest).map fun _ _ _ => trivial
  | [], tys, tys', _ => by
      have none (tys : List Ty) : lowerFields origin [] tys = pure [] := by
        rw [lowerFields]
        nofun
      rw [none, none]
      exact .pure trivial
  | _ :: _, _, _, .nil => by
      rw [lowerFields]
      · exact .pure trivial
      · nofun

theorem agrees_lowerAlternatives (origin : Origin) : ∀ (patterns : List Source.Pattern)
    {scrutinee scrutinee' : Ty}, scrutinee.Akin known scrutinee' →
    Agrees known c (List.Forall₂ Alike) (lowerAlternatives origin patterns scrutinee)
      (lowerAlternatives origin patterns scrutinee')
  | [], _, _, _ => by
      rw [lowerAlternatives, lowerAlternatives]
      exact .pure .nil
  | pattern :: patterns, scrutinee, scrutinee', scrutinees => by
      rw [lowerAlternatives, lowerAlternatives]
      refine .bind (agrees_lowerPattern origin pattern scrutinees) fun _ _ first => ?_
      exact (agrees_lowerAlternatives origin patterns scrutinees).map fun _ _ rest =>
        .cons first rest

end

end Lower

/-! ### What lowering asks of types -/

namespace Ty

variable {known : Outlines} {a b : Ty}

theorem element?_akin (akin : Akin known a b) :
    Option.Rel (Akin known) a.element? b.element? := by
  have nominal (ty : Ty) (nominal : ty.isNominal = true) : ty.element? = none := by
    cases ty <;> first | rfl | cases nominal
  cases akin.view with
  | array element => exact .some element
  | nominal first second =>
      rw [nominal a first, nominal b second]
      exact .none
  | _ => exact .none

theorem params_akin (akin : Akin known a b) : AkinAll known a.params b.params := by
  have nominal (ty : Ty) (nominal : ty.isNominal = true) : ty.params = [] := by
    cases ty <;> first | rfl | cases nominal
  cases akin.view with
  | function params _ => exact params
  | nominal first second =>
      rw [nominal a first, nominal b second]
      exact .nil
  | _ => exact .nil

theorem iterated?_akin (akin : Akin known a b) :
    Option.Rel (Akin known) a.iterated? b.iterated? := by
  -- Neither an array nor a map: the name decides.
  have asked (plain : a.iterated? = if a.isAuto then some .auto
        else if a.isString then some .string else none)
      (plain' : b.iterated? = if b.isAuto then some .auto
        else if b.isString then some .string else none) :
      Option.Rel (Akin known) a.iterated? b.iterated? := by
    rw [plain, plain', akin.isAuto, akin.isString]
    split
    · exact .some rfl
    · split
      · exact .some rfl
      · exact .none
  have nominal (ty : Ty) (nominal : ty.isNominal = true) :
      ty.iterated? = if ty.isAuto then some .auto else if ty.isString then some .string
        else none := by
    cases ty <;> first | rfl | cases nominal
  cases akin.view with
  | array element => exact .some element
  | map key _ => exact .some key
  | nominal first second => exact asked (nominal a first) (nominal b second)
  | _ => exact asked rfl rfl

theorem methodExpectation_akin (akin : Akin known a b) (method : String) (position : Nat)
    {first first' : Option Ty} (firsts : Option.Rel (Akin known) first first') :
    Option.Rel (Akin known) (a.methodExpectation method position first)
      (b.methodExpectation method position first') := by
  have nominal (ty : Ty) (nominal : ty.isNominal = true) (first : Option Ty) :
      ty.methodExpectation method position first = none := by
    cases ty <;> first | rfl | cases nominal
  cases akin.view with
  | array element =>
      unfold methodExpectation
      dsimp only
      split
      · exact .some (.function (.cons element .nil) (.refl _))
      · exact .some (.function (.cons element .nil) (.refl _))
      · exact rel_map firsts fun _ _ start => .function (.cons start (.cons element .nil)) start
      · exact .none
  | nominal first second =>
      rw [nominal a first, nominal b second]
      exact .none
  | _ => exact .none

/-- What a lambda is expected to take and to give. -/
def lambdaExpectation : Option Ty → List Ty × Option Ty
  | some (function params result) => (params, some result)
  | _ => ([], none)

theorem lambdaExpectation_akin {expected expected' : Option Ty}
    (expecteds : Option.Rel (Akin known) expected expected') :
    AkinAll known (lambdaExpectation expected).1 (lambdaExpectation expected').1 ∧
      Option.Rel (Akin known) (lambdaExpectation expected).2 (lambdaExpectation expected').2 := by
  have nominal (ty : Ty) (nominal : ty.isNominal = true) :
      lambdaExpectation (some ty) = ([], none) := by
    cases ty <;> first | rfl | cases nominal
  cases expecteds with
  | none => exact ⟨.nil, .none⟩
  | some akin =>
      cases akin.view with
      | function params result => exact ⟨params, .some result⟩
      | nominal first second =>
          rw [nominal _ first, nominal _ second]
          exact ⟨.nil, .none⟩
      | _ => exact ⟨.nil, .none⟩

/-- The type of an array literal without elements. -/
def emptyArray : Option Ty → Ty
  | some (array element) => array element
  | _ => array .auto

theorem emptyArray_akin {expected expected' : Option Ty}
    (expecteds : Option.Rel (Akin known) expected expected') :
    (emptyArray expected).Akin known (emptyArray expected') := by
  have nominal (ty : Ty) (nominal : ty.isNominal = true) :
      emptyArray (some ty) = array .auto := by
    cases ty <;> first | rfl | cases nominal
  cases expecteds with
  | none => exact .refl _
  | some akin =>
      cases akin.view with
      | array element => exact element.array
      | nominal first second =>
          rw [nominal _ first, nominal _ second]
          exact .refl _
      | _ => exact .refl _

theorem isVoid_eq (akin : Akin known a b) : a.isVoid = b.isVoid := by
  have nominal (ty : Ty) (nominal : ty.isNominal = true) : ty.isVoid = (ty.name == "void") := by
    cases ty <;> first | rfl | cases nominal
  cases akin.view with
  | unit => rfl
  | nominal first second => rw [nominal a first, nominal b second, akin.name]
  | primitive name => rfl
  | _ => exact congrArg (· == "void") akin.name

end Ty

theorem Literal.tyExpecting_akin {known : Outlines} (value : Literal)
    {expected expected' : Option Ty} (expecteds : Option.Rel (Ty.Akin known) expected expected') :
    (value.tyExpecting expected).Akin known (value.tyExpecting expected') := by
  have other (ty : Ty) (other : ∀ name, ty ≠ .primitive name) :
      value.tyExpecting (some ty) = value.ty := by
    unfold tyExpecting
    split
    · next found => exact (other _ (Option.some.inj found)).elim
    · next found => exact (other _ (Option.some.inj found)).elim
    · rfl
  cases expecteds with
  | none => exact .refl _
  | some akin =>
      cases akin.view with
      | primitive name => exact .refl _
      | nominal first second =>
          rw [other _ (by rintro name rfl; cases first), other _ (by rintro name rfl; cases second)]
          exact .refl _
      | var | unit => exact .refl _
      | _ =>
          rw [other _ (by rintro name ⟨⟩), other _ (by rintro name ⟨⟩)]
          exact .refl _

theorem Check.result?_related {α : Type} {R : α → α → Prop} {x y : Check α}
    (agrees : Agrees R x y) : Option.Rel R x.result? y.result? := by
  unfold result?
  obtain ⟨_, _, _, _, ran, ran'⟩ | ⟨a, b, _, _, ran, ran', related, -⟩ :=
    (agrees.run (s := []) (t := []) trivial).cases
  · rw [ran, ran']
    exact .none
  · rw [ran, ran']
    exact .some related

namespace Typed

/-- The expressions have akin types. -/
def Expr.Akin (known : Outlines) (e e' : Expr) : Prop :=
  e.ty.Akin known e'.ty

/-- The parameters have the same names and akin types. -/
structure Param.Akin (known : Outlines) (param param' : Param) : Prop where
  name : param.name = param'.name
  ty : param.ty.Akin known param'.ty

theorem tys_akin {known : Outlines} {es es' : List Expr}
    (all : List.Forall₂ (Expr.Akin known) es es') :
    Ty.AkinAll known (es.map Expr.ty) (es'.map Expr.ty) := by
  rw [Ty.AkinAll, List.forall₂_map_left_iff, List.forall₂_map_right_iff]
  exact all

end Typed

namespace Lower

variable {known : Outlines} {c : Context}

/-! ### Names and calls -/

theorem agrees_calleeOf (name name' : String) (origin origin' : Origin)
    (target target' : CallTarget) :
    Agrees known c (fun _ _ => True) (calleeOf name origin target)
      (calleeOf name' origin' target') := by
  refine ⟨fun standard => ⟨fun {s t} states => ?_⟩⟩
  cases target <;> cases target' <;> exact ⟨trivial, states⟩

theorem agrees_callNamed (name : String) {args args' : List Typed.Expr}
    (all : List.Forall₂ (Typed.Expr.Akin known) args args') {expected expected' : Option Ty}
    (expecteds : Option.Rel (Ty.Akin known) expected expected') (origin : Origin) :
    Agrees known c (Typed.Expr.Akin known) (callNamed name args expected origin)
      (callNamed name args' expected' origin) := by
  refine .env_bind fun a b envs told => ?_
  refine .bind (.check (Environment.agrees_callByName envs name (Typed.tys_akin all) expecteds
    origin)) fun call call' calls => ?_
  exact (agrees_calleeOf _ _ _ _ _ _).map fun _ _ _ => calls

theorem agrees_lowerName (name : String) {expected expected' : Option Ty}
    (expecteds : Option.Rel (Ty.Akin known) expected expected') (origin : Origin) :
    Agrees known c (Typed.Expr.Akin known) (lowerName name expected origin)
      (lowerName name expected' origin) := by
  refine .env_bind fun a b envs told => ?_
  have locals := envs.scopes.lookup? name
  have entries := Environment.entry?_related envs name
  rw [Environment.isNullary_eq envs name]
  generalize a.scopes.lookup? name = ty at locals ⊢
  generalize b.scopes.lookup? name = ty' at locals ⊢
  cases locals with
  | some tys => exact .pure tys
  | none =>
      dsimp only
      split
      · exact agrees_callNamed name .nil expecteds origin
      · generalize a.functions.entry? name = entry at entries ⊢
        generalize b.functions.entry? name = entry' at entries ⊢
        cases entries with
        | some entries => exact .pure entries.value.1.toTy
        | none =>
            cases boolOfWord? name with
            | some value => exact .pure (.refl .bool)
            | none =>
                exact (Agrees.check (Environment.agrees_nameType envs name origin)).map
                  fun _ _ tys => tys

theorem agrees_moduleMember? (object : Source.Expr) (member : String) :
    Agrees known c (Option.Rel fun found found' => found.1 = found'.1 ∧
      Entry.Like (fun sig sig' => sig.Akin known sig' ∧ sig.isRooted = true) found.2 found'.2)
      (moduleMember? object member) (moduleMember? object member) := by
  unfold moduleMember?
  split
  · next name form =>
      refine .env_bind fun a b envs told => ?_
      have contained : a.functions.contains name = b.functions.contains name :=
        envs.functions.contains_eq name
      rw [envs.scopes.contains, contained]
      split
      · exact .pure .none
      · exact .pure (rel_map (FunctionTable.member?_related envs.functions name member)
          fun _ _ entries => ⟨rfl, entries⟩)
  · exact .pure .none

theorem agrees_lambdaParams (origin : Origin) (params : List Source.LambdaParam)
    {expected expected' : List Ty} (expecteds : Ty.AkinAll known expected expected') :
    Agrees known c (List.Forall₂ (Typed.Param.Akin known)) (lambdaParams origin params expected)
      (lambdaParams origin params expected') := by
  induction params generalizing expected expected' with
  | nil => exact .pure .nil
  | cons param params ih =>
      rw [lambdaParams, lambdaParams]
      have heads : (expected.head?.getD .auto).Akin known (expected'.head?.getD .auto) := by
        cases expecteds with
        | nil => rfl
        | cons first _ => exact first
      have tails : Ty.AkinAll known expected.tail expected'.tail := by
        cases expecteds with
        | nil => exact .nil
        | cons _ rest => exact rest
      have rest {ty ty' : Ty} (tys : ty.Akin known ty') :
          Agrees known c (List.Forall₂ (Typed.Param.Akin known))
            (do
              let rest ← lambdaParams origin params expected.tail
              return { name := param.name, ty } :: rest)
            (do
              let rest ← lambdaParams origin params expected'.tail
              return { name := param.name, ty := ty' } :: rest) :=
        (ih tails).map fun _ _ rest => .cons ⟨rfl, tys⟩ rest
      cases param.ty with
      | some ty => exact (agrees_resolve origin origin ty).bind fun _ _ tys => rest tys
      | none => exact rest heads

theorem agrees_bindParams {params params' : List Typed.Param}
    (all : List.Forall₂ (Typed.Param.Akin known) params params') :
    Agrees known c (fun _ _ => True) (bindParams params) (bindParams params') := by
  induction all with
  | nil => exact .pure trivial
  | cons first _ ih =>
      rw [bindParams, bindParams, first.name]
      exact (Agrees.bind_name _ first.ty).bind fun _ _ _ => ih

theorem agrees_checkElements {element element' : Ty} (elements : element.Akin known element')
    (origin : Origin) (number : Nat) {es es' : List Typed.Expr}
    (all : List.Forall₂ (Typed.Expr.Akin known) es es') :
    Check.Agrees (fun _ _ => True) (checkElements element origin number es)
      (checkElements element' origin number es') := by
  induction all generalizing number with
  | nil => exact .pure trivial
  | cons first _ ih =>
      exact Agree.bind (Check.agrees_compatible first elements _ _ _ _) fun _ _ _ => ih (number + 1)

/-! ### Expressions and statements -/

/-- The first type, or else the second, of akin ones. -/
theorem rel_orElse {first first' second second' : Option Ty}
    (firsts : Option.Rel (Ty.Akin known) first first')
    (seconds : Option.Rel (Ty.Akin known) second second') :
    Option.Rel (Ty.Akin known) (first <|> second) (first' <|> second') := by
  cases firsts with
  | none => exact seconds
  | some tys => exact .some tys

theorem rel_head? {tys tys' : List Ty} (all : Ty.AkinAll known tys tys') :
    Option.Rel (Ty.Akin known) tys.head? tys'.head? := by
  cases all with
  | nil => exact .none
  | cons first _ => exact .some first

theorem akin_getD {ty ty' : Option Ty} (tys : Option.Rel (Ty.Akin known) ty ty')
    {other other' : Ty} (others : other.Akin known other') :
    (ty.getD other).Akin known (ty'.getD other') := by
  cases tys with
  | none => exact others
  | some tys => exact tys

/-- A check against a type that may be given. -/
theorem agrees_whenSome {α : Type} {R : α → α → Prop} {ty ty' : Option Ty}
    (tys : Option.Rel (Ty.Akin known) ty ty') {check check' : Ty → Lower PUnit}
    (checks : ∀ a b, Ty.Akin known a b → Agrees known c (fun _ _ => True) (check a) (check' b))
    {rest rest' : Lower α} (next : Agrees known c R rest rest') :
    Agrees known c R
      (do
        if let some ty := ty then check ty
        rest)
      (do
        if let some ty := ty' then check' ty
        rest') := by
  cases tys with
  | none => exact next
  | some tys => exact (checks _ _ tys).bind fun _ _ _ => next

/-- A call that is not one of a member. -/
theorem agrees_lowerCall {callee : Source.Expr} {args : List Source.Expr}
    (other : ∀ object method place, callee ≠ ⟨.member object method, place⟩)
    (callees : Agrees known c (Typed.Expr.Akin known) (lowerExpr callee none)
      (lowerExpr callee none))
    (argss : ∀ {tys tys'}, Ty.AkinAll known tys tys' →
      Agrees known c (List.Forall₂ (Typed.Expr.Akin known)) (lowerArgs args tys)
        (lowerArgs args tys'))
    {expected expected' : Option Ty} (expecteds : Option.Rel (Ty.Akin known) expected expected')
    (origin : Origin) :
    Agrees known c (Typed.Expr.Akin known) (lowerForm (.call callee args) expected origin)
      (lowerForm (.call callee args) expected' origin) := by
  rw [lowerForm, lowerForm]
  · refine .env_bind fun a b envs told => ?_
    have same : callee.globalName? a = callee.globalName? b := by
      simp only [Source.Expr.globalName?, envs.scopes.contains]
    rw [same]
    split
    · next name _ =>
        refine .env_bind fun a b envs told => ?_
        have params : Ty.AkinAll known
            ((a.functions.signature? name).map Signature.params |>.getD [])
            ((b.functions.signature? name).map Signature.params |>.getD []) := by
          have entries := Environment.entry?_related envs name
          unfold FunctionTable.signature?
          generalize a.functions.entry? name = entry at entries ⊢
          generalize b.functions.entry? name = entry' at entries ⊢
          cases entries with
          | none => exact .nil
          | some entries => exact entries.value.1.params
        exact (argss params).bind fun _ _ args => agrees_callNamed name args expecteds origin
    · refine .bind callees fun callee callee' callees => ?_
      refine .bind (argss (Ty.params_akin callees)) fun args args' all => ?_
      exact (Agrees.check (Ty.agrees_callResult callees (Typed.tys_akin all) origin)).map
        fun _ _ tys => tys
  · exact other
  · exact other

/-- A call of a field that holds a function, or else of a built-in method. -/
theorem agrees_lowerMethod {args : List Source.Expr} {receiver receiver' : Typed.Expr}
    (receivers : receiver.Akin known receiver')
    (argss : ∀ {tys tys'}, Ty.AkinAll known tys tys' →
      Agrees known c (List.Forall₂ (Typed.Expr.Akin known)) (lowerArgs args tys)
        (lowerArgs args tys'))
    (method : String)
    (methodArgs : Agrees known c (List.Forall₂ (Typed.Expr.Akin known))
      (lowerMethodArgs args receiver.ty method 0 none)
      (lowerMethodArgs args receiver'.ty method 0 none))
    {field field' : Option Ty} (fields : Option.Rel (Ty.Akin known) field field')
    (origin : Origin) :
    let lowered (receiver : Typed.Expr) (field : Option Ty) : Lower Typed.Expr :=
      match field with
      | some (.function params result) => do
        let field : Ty := .function params result
        let args ← lowerArgs args params
        let ty ← check (field.callResult (args.map Typed.Expr.ty) origin)
        return ⟨.call (.value ⟨.member receiver method, field, origin⟩) args, ty, origin⟩
      | _ => do
        let args ← lowerMethodArgs args receiver.ty method 0 none
        let ty ← check (receiver.ty.methodResult method (args.map Typed.Expr.ty) origin)
        return ⟨.call (.method receiver method) args, ty, origin⟩
    Agrees known c (Typed.Expr.Akin known) (lowered receiver field) (lowered receiver' field') := by
  intro lowered
  have builtin : Agrees known c (Typed.Expr.Akin known) (lowered receiver none)
      (lowered receiver' none) := by
    refine .bind methodArgs fun args args' all => ?_
    exact (Agrees.check (Ty.agrees_methodResult receivers method (Typed.tys_akin all)
      origin)).map fun _ _ tys => tys
  have nominal (receiver : Typed.Expr) (ty : Ty) (nominal : ty.isNominal = true) :
      lowered receiver (some ty) = lowered receiver none := by
    cases ty <;> first | rfl | cases nominal
  cases fields with
  | none => exact builtin
  | some tys =>
      cases tys.view with
      | function params result =>
          refine .bind (argss params) fun args args' all => ?_
          exact (Agrees.check (Ty.agrees_callResult tys (Typed.tys_akin all) origin)).map
            fun _ _ tys => tys
      | nominal first second =>
          rw [nominal _ _ first, nominal _ _ second]
          exact builtin
      | _ => exact builtin

theorem agrees_lowerLambda {body : Source.Expr}
    (bodies : ∀ {wanted wanted'}, Option.Rel (Ty.Akin known) wanted wanted' →
      Agrees known c (Typed.Expr.Akin known) (lowerExpr body wanted) (lowerExpr body wanted'))
    (params : List Source.LambdaParam) (result : Option WrittenType)
    {expected expected' : Option Ty} (expecteds : Option.Rel (Ty.Akin known) expected expected')
    (origin : Origin) :
    Agrees known c (Typed.Expr.Akin known)
      (lowerForm (.lambda params result body) expected origin)
      (lowerForm (.lambda params result body) expected' origin) := by
  obtain ⟨inputs, outputs⟩ := Ty.lambdaExpectation_akin expecteds
  rw [lowerForm.eq_def, lowerForm.eq_def]
  dsimp only
  refine .bind (agrees_lambdaParams origin params inputs) fun params params' all => ?_
  refine .bind (agrees_resolve? origin origin result) fun declared declared' declareds => ?_
  have filtered : Option.Rel (Ty.Akin known)
      ((Ty.lambdaExpectation expected).2.filter (!·.isAuto))
      ((Ty.lambdaExpectation expected').2.filter (!·.isAuto)) := by
    generalize (Ty.lambdaExpectation expected).2 = output at outputs ⊢
    generalize (Ty.lambdaExpectation expected').2 = output' at outputs ⊢
    cases outputs with
    | none => exact .none
    | some tys =>
        rw [Option.filter_some, Option.filter_some, tys.isAuto]
        split
        · exact .some tys
        · exact .none
  have wanteds := rel_orElse declareds filtered
  have lowered := ((agrees_bindParams (c := c) all).bind fun _ _ _ =>
    (bodies wanteds).withResult (akin_getD wanteds (.refl .auto))).inScope
  refine .bind lowered fun body body' bodies => ?_
  refine agrees_whenSome declareds (fun _ _ tys =>
    .check (Check.agrees_compatible bodies tys _ _ _ _)) (.pure ?_)
  refine .function ?_ (akin_getD declareds bodies)
  rw [Ty.AkinAll, List.forall₂_map_left_iff, List.forall₂_map_right_iff]
  exact all.imp fun _ _ both => both.ty

mutual

theorem agrees_lowerExpr : ∀ (e : Source.Expr) {expected expected' : Option Ty},
    Option.Rel (Ty.Akin known) expected expected' →
    Agrees known c (Typed.Expr.Akin known) (lowerExpr e expected) (lowerExpr e expected')
  | ⟨form, origin⟩, expected, expected', expecteds => by
      rw [lowerExpr, lowerExpr]
      exact .dispatch (stage_expr _ _) (stage_expr _ _)
        (agrees_lowerForm form expecteds origin) _

theorem agrees_lowerForm : ∀ (form : Source.ExprForm) {expected expected' : Option Ty},
    Option.Rel (Ty.Akin known) expected expected' → ∀ origin,
    Agrees known c (Typed.Expr.Akin known) (lowerForm form expected origin)
      (lowerForm form expected' origin)
  | .literal value, expected, expected', expecteds, origin => by
      rw [lowerForm, lowerForm]
      exact .pure (value.tyExpecting_akin expecteds)
  | .var name, expected, expected', expecteds, origin => by
      rw [lowerForm, lowerForm]
      exact agrees_lowerName name expecteds origin
  | .binary op lhs rhs, expected, expected', expecteds, origin => by
      rw [lowerForm, lowerForm]
      refine .bind (agrees_lowerExpr lhs .none) fun lhs lhs' left => ?_
      refine .bind (agrees_lowerExpr rhs (.some left)) fun rhs rhs' right => ?_
      exact (Agrees.check (Ty.agrees_binaryResult left right op origin)).map fun _ _ tys => tys
  | .unary op operand, expected, expected', expecteds, origin => by
      rw [lowerForm, lowerForm]
      refine .bind (agrees_lowerExpr operand expecteds) fun operand operand' operands => ?_
      exact (Agrees.check (Ty.agrees_unaryResult operands op origin)).map fun _ _ tys => tys
  | .call ⟨form, place⟩ args, expected, expected', expecteds, origin => by
      have callees := agrees_lowerExpr ⟨form, place⟩ .none
      have argss {tys tys' : List Ty} (all : Ty.AkinAll known tys tys') := agrees_lowerArgs args all
      cases form with
      | member object method =>
          rw [lowerForm, lowerForm]
          refine .bind (agrees_moduleMember? object method) fun found found' both => ?_
          cases both with
          | some both =>
              obtain ⟨containers, entries⟩ := both
              refine .bind (argss entries.value.1.params) fun args args' all => ?_
              rw [containers]
              refine .bind (.check (Environment.agrees_callMember entries _ method
                (Typed.tys_akin all) expecteds origin)) fun call call' calls => ?_
              exact (agrees_calleeOf _ _ _ _ _ _).map fun _ _ _ => calls
          | none =>
              refine .bind (agrees_lowerExpr object .none) fun receiver receiver' receivers => ?_
              refine .env_bind fun a b envs told => ?_
              exact agrees_lowerMethod receivers argss method
                (agrees_lowerMethodArgs args receivers method 0 .none)
                (Check.result?_related (Environment.agrees_memberType envs told receivers method
                  origin)) origin
      | _ => exact agrees_lowerCall (by simp) callees argss expecteds origin
  | .member object name, expected, expected', expecteds, origin => by
      rw [lowerForm, lowerForm]
      refine .bind (agrees_moduleMember? object name) fun found found' both => ?_
      cases both with
      | some both => exact .pure both.2.value.1.toTy
      | none =>
          refine .bind (agrees_lowerExpr object .none) fun object object' objects => ?_
          refine .env_bind fun a b envs told => ?_
          exact (Agrees.check (Environment.agrees_memberType envs told objects name origin)).map
            fun _ _ tys => tys
  | .index object position, expected, expected', expecteds, origin => by
      rw [lowerForm, lowerForm]
      refine .bind (agrees_lowerExpr object .none) fun object object' objects => ?_
      refine .bind (agrees_lowerExpr position .none) fun position position' positions => ?_
      exact (Agrees.check (Ty.agrees_elementAt objects positions origin)).map fun _ _ tys => tys
  | .record name fields, expected, expected', expecteds, origin => by
      rw [lowerForm, lowerForm]
      refine .bind (agrees_lowerRecordFields name fields) fun fields fields' all => ?_
      refine .env_bind fun a b envs told => ?_
      have givens : Ty.AkinFields known (fields.map fun field => (field.1, field.2.ty))
          (fields'.map fun field => (field.1, field.2.ty)) := by
        rw [Ty.AkinFields, List.forall₂_map_left_iff, List.forall₂_map_right_iff]
        exact all
      exact (Agrees.check (Environment.agrees_recordType envs givens origin)).map fun _ _ tys => tys
  | .ifElse condition thenBranch none, expected, expected', expecteds, origin => by
      rw [lowerForm, lowerForm]
      refine .bind (agrees_lowerExpr condition (.some rfl)) fun _ _ conditions => ?_
      refine .bind (.check (Check.agrees_boolean conditions _ _ _ _)) fun _ _ _ => ?_
      exact (agrees_lowerExpr thenBranch expecteds).map fun _ _ _ => .refl .void
  | .ifElse condition thenBranch (some elseBranch), expected, expected', expecteds, origin => by
      rw [lowerForm, lowerForm]
      refine .bind (agrees_lowerExpr condition (.some rfl)) fun _ _ conditions => ?_
      refine .bind (.check (Check.agrees_boolean conditions _ _ _ _)) fun _ _ _ => ?_
      refine .bind (agrees_lowerExpr thenBranch expecteds) fun _ _ branches => ?_
      refine .bind (agrees_lowerExpr elseBranch (.some branches)) fun _ _ others => ?_
      exact (Agrees.check (Check.agrees_compatible others branches _ _ _ _)).map
        fun _ _ _ => branches
  | .matching scrutinee arms, expected, expected', expecteds, origin => by
      rw [lowerForm, lowerForm]
      refine .bind (agrees_lowerExpr scrutinee .none) fun _ _ scrutinees => ?_
      refine .bind (agrees_lowerArms arms scrutinees expecteds) fun arms arms' all => ?_
      refine .read_bind ?_
      refine .env_bind fun a b envs told => ?_
      exact (Agrees.check (Typed.agrees_matchType _ envs told scrutinees all origin)).map
        fun _ _ tys => tys
  | .lambda params result body, expected, expected', expecteds, origin =>
      agrees_lowerLambda (fun wanteds => agrees_lowerExpr body wanteds) params result expecteds
        origin
  | .block stmts none, expected, expected', expecteds, origin => by
      rw [lowerForm, lowerForm]
      exact .inScope ((agrees_lowerStmts stmts).map fun _ _ _ => .refl .void)
  | .block stmts (some result), expected, expected', expecteds, origin => by
      rw [lowerForm, lowerForm]
      refine .inScope (.bind (agrees_lowerStmts stmts) fun _ _ _ => ?_)
      exact (agrees_lowerExpr result expecteds).map fun _ _ tys => tys
  | .array elements, expected, expected', expecteds, origin => by
      have hints := rel_bind expecteds fun _ _ tys => Ty.element?_akin tys
      rw [lowerForm.eq_def, lowerForm.eq_def]
      dsimp only
      refine .bind (agrees_lowerElements elements hints) fun elements elements' all => ?_
      cases all with
      | nil =>
          exact .pure (Ty.emptyArray_akin expecteds)
      | cons first rest =>
          exact (Agrees.check (agrees_checkElements first origin 2 rest)).map
            fun _ _ _ => Ty.Akin.array first

theorem agrees_lowerArgs : ∀ (args : List Source.Expr) {tys tys' : List Ty},
    Ty.AkinAll known tys tys' →
    Agrees known c (List.Forall₂ (Typed.Expr.Akin known)) (lowerArgs args tys) (lowerArgs args tys')
  | [], tys, tys', _ => by
      rw [lowerArgs, lowerArgs]
      exact .pure .nil
  | arg :: args, tys, tys', all => by
      rw [lowerArgs, lowerArgs]
      refine .bind (agrees_lowerExpr arg (rel_head? all)) fun _ _ first => ?_
      have tails : Ty.AkinAll known tys.tail tys'.tail := by
        cases all with
        | nil => exact .nil
        | cons _ rest => exact rest
      exact (agrees_lowerArgs args tails).map fun _ _ rest => .cons first rest

theorem agrees_lowerMethodArgs : ∀ (args : List Source.Expr) {receiver receiver' : Ty},
    receiver.Akin known receiver' → ∀ (method : String) (position : Nat) {first first' : Option Ty},
    Option.Rel (Ty.Akin known) first first' →
    Agrees known c (List.Forall₂ (Typed.Expr.Akin known))
      (lowerMethodArgs args receiver method position first)
      (lowerMethodArgs args receiver' method position first')
  | [], _, _, _, _, _, _, _, _ => by
      rw [lowerMethodArgs, lowerMethodArgs]
      exact .pure .nil
  | arg :: args, receiver, receiver', receivers, method, position, first, first', firsts => by
      rw [lowerMethodArgs, lowerMethodArgs]
      refine .bind (agrees_lowerExpr arg (Ty.methodExpectation_akin receivers method position
        firsts)) fun _ _ lowered => ?_
      exact (agrees_lowerMethodArgs args receivers method (position + 1)
        (rel_orElse firsts (.some lowered))).map fun _ _ rest => .cons lowered rest

theorem agrees_lowerElements : ∀ (elements : List Source.Expr) {expected expected' : Option Ty},
    Option.Rel (Ty.Akin known) expected expected' →
    Agrees known c (List.Forall₂ (Typed.Expr.Akin known)) (lowerElements elements expected)
      (lowerElements elements expected')
  | [], _, _, _ => by
      rw [lowerElements, lowerElements]
      exact .pure .nil
  | element :: elements, _, _, expecteds => by
      rw [lowerElements, lowerElements]
      refine .bind (agrees_lowerExpr element expecteds) fun _ _ first => ?_
      exact (agrees_lowerMoreElements elements first).map fun _ _ rest => .cons first rest

theorem agrees_lowerMoreElements : ∀ (elements : List Source.Expr) {expected expected' : Ty},
    expected.Akin known expected' →
    Agrees known c (List.Forall₂ (Typed.Expr.Akin known)) (lowerMoreElements elements expected)
      (lowerMoreElements elements expected')
  | [], _, _, _ => by
      rw [lowerMoreElements, lowerMoreElements]
      exact .pure .nil
  | element :: elements, _, _, expecteds => by
      rw [lowerMoreElements, lowerMoreElements]
      refine .bind (agrees_lowerExpr element (.some expecteds)) fun _ _ first => ?_
      exact (agrees_lowerMoreElements elements expecteds).map fun _ _ rest => .cons first rest

theorem agrees_lowerRecordFields : ∀ (typeName : Option String)
    (fields : List (String × Source.Expr)),
    Agrees known c (List.Forall₂ fun field field' => field.1 = field'.1 ∧
        Typed.Expr.Akin known field.2 field'.2)
      (lowerRecordFields typeName fields) (lowerRecordFields typeName fields)
  | _, [] => by
      rw [lowerRecordFields]
      exact .pure .nil
  | typeName, (name, value) :: fields => by
      rw [lowerRecordFields]
      refine .env_bind fun a b envs told => ?_
      have hints : Option.Rel (Ty.Akin known) (typeName.bind (a.types.member? · name))
          (typeName.bind (b.types.member? · name)) := by
        cases typeName with
        | none => exact .none
        | some typeName => exact Environment.member?_related envs typeName name
      refine .bind (agrees_lowerExpr value hints) fun _ _ first => ?_
      exact (agrees_lowerRecordFields typeName fields).map fun _ _ rest => .cons ⟨rfl, first⟩ rest

theorem agrees_lowerArms : ∀ (arms : List Source.Arm) {scrutinee scrutinee' : Ty},
    scrutinee.Akin known scrutinee' → ∀ {expected expected' : Option Ty},
    Option.Rel (Ty.Akin known) expected expected' →
    Agrees known c (List.Forall₂ (Typed.Arm.Akin known)) (lowerArms arms scrutinee expected)
      (lowerArms arms scrutinee' expected')
  | [], _, _, _, _, _, _ => by
      rw [lowerArms, lowerArms]
      exact .pure .nil
  | ⟨pattern, body, origin⟩ :: arms, scrutinee, scrutinee', scrutinees, expected, expected',
      expecteds => by
      rw [lowerArms, lowerArms]
      have lowered : Agrees known c (Typed.Arm.Akin known)
          (inScope do
            let pattern ← lowerPattern origin pattern scrutinee
            let body ← lowerExpr body expected
            return (⟨pattern, body⟩ : Typed.Arm))
          (inScope do
            let pattern ← lowerPattern origin pattern scrutinee'
            let body ← lowerExpr body expected'
            return (⟨pattern, body⟩ : Typed.Arm)) := by
        refine .inScope (.bind (agrees_lowerPattern origin pattern scrutinees)
          fun _ _ patterns => ?_)
        exact (agrees_lowerExpr body expecteds).map fun _ _ bodies =>
          ⟨patterns.catchAll, patterns.covered, bodies⟩
      refine .bind lowered fun _ _ first => ?_
      exact (agrees_lowerArms arms scrutinees expecteds).map fun _ _ rest => .cons first rest

theorem agrees_lowerStmt : ∀ stmt : Source.Stmt,
    Agrees known c (fun _ _ => True) (lowerStmt stmt) (lowerStmt stmt)
  | ⟨form, origin⟩ => by
      rw [lowerStmt]
      exact .dispatch (stage_stmt _) (stage_stmt _) (agrees_lowerStmtForm form origin) _

theorem agrees_lowerStmtForm : ∀ (form : Source.StmtForm) (origin : Origin),
    Agrees known c (fun _ _ => True) (lowerStmtForm form origin) (lowerStmtForm form origin)
  | .bind name mutable written value, origin => by
      rw [lowerStmtForm]
      refine .bind (agrees_resolve? origin origin written) fun _ _ declareds => ?_
      refine .bind (agrees_lowerExpr value declareds) fun _ _ values => ?_
      refine agrees_whenSome declareds (fun _ _ tys =>
        .check (Check.agrees_compatible values tys _ _ _ _)) ?_
      exact (Agrees.bind_name name (akin_getD declareds values)).map fun _ _ _ => trivial
  | .assign target value, origin => by
      rw [lowerStmtForm]
      refine .env_bind fun a b envs told => ?_
      have locals := envs.scopes.lookup? target
      generalize found : a.scopes.lookup? target = ty at locals ⊢
      generalize found' : b.scopes.lookup? target = ty' at locals ⊢
      cases locals with
      | none => exact .fail _ _ _ _
      | some tys =>
          refine .bind (agrees_lowerExpr value (.some tys)) fun _ _ values => ?_
          exact (Agrees.check (Check.agrees_compatible values tys _ _ _ _)).map fun _ _ _ => trivial
  | .expr value, origin => by
      rw [lowerStmtForm]
      exact (agrees_lowerExpr value .none).map fun _ _ _ => trivial
  | .return none, origin => by
      rw [lowerStmtForm]
      exact .pure trivial
  | .return (some value), origin => by
      rw [lowerStmtForm]
      refine .get_bind fun s t states told => ?_
      have expecteds := rel_head? states.results
      refine .bind (agrees_lowerExpr value expecteds) fun _ _ values => ?_
      exact agrees_whenSome expecteds (fun _ _ tys =>
        .check (Check.agrees_compatible values tys _ _ _ _)) (.pure trivial)
  | .ifElse condition thenBody elseBody, origin => by
      rw [lowerStmtForm]
      refine .bind (agrees_lowerExpr condition (.some rfl)) fun _ _ conditions => ?_
      refine .bind (.check (Check.agrees_boolean conditions _ _ _ _)) fun _ _ _ => ?_
      refine .bind (agrees_lowerStmts thenBody).inScope fun _ _ _ => ?_
      exact (agrees_lowerStmts elseBody).inScope.map fun _ _ _ => trivial
  | .whileLoop condition body, origin => by
      rw [lowerStmtForm]
      refine .bind (agrees_lowerExpr condition (.some rfl)) fun _ _ conditions => ?_
      refine .bind (.check (Check.agrees_boolean conditions _ _ _ _)) fun _ _ _ => ?_
      exact (agrees_lowerStmts body).inScope.map fun _ _ _ => trivial
  | .forEach name iterable body, origin => by
      rw [lowerStmtForm]
      refine .bind (agrees_lowerExpr iterable .none) fun iterable iterable' iterables => ?_
      have items := Ty.iterated?_akin iterables
      generalize iterable.ty.iterated? = item at items ⊢
      generalize iterable'.ty.iterated? = item' at items ⊢
      cases items with
      | none => exact .fail _ _ _ _
      | some tys =>
          have lowered := ((Agrees.bind_name name tys).bind fun _ _ _ =>
            agrees_lowerStmts body).inScope
          exact lowered.map fun _ _ _ => trivial
  | .leave, origin => by
      rw [lowerStmtForm]
      exact .pure trivial
  | .next, origin => by
      rw [lowerStmtForm]
      exact .pure trivial

theorem agrees_lowerStmts : ∀ stmts : List Source.Stmt,
    Agrees known c (fun _ _ => True) (lowerStmts stmts) (lowerStmts stmts)
  | [] => by
      rw [lowerStmts]
      exact .pure trivial
  | stmt :: stmts => by
      rw [lowerStmts]
      refine .bind (agrees_lowerStmt stmt) fun _ _ _ => ?_
      exact (agrees_lowerStmts stmts).map fun _ _ _ => trivial

end

/-! ### Functions -/

theorem agrees_signatureOf (decl : Source.Function) :
    Agrees known c (fun sig sig' => sig.Akin known sig' ∧ sig.isRooted = true) (signatureOf decl)
      (signatureOf decl) := by
  refine .of_reads (reads_signatureOf decl) (reads_signatureOf decl) fun s t states _ => ?_
  rw [states.typeParams]
  exact Source.Function.meaning_akin (Environment.info?_related states.env) _ decl

theorem agrees_declareFunction (decl : Source.Function) :
    Agrees known c (fun _ _ => True) (declareFunction decl) (declareFunction decl) := by
  have registered : Agrees known c Eq (registration decl.exported decl.isExternal decl.origin)
      (registration decl.exported decl.isExternal decl.origin) :=
    .get_bind fun s t states _ => .pure (by rw [states.moduleName, states.namespaceName])
  refine .bind (agrees_signatureOf decl) fun sig sig' sigs => ?_
  refine .bind registered fun reg reg' regs => ?_
  have added : Agrees known c (fun _ _ => True)
      (modifyEnv fun env => { env with functions := env.functions.register sig reg })
      (modifyEnv fun env => { env with functions := env.functions.register sig' reg' }) := by
    refine .modifyEnv fun a b envs => { envs with functions := ?_ }
    rw [← regs]
    show (a.functions.table.register sig.name sig reg).Resembles _
      (b.functions.table.register sig'.name sig' reg)
    rw [← sigs.1.name]
    exact envs.functions.register sig.name sigs reg
  exact added.map fun _ _ _ => trivial

theorem agrees_lowerBody (decl : Source.Function) {sig sig' : Signature}
    (sigs : sig.Akin known sig') (body : Source.Expr) :
    Agrees known c (fun _ _ => True) (lowerBody decl sig (typedParams decl sig) body)
      (lowerBody decl sig' (typedParams decl sig') body) := by
  have params : List.Forall₂ (Typed.Param.Akin known) (typedParams decl sig)
      (typedParams decl sig') := by
    unfold typedParams
    have tys := sigs.params
    generalize sig.params = tys at tys ⊢
    generalize sig'.params = tys' at tys ⊢
    generalize decl.params = params
    induction tys generalizing params with
    | nil => simp
    | cons first _ ih =>
        cases params with
        | nil => simp
        | cons param params => exact .cons ⟨rfl, first⟩ (ih params)
  unfold lowerBody
  rw [← sigs.typeParams]
  refine .withTypeParams (.inScope (.bind (agrees_bindParams params) fun _ _ _ =>
    .withResult ?_ sigs.result)) _
  refine .bind (agrees_lowerExpr body (.some sigs.result)) fun body body' bodies => ?_
  have checked : Agrees known c (fun _ _ => True)
      (check (Check.compatible body.ty sig.result s!"return value of {Cause.quote decl.name}"
        (body.origin <|> decl.origin)))
      (check (Check.compatible body'.ty sig'.result s!"return value of {Cause.quote decl.name}"
        (body'.origin <|> decl.origin))) :=
    .check (Check.agrees_compatible bodies sigs.result _ _ _ _)
  rw [Ty.isVoid_eq sigs.result, Ty.isVoid_eq bodies]
  split
  · exact .pure trivial
  · exact checked.map fun _ _ _ => trivial

theorem agrees_lowerFunction (decl : Source.Function) :
    Agrees known c (fun _ _ => True) (lowerFunction decl) (lowerFunction decl) := by
  have tagged (sig sig' : Signature) (body body' : Option Typed.Expr) :
      Agrees known c (fun _ _ => True) (tagEffects decl sig body) (tagEffects decl sig' body') := by
    refine .read_bind ?_
    split
    · refine .map (.modifyEnv fun a b envs => { envs with functions := ?_ })
        fun _ _ _ => trivial
      rw [FunctionTable.table_replaceEffects, FunctionTable.table_replaceEffects]
      exact envs.functions
    · exact .pure trivial
  refine .dispatch rfl rfl ?_ _
  rw [lowerFunctionForm_eq]
  refine .bind (agrees_signatureOf decl) fun sig sig' sigs => ?_
  have bodies : Agrees known c (fun _ _ => True) (lowerBody? decl sig) (lowerBody? decl sig') := by
    unfold lowerBody?
    cases decl.body with
    | none => exact .pure trivial
    | some body => exact (agrees_lowerBody decl sigs.1 body).map fun _ _ _ => trivial
  refine .bind bodies fun body body' _ => ?_
  exact (tagged sig sig' body body').map fun _ _ _ => trivial

/-- The functions of a module are accepted from one of two akin states if they are accepted
from the other. -/
theorem agrees_lowerFunctions (decls : List Source.Function) :
    Agrees known c (fun _ _ => True) (lowerFunctions decls) (lowerFunctions decls) := by
  have declared (decl : Source.Function) :
      Agrees known c (fun _ _ => True) (declare decl) (declare decl) := by
    show Agrees known c _ ((fun _ => ()) <$> declareFunction decl) _
    rw [map_eq_pure_bind]
    exact (agrees_declareFunction decl).map fun _ _ _ => trivial
  refine .bind (.forM declared decls) fun _ _ _ => ?_
  exact (Agrees.mapM agrees_lowerFunction decls).mono fun _ _ _ => trivial

end Lower

end ModuleTyping
