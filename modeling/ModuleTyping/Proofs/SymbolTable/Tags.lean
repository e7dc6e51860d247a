import ModuleTyping.Proofs.Histories
import ModuleTyping.Proofs.SymbolTable.Declared
import ModuleTyping.Proofs.SymbolTable.Functions
import ModuleTyping.Proofs.SymbolTable.Resolution

/-!
# The life of effect tags

Tags are kept beside the symbol table, under registered names. Every edit keeps the two in
step: tags are kept for registered names only, in ascending order (`Tagged`). What one edit
does to the tags of a function is one law (`mem_ownTags_edited`): a tag is there after the
edit if the edit gives it, or if it was there and the edit does not replace the tags.

A function has a tag exactly if the tag was given to it after the function was last created,
and its tags were not replaced since (`mem_ownTags_built`). A function may be deleted and
registered again, and its name may be an alias in between; the tags it has then are those of
its last life.
-/

namespace ModuleTyping

namespace Effect

theorem mem_insert {tag other : Effect} {tags : List Effect} :
    other ∈ insert tag tags ↔ other = tag ∨ other ∈ tags := by
  induction tags with
  | nil => simp [insert]
  | cons first rest ih =>
      unfold insert
      split
      · exact List.mem_cons
      · split
        · next same =>
            subst same
            simp
        · simp only [List.mem_cons, ih, or_left_comm]

theorem pairwise_insert (tag : Effect) {tags : List Effect}
    (ascending : tags.Pairwise fun a b => a.rank < b.rank) :
    (insert tag tags).Pairwise fun a b => a.rank < b.rank := by
  induction tags with
  | nil => exact List.pairwise_singleton _ _
  | cons first rest ih =>
      obtain ⟨before, tail⟩ := List.pairwise_cons.mp ascending
      unfold insert
      split
      · next lower =>
          refine List.pairwise_cons.mpr ⟨fun other member => ?_, ascending⟩
          rcases List.mem_cons.mp member with rfl | member
          · exact lower
          · exact Nat.lt_trans lower (before other member)
      · split
        · exact ascending
        · next higher different =>
            refine List.pairwise_cons.mpr ⟨fun other member => ?_, ih tail⟩
            rcases mem_insert.mp member with rfl | member
            · cases other <;> cases first <;> simp_all [rank]
            · exact before other member

theorem mem_foldl_insert (tags sorted : List Effect) {tag : Effect} :
    tag ∈ tags.foldl (fun sorted tag => insert tag sorted) sorted ↔ tag ∈ tags ∨ tag ∈ sorted := by
  induction tags generalizing sorted with
  | nil => simp
  | cons first rest ih =>
      rw [List.foldl_cons, ih, mem_insert, List.mem_cons]
      tauto

theorem mem_ascending {tags : List Effect} {tag : Effect} : tag ∈ ascending tags ↔ tag ∈ tags := by
  rw [ascending, mem_foldl_insert]
  simp

theorem pairwise_ascending (tags : List Effect) :
    (ascending tags).Pairwise fun a b => a.rank < b.rank :=
  List.foldlRecOn tags _ .nil fun _ sorted tag _ => pairwise_insert tag sorted

end Effect

namespace SymbolTable

variable {α : Type} {table : SymbolTable α}

/-- A name stays registered unless it is deleted or all is cleared. -/
theorem Consistent.contains_edited (consistent : table.Consistent) {edit : Edit α} {name : String}
    (registered : table.entries.contains name = true) (kept : edit ≠ .delete name)
    (uncleared : edit ≠ .clear) : (table.edited edit).entries.contains name = true := by
  have stored {entry : Entry α} {after : SymbolTable α} (stores : table.Stores entry after) :
      after.entries.contains name = true := by
    rw [stores.entries, Dict.contains_insert]
    exact .inr registered
  cases edit with
  | register other value reg =>
      show (table.register other value reg).entries.contains name = true
      rw [← isSome_declared?, consistent.declared?_register]
      split
      · rfl
      · rwa [isSome_declared?]
  | registerAlias aliasName target =>
      simp only [SymbolTable.edited]
      split
      · next accepted =>
          rwa [← isSome_declared?, consistent.declared?_registerAlias accepted, isSome_declared?]
      · exact registered
  | modifyValue other f =>
      show (table.modifyValue other f).entries.contains name = true
      obtain same | ⟨entry, -, stores⟩ := consistent.modifyValue_stores other f
      · rwa [same]
      · exact stored stores
  | updateMetadata other reg =>
      show (table.updateMetadata other reg).2.entries.contains name = true
      obtain same | ⟨entry, -, stores⟩ := consistent.updateMetadata_stores other reg
      · rwa [same]
      · exact stored stores
  | delete other =>
      have different : name ≠ other := fun same => kept (same ▸ rfl)
      show ((table.delete other).2.entries.get? name).isSome = true
      rwa [consistent.get?_entries_delete, if_neg different, Option.isSome_map]
  | clear => exact absurd rfl uncleared

end SymbolTable

namespace FunctionTable

variable {functions : FunctionTable} {f : String}

/-- The tags that are kept under a name. -/
def ownTags (functions : FunctionTable) (name : String) : List Effect :=
  (functions.tags.get? name).getD []

/-- An edit, and the table that it edits. -/
structure Moment where
  functions : FunctionTable
  edit : Edit

/-- The edit gives `tag` to `f`, which it may name by an alias. -/
def Gives (f : String) (tag : Effect) : Moment → Prop
  | ⟨functions, .addEffect name added⟩ =>
    functions.table.canonicalName? name = some f ∧ tag = added
  | ⟨functions, .replaceEffects name tags⟩ =>
    functions.table.canonicalName? name = some f ∧ tag ∈ tags
  | _ => False

/-- The edit replaces the tags of `f`, which it may name by an alias. -/
def Replaces (f : String) : Moment → Prop
  | ⟨functions, .replaceEffects name _⟩ => functions.table.canonicalName? name = some f
  | _ => False

/-- The edit makes `f` the name of a function, which it was not. -/
def Creates (f : String) (moment : Moment) : Prop :=
  moment.functions.table.entries.contains f = false ∧
    (moment.functions.edited moment.edit).table.entries.contains f = true

/-! ### One edit -/

theorem contains_after_delete (consistent : functions.table.Consistent) (name : String) :
    (functions.edited (.delete name)).table.entries.contains name = false := by
  show ((functions.table.delete name).2.entries.get? name).isSome = false
  rw [consistent.get?_entries_delete, if_pos rfl, Option.isSome_none]

theorem contains_after_register (consistent : functions.table.Consistent) (sig : Signature)
    (reg : Registration) :
    (functions.edited (.register sig reg)).table.entries.contains sig.name = true := by
  show ((functions.table.register sig.name sig reg).entries.get? sig.name).isSome = true
  rw [consistent.get?_entries_register, if_pos rfl, Option.isSome_some]

/-- What an edit does to the tags of a function that is there after it. -/
theorem mem_ownTags_edited (consistent : functions.table.Consistent) {edit : Edit}
    (registered : (functions.edited edit).table.entries.contains f = true) (tag : Effect) :
    tag ∈ (functions.edited edit).ownTags f ↔
      Gives f tag ⟨functions, edit⟩ ∨
        tag ∈ functions.ownTags f ∧ ¬ Replaces f ⟨functions, edit⟩ := by
  cases edit with
  | register sig reg => simp [edited, register, ownTags, Gives, Replaces]
  | registerAlias aliasName target =>
      simp only [edited, registerAlias, Gives, Replaces]
      cases functions.table.registerAlias aliasName target with
      | ok after => simp [Except.map, ownTags]
      | error reason => simp [Except.map]
  | updateMetadata name reg => simp [edited, updateMetadata, ownTags, Gives, Replaces]
  | delete name =>
      have different : f ≠ name := by
        rintro rfl
        rw [contains_after_delete consistent] at registered
        cases registered
      have kept : (functions.delete name).2.tags.get? f = functions.tags.get? f := by
        simp only [delete]
        split
        · rfl
        · rw [Dict.get?_erase, if_neg different]
      simp [edited, ownTags, kept, Gives, Replaces]
  | clear => cases registered
  | addEffect name added =>
      simp only [edited, addEffect, Gives, Replaces]
      cases functions.table.canonicalName? name with
      | none => simp
      | some canonical =>
          by_cases same : f = canonical
          · subst same
            simp [ownTags, Effect.mem_insert]
          · simp [ownTags, Dict.get?_insert, same, Ne.symm same]
  | replaceEffects name tags =>
      simp only [edited, replaceEffects, Gives, Replaces]
      cases functions.table.canonicalName? name with
      | none => simp
      | some canonical =>
          by_cases same : f = canonical
          · subst same
            simp [ownTags, Effect.mem_ascending]
          · simp [ownTags, Dict.get?_insert, same, Ne.symm same]

/-- Tags are kept for registered names only, and in ascending order. -/
structure Tagged (functions : FunctionTable) : Prop where
  owned : ∀ {name}, functions.tags.contains name = true →
    functions.table.entries.contains name = true
  ascending : ∀ {name tags}, functions.tags.get? name = some tags →
    tags.Pairwise fun a b => a.rank < b.rank

namespace Tagged

theorem empty : Tagged ∅ where
  owned := by rintro _ ⟨⟩
  ascending := by rintro _ _ ⟨⟩

theorem pairwise_ownTags (tagged : functions.Tagged) (name : String) :
    (functions.ownTags name).Pairwise fun a b => a.rank < b.rank := by
  unfold ownTags
  cases held : functions.tags.get? name with
  | none => exact .nil
  | some tags => exact tagged.ascending held

theorem ownTags_of_unregistered (tagged : functions.Tagged)
    (unregistered : functions.table.entries.contains f = false) : functions.ownTags f = [] := by
  unfold ownTags
  cases held : functions.tags.get? f with
  | none => rfl
  | some tags =>
      have registered := tagged.owned (Dict.contains_iff.mpr ⟨tags, held⟩)
      rw [unregistered] at registered
      cases registered

/-- New tags for a registered name. -/
theorem retag (tagged : functions.Tagged) {canonical : String} {tags : List Effect}
    (registered : functions.table.entries.contains canonical = true)
    (ascending : tags.Pairwise fun a b => a.rank < b.rank) :
    Tagged { functions with tags := functions.tags.insert canonical tags } where
  owned held := by
    rcases Dict.contains_insert.mp held with rfl | held
    · exact registered
    · exact tagged.owned held
  ascending held := by
    rw [Dict.get?_insert] at held
    split at held
    · cases held
      exact ascending
    · exact tagged.ascending held

/-- An edit of the symbol table after which the names that have tags are still registered. -/
theorem of_table (tagged : functions.Tagged) {table : SymbolTable Signature}
    {tags : Dict (List Effect)} (fewer : ∀ {name held}, tags.get? name = some held →
      functions.tags.get? name = some held ∧ table.entries.contains name = true) :
    Tagged { table, tags } where
  owned held := by
    obtain ⟨held, stored⟩ := Dict.contains_iff.mp held
    exact (fewer stored).2
  ascending stored := tagged.ascending (fewer stored).1

/-- Every edit keeps the tags in step with the symbol table. -/
theorem edited (tagged : functions.Tagged) (consistent : functions.table.Consistent)
    (edit : Edit) : (functions.edited edit).Tagged := by
  -- Edits that neither delete nor clear keep every name that has tags.
  have kept {inner : SymbolTable.Edit Signature} (remains : ∀ name, inner ≠ .delete name)
      (uncleared : inner ≠ .clear) :
      Tagged { table := functions.table.edited inner, tags := functions.tags } :=
    tagged.of_table fun {name held} stored => ⟨stored, consistent.contains_edited
      (tagged.owned (Dict.contains_iff.mpr ⟨held, stored⟩)) (remains name) uncleared⟩
  cases edit with
  | register sig reg => exact @kept (.register sig.name sig reg) (by simp) (by simp)
  | registerAlias aliasName target =>
      have kept := @kept (.registerAlias aliasName target) (by simp) (by simp)
      simp only [FunctionTable.edited, registerAlias, SymbolTable.edited] at kept ⊢
      cases accepted : functions.table.registerAlias aliasName target with
      | ok after =>
          rw [accepted] at kept
          exact kept
      | error reason => exact tagged
  | updateMetadata name reg => exact @kept (.updateMetadata name reg) (by simp) (by simp)
  | delete name =>
      refine tagged.of_table fun {other held} stored => ?_
      -- An alias has no tags of its own, and those of a function are erased with it.
      have before : functions.tags.get? other = some held ∧ other ≠ name := by
        split at stored
        · next used =>
            refine ⟨stored, ?_⟩
            rintro rfl
            obtain ⟨target, used⟩ := Dict.contains_iff.mp used
            have registered := tagged.owned (Dict.contains_iff.mpr ⟨held, stored⟩)
            simp [Dict.contains, consistent.free used] at registered
        · rw [Dict.get?_erase] at stored
          exact (Option.ite_none_left_eq_some.mp stored).symm
      have registered := tagged.owned (Dict.contains_iff.mpr ⟨held, before.1⟩)
      exact ⟨before.1, @SymbolTable.Consistent.contains_edited _ _ consistent (.delete name) other
        registered (fun same => before.2 (SymbolTable.Edit.delete.inj same).symm) (by simp)⟩
  | clear => exact .empty
  | addEffect name tag =>
      simp only [FunctionTable.edited, addEffect]
      split
      · exact tagged
      · next canonical resolved =>
          refine tagged.retag ?_ (Effect.pairwise_insert tag (tagged.pairwise_ownTags canonical))
          exact Dict.contains_iff.mpr (consistent.registered_of_canonicalName? resolved)
  | replaceEffects name tags =>
      simp only [FunctionTable.edited, replaceEffects]
      split
      · exact tagged
      · next canonical resolved =>
          refine tagged.retag ?_ (Effect.pairwise_ascending tags)
          exact Dict.contains_iff.mpr (consistent.registered_of_canonicalName? resolved)

end Tagged

theorem registered_of_gives (consistent : functions.table.Consistent) {tag : Effect} {edit : Edit}
    (gives : Gives f tag ⟨functions, edit⟩) : functions.table.entries.contains f = true := by
  cases edit with
  | addEffect name added =>
      exact Dict.contains_iff.mpr (consistent.registered_of_canonicalName? gives.1)
  | replaceEffects name tags =>
      exact Dict.contains_iff.mpr (consistent.registered_of_canonicalName? gives.1)
  | _ => exact gives.elim

/-- A function that is created has no tags, whatever its name stood for before. -/
theorem ownTags_of_creates (tagged : functions.Tagged) (consistent : functions.table.Consistent)
    {edit : Edit} (creates : Creates f ⟨functions, edit⟩) :
    (functions.edited edit).ownTags f = [] := by
  refine List.eq_nil_iff_forall_not_mem.mpr fun tag member => ?_
  rcases (mem_ownTags_edited consistent creates.2 tag).mp member with gives | ⟨kept, -⟩
  · have registered := registered_of_gives consistent gives
    rw [creates.1] at registered
    cases registered
  · rw [tagged.ownTags_of_unregistered creates.1] at kept
    cases kept

/-! ### Tags by name -/

theorem effects_of_registered (registered : functions.table.entries.contains f = true) :
    functions.effects f = functions.ownTags f := by
  rw [effects, SymbolTable.canonicalName?_of_registered registered, Option.bind_some, ownTags]

theorem effects_of_alias (consistent : functions.table.Consistent) {aliasName target : String}
    (used : functions.table.aliases.get? aliasName = some target) :
    functions.effects aliasName = functions.effects target := by
  obtain ⟨entry, held, -⟩ := consistent.listed.mp used
  have registered := Dict.contains_iff.mpr ⟨entry, held⟩
  rw [effects, effects, SymbolTable.canonicalName?_of_registered registered,
    SymbolTable.canonicalName?_of_unregistered (consistent.free used), used]

theorem pairwise_effects (tagged : functions.Tagged) (name : String) :
    (functions.effects name).Pairwise fun a b => a.rank < b.rank := by
  unfold effects
  cases functions.table.canonicalName? name with
  | none => exact .nil
  | some canonical => exact tagged.pairwise_ownTags canonical

/-- Deleting an alias changes the tags of no other name. -/
theorem effects_delete_alias (consistent : functions.table.Consistent) {aliasName name : String}
    (used : functions.table.isAlias aliasName = true) (different : name ≠ aliasName) :
    (functions.edited (.delete aliasName)).effects name = functions.effects name := by
  have tags : (functions.edited (.delete aliasName)).tags = functions.tags := if_pos used
  have resolves : (functions.edited (.delete aliasName)).table.canonicalName? name =
      functions.table.canonicalName? name :=
    (consistent.canonicalName?_delete_alias used name).trans (if_neg different)
  rw [effects, effects, tags, resolves]

/-! ### Many edits -/

/-- The edits of a sequence, each with the table that it edits. -/
def history (functions : FunctionTable) : List Edit → List Moment
  | [] => []
  | edit :: rest => ⟨functions, edit⟩ :: (functions.edited edit).history rest

theorem history_concat (functions : FunctionTable) (edits : List Edit) (edit : Edit) :
    functions.history (edits ++ [edit]) =
      functions.history edits ++ [⟨edits.foldl edited functions, edit⟩] := by
  induction edits generalizing functions with
  | nil => rfl
  | cons first rest ih => exact congrArg (_ :: ·) (ih (functions.edited first))

/-- At `birth` the function was created, and it was not created anew since. -/
def Born (edits : List Edit) (birth : Nat) (f : String) : Prop :=
  Standing (history ∅ edits) birth (Creates f) (Creates f)

/-- At some time after `birth` the tag was given to `f`, and the tags of `f` were not replaced
since. -/
def GivenSince (edits : List Edit) (birth : Nat) (f : String) (tag : Effect) : Prop :=
  ∃ time, birth < time ∧ Standing (history ∅ edits) time (Gives f tag) (Replaces f)

theorem givenSince_concat {edits : List Edit} {edit : Edit} {birth : Nat} {tag : Effect}
    (born : Born edits birth f) : GivenSince (edits ++ [edit]) birth f tag ↔
      Gives f tag ⟨built edits, edit⟩ ∨
        GivenSince edits birth f tag ∧ ¬ Replaces f ⟨built edits, edit⟩ := by
  simp only [GivenSince, history_concat, standing_concat]
  constructor
  · rintro ⟨time, after, ⟨given, kept⟩ | ⟨-, given⟩⟩
    · exact .inr ⟨⟨time, after, given⟩, kept⟩
    · exact .inl given
  · rintro (given | ⟨⟨time, after, given⟩, kept⟩)
    · exact ⟨_, born.lt_length, .inr ⟨rfl, given⟩⟩
    · exact ⟨time, after, .inl ⟨given, kept⟩⟩

theorem tagged_built (edits : List Edit) : (built edits).Tagged := by
  induction edits using List.reverseRecOn with
  | nil => exact .empty
  | append_singleton edits edit ih =>
      rw [built_concat]
      exact ih.edited (reachable_table_built edits).consistent edit

/-- A function has the tags that were given to it since it was last created and that were not
replaced since. -/
theorem mem_ownTags_built (edits : List Edit)
    (registered : (built edits).table.entries.contains f = true) :
    ∃ birth, Born edits birth f ∧
      ∀ tag, tag ∈ (built edits).ownTags f ↔ GivenSince edits birth f tag := by
  induction edits using List.reverseRecOn with
  | nil => cases registered
  | append_singleton edits edit ih =>
      have consistent := (reachable_table_built edits).consistent
      rw [built_concat] at registered ⊢
      cases old : (built edits).table.entries.contains f with
      | true =>
          obtain ⟨birth, born, tags⟩ := ih old
          refine ⟨birth, ?_, fun tag => ?_⟩
          · rw [Born, history_concat, standing_concat]
            refine .inl ⟨born, fun creates => ?_⟩
            cases creates.1.symm.trans old
          · rw [mem_ownTags_edited consistent registered, tags, givenSince_concat born]
      | false =>
          have creates : Creates f ⟨built edits, edit⟩ := ⟨old, registered⟩
          refine ⟨(history ∅ edits).length, ?_, fun tag => ?_⟩
          · rw [Born, history_concat, standing_concat]
            exact .inr ⟨rfl, creates⟩
          · rw [ownTags_of_creates (tagged_built edits) consistent creates]
            refine iff_of_false List.not_mem_nil ?_
            rintro ⟨time, after, given⟩
            have := given.lt_length
            rw [history_concat, List.length_append, List.length_singleton] at this
            omega

/-- In every table of functions that edits build, the tags of a name are in ascending order,
tags are kept for registered names only, an alias has the tags of what it stands for, and a
name that stands for nothing has none. A function has a tag exactly if the tag was added or
set after the function was last created, and the tags were not replaced since. So a function
that is deleted and registered again starts without tags, and deleting an alias leaves the
function its tags. -/
theorem tags_follow_functions (edits : List Edit) :
    let functions := built edits
    (∀ name, (functions.effects name).Pairwise fun a b => a.rank < b.rank) ∧
    (∀ name, functions.tags.contains name = true →
      functions.table.entries.contains name = true) ∧
    (∀ aliasName target, functions.table.aliases.get? aliasName = some target →
      functions.effects aliasName = functions.effects target) ∧
    (∀ name, functions.contains name = false → functions.effects name = []) ∧
    (∀ f, functions.table.entries.contains f = true →
      ∃ birth, Born edits birth f ∧
        ∀ tag, tag ∈ functions.effects f ↔ GivenSince edits birth f tag) ∧
    (∀ sig reg, (built (edits ++ [.delete sig.name, .register sig reg])).effects sig.name = []) ∧
    (∀ aliasName target, functions.table.aliases.get? aliasName = some target →
      (built (edits ++ [.delete aliasName])).effects target = functions.effects target) := by
  intro functions
  have tagged : functions.Tagged := tagged_built edits
  have consistent : functions.table.Consistent := (reachable_table_built edits).consistent
  refine ⟨pairwise_effects tagged, fun name => tagged.owned, fun _ _ => effects_of_alias consistent,
    ?_, ?_, ?_, ?_⟩
  · intro name unknown
    have unresolved := Option.isSome_eq_false_iff.mp unknown
    rw [effects, Option.isNone_iff_eq_none.mp unresolved]
    rfl
  · intro f registered
    rw [effects_of_registered registered]
    exact mem_ownTags_built edits registered
  · intro sig reg
    rw [List.append_cons, built_concat]
    have consistent' := (reachable_table_built (edits ++ [.delete sig.name])).consistent
    have gone : (built (edits ++ [.delete sig.name])).table.entries.contains sig.name = false :=
      built_concat edits _ ▸ contains_after_delete consistent sig.name
    have back := contains_after_register consistent' sig reg
    rw [effects_of_registered back, ownTags_of_creates (tagged_built _) consistent' ⟨gone, back⟩]
  · intro aliasName target used
    obtain ⟨entry, held, -⟩ := consistent.listed.mp used
    rw [built_concat]
    refine effects_delete_alias consistent (Dict.contains_iff.mpr ⟨target, used⟩) ?_
    rintro rfl
    rw [consistent.free used] at held
    cases held

/-- `plus` is an alias of `add` first and a function of its own later, and `add` is deleted and
registered again: of all the tags that were given to `add` by one name or another, the one that
is given in its second life is left. -/
theorem tags_follow_functions_reborn :
    let sig (name : String) : Signature := { name, params := [], result := .i32, typeParams := [] }
    let edits : List Edit :=
      [.register (sig "add") {}, .registerAlias "plus" "add", .addEffect "plus" .noexcept,
        .replaceEffects "add" [.constexpr, .pure, .pure], .register (sig "plus") {},
        .addEffect "plus" .pure, .delete "add", .register (sig "add") {},
        .registerAlias "sum" "add", .addEffect "sum" .noexcept]
    (built edits).tags.contains "plus" = true ∧ (built edits).table.entries.contains "plus" = true ∧
      (built edits).table.aliases.get? "sum" = some "add" ∧
      (built edits).effects "sum" = (built edits).effects "add" ∧
      (built (edits ++ [.delete "sum"])).effects "add" = (built edits).effects "add" ∧
      (built edits).contains "minus" = false ∧ (built edits).effects "minus" = [] ∧
      (built edits).table.entries.contains "add" = true ∧
      (built edits).effects "add" = [.noexcept] ∧
      ∃ birth, Born edits birth "add" ∧
        GivenSince edits birth "add" .noexcept ∧ ¬ GivenSince edits birth "add" .pure := by
  intro sig edits
  obtain ⟨-, owned, aliased, unknown, since, -, unaliased⟩ := tags_follow_functions edits
  have tagged : (built edits).tags.contains "plus" = true := by decide +kernel
  have used : (built edits).table.aliases.get? "sum" = some "add" := by decide +kernel
  have absent : (built edits).contains "minus" = false := by decide +kernel
  have registered : (built edits).table.entries.contains "add" = true := by decide +kernel
  have left : (built edits).effects "add" = [.noexcept] := by decide +kernel
  obtain ⟨birth, born, tags⟩ := since "add" registered
  refine ⟨tagged, owned "plus" tagged, used, aliased "sum" "add" used, unaliased "sum" "add" used,
    absent, unknown "minus" absent, registered, left, birth, born, ?_, ?_⟩
  · rw [← tags, left]
    decide
  · rw [← tags, left]
    decide

end FunctionTable

end ModuleTyping
