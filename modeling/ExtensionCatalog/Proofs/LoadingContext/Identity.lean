/-
**A type has one identity along a chain.**

A context reads from its parent's sources before its own, so what an ancestor finds or fails on is
what every context below it finds or fails on. Only what no ancestor holds is looked for further
down.

* `firstResource_append`: sources in a row, the step of every induction here;
* `load_eq_of_mem_ancestry`: **a context takes over every result of an ancestor** but a missing
  class;
* `exists_defining`: the defining level holds the class, and no level above it does;
* `load_single_identity`: both, with the view from the levels that define other classes.
-/

import ExtensionCatalog.LoadingContext.Load
import ExtensionCatalog.Proofs.Outcome

namespace ExtensionCatalog

/-- Whether a level has the class file of a name: one of its entries yields a content for it. -/
def Level.Holds (tree : FileTree) (level : Level) (name : String) : Prop :=
  ∃ entry ∈ level.entries, ∃ content,
    (entry.read tree (ClassName.resourceName name)).outcome = .ok (some content)

namespace LoadingContext

/-! ### Sources in a row -/

section Sources

variable {tree : FileTree} {name : String}

theorem outcome_readSource (source : Source) :
    (readSource tree name source).outcome =
      (source.entry.read tree name).outcome.map (·.map fun content => ⟨source, content⟩) := by
  rw [readSource, Logged.outcome_bind]
  cases (source.entry.read tree name).outcome <;> rfl

/-- Later sources are read only if the earlier ones have nothing. -/
theorem firstResource_append (first second : List Source) :
    firstResource tree name (first ++ second) = (do
      match ← firstResource tree name first with
      | some resource => return some resource
      | none => firstResource tree name second) := by
  induction first with
  | nil => simp [firstResource]
  | cons source first hypothesis =>
    rw [List.cons_append, firstResource, firstResource, bind_assoc, hypothesis]
    refine bind_congr fun found => ?_
    cases found <;> simp

theorem outcome_firstResource_cons (source : Source) (rest : List Source) :
    (firstResource tree name (source :: rest)).outcome =
      match (source.entry.read tree name).outcome with
      | .error error => .error error
      | .ok (some content) => .ok (some ⟨source, content⟩)
      | .ok none => (firstResource tree name rest).outcome := by
  rw [firstResource, Logged.outcome_bind, outcome_readSource]
  rcases (source.entry.read tree name).outcome with error | (_ | content) <;> rfl

/-- Nothing is found exactly if every source has nothing. -/
theorem firstResource_eq_none_iff {sources : List Source} :
    (firstResource tree name sources).outcome = .ok none ↔
      ∀ source ∈ sources, (source.entry.read tree name).outcome = .ok none := by
  induction sources with
  | nil => simp [firstResource]
  | cons source rest hypothesis =>
    rw [outcome_firstResource_cons, List.forall_mem_cons, ← hypothesis]
    rcases (source.entry.read tree name).outcome with error | (_ | content) <;> simp

/-- What is found comes from one of the sources. -/
theorem read_of_firstResource {sources : List Source} {resource : Resource}
    (found : (firstResource tree name sources).outcome = .ok (some resource)) :
    resource.source ∈ sources ∧
      (resource.source.entry.read tree name).outcome = .ok (some resource.content) := by
  induction sources with
  | nil => simp [firstResource] at found
  | cons source rest hypothesis =>
    rw [outcome_firstResource_cons] at found
    split at found
    · cases found
    · next content read =>
      cases found
      exact ⟨.head _, read⟩
    · obtain ⟨member, read⟩ := hypothesis found
      exact ⟨.tail _ member, read⟩

end Sources

/-! ### Ancestors -/

theorem mem_ancestry_self (context : LoadingContext) : context ∈ context.ancestry := by
  cases context <;> simp [ancestry]

/-- The sources of an ancestor come first. -/
theorem sources_prefix_of_mem_ancestry {context ancestor : LoadingContext}
    (above : ancestor ∈ context.ancestry) : ancestor.sources <+: context.sources := by
  induction context with
  | root level =>
    cases List.mem_singleton.mp above
    exact List.prefix_rfl
  | child parent level hypothesis =>
    rcases List.mem_cons.mp above with rfl | further
    · exact List.prefix_rfl
    · rw [sources_child]
      exact (hypothesis further).trans (List.prefix_append _ _)

theorem mem_sources {context : LoadingContext} {source : Source} :
    source ∈ context.sources ↔ ∃ ancestor ∈ context.ancestry,
      source.level = ancestor.level.id ∧ source.entry ∈ ancestor.level.entries := by
  simp only [sources, levels, List.mem_flatMap, List.mem_reverse, List.mem_map, Level.sources]
  constructor
  · rintro ⟨_, ⟨ancestor, above, rfl⟩, entry, member, rfl⟩
    exact ⟨ancestor, above, rfl, member⟩
  · rintro ⟨ancestor, above, same, member⟩
    exact ⟨_, ⟨ancestor, above, rfl⟩, source.entry, member, by rw [← same]⟩

theorem not_holds_of_firstResource_eq_none {tree : FileTree} {context ancestor : LoadingContext}
    {name : String} (above : ancestor ∈ context.ancestry)
    (nothing : (firstResource tree (ClassName.resourceName name) context.sources).outcome =
      .ok none) : ¬ ancestor.level.Holds tree name := by
  rintro ⟨entry, member, content, read⟩
  have source : (⟨ancestor.level.id, entry⟩ : Source) ∈ context.sources :=
    mem_sources.mpr ⟨ancestor, above, rfl, member⟩
  have empty := firstResource_eq_none_iff.mp nothing _ source
  rw [read] at empty
  cases empty

section Load

variable {tree : FileTree} {context ancestor : LoadingContext} {name : String}

theorem load_eq_bind (context : LoadingContext) (tree : FileTree) (name : String) :
    context.load tree name =
      firstResource tree (ClassName.resourceName name) context.sources >>= fun
        | none => .fail (.classNotFound name)
        | some resource => define name resource := rfl

/-- **A context takes over every result of an ancestor**, log included, unless that found no
class. -/
theorem load_eq_of_mem_ancestry (above : ancestor ∈ context.ancestry)
    (decided : (ancestor.load tree name).outcome ≠ .error (.classNotFound name)) :
    context.load tree name = ancestor.load tree name := by
  obtain ⟨further, whole⟩ := sources_prefix_of_mem_ancestry above
  rw [load_eq_bind, load_eq_bind, ← whole, firstResource_append, bind_assoc]
  rw [load_eq_bind, Logged.outcome_bind] at decided
  generalize firstResource tree (ClassName.resourceName name) ancestor.sources = first
    at decided ⊢
  obtain ⟨log, error | (_ | resource)⟩ := first
  · rfl
  · exact absurd rfl decided
  · rfl

/-- Seen from an ancestor, a class is what the context itself sees, or it is missing. -/
theorem load_of_mem_ancestry (above : ancestor ∈ context.ancestry) :
    (ancestor.load tree name).outcome = (context.load tree name).outcome ∨
      (ancestor.load tree name).outcome = .error (.classNotFound name) := by
  by_cases missing : (ancestor.load tree name).outcome = .error (.classNotFound name)
  · exact .inr missing
  · rw [load_eq_of_mem_ancestry above missing]
    exact .inl rfl

theorem define_eq_ok_iff {resource : Resource} {loaded : LoadedClass} :
    define name resource = .ok loaded ↔
      ClassFile.parse resource.content = .ok loaded.file ∧ loaded.name = name ∧
        loaded.definedBy = resource.source.level := by
  obtain ⟨level, file⟩ := loaded
  unfold define ClassFile.parseFrom LoadedClass.name
  cases read : ClassFile.parse resource.content with
  | error fault => exact iff_of_false (fun equal => by cases equal) (fun all => by cases all.1)
  | ok parsed =>
    show (if parsed.name = name then _ else _) = _ ↔ _
    by_cases named : parsed.name = name
    · rw [if_pos named]
      constructor
      · rintro ⟨⟩
        exact ⟨rfl, named, rfl⟩
      · rintro ⟨equal, -, rfl⟩
        cases equal
        rfl
    · rw [if_neg named]
      refine iff_of_false (fun equal => by cases equal) ?_
      rintro ⟨equal, same, -⟩
      cases equal
      exact named same

/-- A loaded class has the name that was asked for, and it comes from the first source that has
anything. -/
theorem load_eq_ok_iff {loaded : LoadedClass} :
    (context.load tree name).outcome = .ok loaded ↔ ∃ resource,
      (firstResource tree (ClassName.resourceName name) context.sources).outcome =
        .ok (some resource) ∧ define name resource = .ok loaded := by
  rw [load_eq_bind, Logged.outcome_bind, Outcome.bind_eq_ok_iff]
  constructor
  · rintro ⟨_ | resource, found, defined⟩
    · cases defined
    · exact ⟨resource, found, defined⟩
  · rintro ⟨resource, found, defined⟩
    exact ⟨some resource, found, defined⟩

/-- **The defining level is the outermost one that holds the class.** -/
theorem exists_defining {loaded : LoadedClass}
    (found : (context.load tree name).outcome = .ok loaded) :
    ∃ defining ∈ context.ancestry, defining.level.id = loaded.definedBy ∧
      defining.level.Holds tree name ∧
      ∀ outer ∈ defining.ancestry.tail, ¬ outer.level.Holds tree name := by
  obtain ⟨resource, first, defined⟩ := load_eq_ok_iff.mp found
  obtain ⟨-, -, same⟩ := define_eq_ok_iff.mp defined
  rw [same]
  clear found defined same
  induction context with
  | root level =>
    obtain ⟨member, read⟩ := read_of_firstResource first
    obtain ⟨defining, above, same, entry⟩ := mem_sources.mp member
    cases List.mem_singleton.mp above
    exact ⟨_, above, same.symm, ⟨_, entry, _, read⟩, fun outer further => nomatch further⟩
  | child parent level hypothesis =>
    rw [sources_child, firstResource_append, Logged.outcome_bind] at first
    obtain ⟨_ | outer, found, rest⟩ := Outcome.bind_eq_ok_iff.mp first
    · -- Nothing above holds the class, so this level defines it.
      obtain ⟨member, read⟩ := read_of_firstResource rest
      obtain ⟨entry, inside, equal⟩ := List.mem_map.mp member
      rw [← equal] at read ⊢
      exact ⟨_, mem_ancestry_self _, rfl, ⟨entry, inside, _, read⟩,
        fun outer above => not_holds_of_firstResource_eq_none above found⟩
    · cases rest
      obtain ⟨defining, above, facts⟩ := hypothesis found
      exact ⟨defining, .tail _ above, facts⟩

end Load

/-! ### Identities -/

theorem at?_of_mem_ancestry {context ancestor : LoadingContext}
    (distinct : (context.levels.map (·.id)).Nodup) (above : ancestor ∈ context.ancestry) :
    context.at? ancestor.level.id = some ancestor := by
  induction context with
  | root level =>
    cases List.mem_singleton.mp above
    simp [at?, ancestry]
  | child parent level hypothesis =>
    rw [levels_child, List.map_cons, List.nodup_cons] at distinct
    rcases List.mem_cons.mp above with rfl | further
    · simp [at?, ancestry]
    · have apart : (child parent level).level.id ≠ ancestor.level.id := fun same =>
        distinct.1 (List.mem_map.mpr ⟨_, List.mem_map.mpr ⟨ancestor, further, rfl⟩, same.symm⟩)
      have inside := hypothesis distinct.2 further
      rw [at?, ancestry, List.find?_cons_of_neg (by simpa using apart)]
      exact inside

/-- A level is asked through a context of the chain. -/
theorem exists_loadFrom (context : LoadingContext) (tree : FileTree) (level : LevelId)
    (name : String) :
    ∃ ancestor ∈ context.ancestry, context.loadFrom tree level name = ancestor.load tree name := by
  rw [loadFrom]
  cases found : context.at? level with
  | none => exact ⟨context, mem_ancestry_self context, rfl⟩
  | some ancestor => exact ⟨ancestor, List.mem_of_find?_eq_some found, rfl⟩

/-- **A type has one identity along a chain.** Along a chain of levels with distinct identities:
what an ancestor finds, a context finds, with the same defining level, and an error of an ancestor
other than a missing class is an error of the context; the defining level of a class is the
outermost one that holds it, and the class has the name that was asked for; and the level that
defines a class sees, under any name, what the context sees, or nothing. -/
theorem load_single_identity (tree : FileTree) (context : LoadingContext)
    (distinct : (context.levels.map (·.id)).Nodup) (name : String) :
    (∀ ancestor ∈ context.ancestry,
      (∀ loaded, (ancestor.load tree name).outcome = .ok loaded →
        (context.load tree name).outcome = .ok loaded) ∧
      ∀ error, (∀ missing, error ≠ .classNotFound missing) →
        (ancestor.load tree name).outcome = .error error →
        (context.load tree name).outcome = .error error) ∧
    (∀ loaded, (context.load tree name).outcome = .ok loaded →
      loaded.name = name ∧ ∃ defining ∈ context.ancestry,
        context.at? loaded.definedBy = some defining ∧ defining.level.id = loaded.definedBy ∧
        defining.level.Holds tree name ∧
        ∀ outer ∈ defining.ancestry.tail, ¬ outer.level.Holds tree name) ∧
    ∀ requester : LoadedClass,
      (context.loadFrom tree requester.definedBy name).outcome =
          (context.load tree name).outcome ∨
        (context.loadFrom tree requester.definedBy name).outcome =
          .error (.classNotFound name) := by
  refine ⟨fun ancestor above => ⟨fun loaded found => ?_, fun error other failed => ?_⟩,
    fun loaded found => ?_, fun requester => ?_⟩
  · rw [load_eq_of_mem_ancestry above (by simp [found]), found]
  · have decided : (ancestor.load tree name).outcome ≠ .error (.classNotFound name) := by
      rw [failed]
      exact fun equal => other name (Except.error.inj equal)
    rw [load_eq_of_mem_ancestry above decided, failed]
  · obtain ⟨resource, -, defined⟩ := load_eq_ok_iff.mp found
    obtain ⟨-, named, -⟩ := define_eq_ok_iff.mp defined
    obtain ⟨defining, above, same, holds, first⟩ := exists_defining found
    exact ⟨named, defining, above, same ▸ at?_of_mem_ancestry distinct above, same, holds, first⟩
  · obtain ⟨ancestor, above, equal⟩ := exists_loadFrom context tree requester.definedBy name
    rw [equal]
    exact load_of_mem_ancestry above

/-- The class file of a class without supertypes whose name is one letter. -/
def letterClass (letter : UInt8) : Bytes :=
  [0xCA, 0xFE, 0xBA, 0xBE, 0, 0, 0, 52, 0, 3, 1, 0, 1, letter, 7, 0, 1, 0, 1, 0, 2] ++
    List.replicate 10 0

/-- Two directories that both hold a class `A`; the inner one holds a class `B` too. -/
def twoDirectories : FileTree where
  entries := .ofList [(["outer"], .directory), (["outer", "A.class"], .file (letterClass 65)),
    (["inner"], .directory), (["inner", "A.class"], .file (letterClass 65)),
    (["inner", "B.class"], .file (letterClass 66))]
  workingDirectory := []

/-- A level above another one; the file of its second entry is gone. -/
def outerContext : LoadingContext :=
  .root ⟨⟨0, 0⟩, none, ∅, [.directory ⟨"/outer"⟩, .archive ⟨"/gone"⟩]⟩

/-- The level below it. -/
def innerContext : LoadingContext :=
  .child outerContext ⟨⟨0, 1⟩, none, ∅, [.directory ⟨"/inner"⟩]⟩

/-- The class that both levels hold has its identity from the outer one, and the error on the way to
the class that the inner level holds is the error of both. -/
theorem load_single_identity_twoDirectories :
    (innerContext.levels.map (·.id)).Nodup ∧
      (∃ loaded, (outerContext.load twoDirectories "A").outcome = .ok loaded ∧
        (innerContext.load twoDirectories "A").outcome = .ok loaded ∧
        loaded.name = "A" ∧ loaded.definedBy = ⟨0, 0⟩ ∧
        ∃ defining ∈ innerContext.ancestry,
          innerContext.at? loaded.definedBy = some defining ∧
          defining.level.id = loaded.definedBy ∧
          defining.level.Holds twoDirectories "A" ∧
          ∀ outer ∈ defining.ancestry.tail, ¬ outer.level.Holds twoDirectories "A") ∧
      (outerContext.load twoDirectories "B").outcome = .error .file ∧
      (innerContext.load twoDirectories "B").outcome = .error .file := by
  have distinct : (innerContext.levels.map (·.id)).Nodup := by decide
  have above : outerContext ∈ innerContext.ancestry :=
    List.mem_cons_of_mem _ (List.mem_singleton_self _)
  have known : (outerContext.load twoDirectories "A").outcome.toOption.map (·.definedBy) =
      some ⟨0, 0⟩ := by
    decide +kernel
  obtain ⟨loaded, found, place⟩ := Option.map_eq_some_iff.mp known
  have found : (outerContext.load twoDirectories "A").outcome = .ok loaded := by
    cases outcome : (outerContext.load twoDirectories "A").outcome <;>
      simp_all [Except.toOption]
  have failed : (outerContext.load twoDirectories "B").outcome = .error .file := by
    have nothing : twoDirectories.read? (ClassPathEntry.below ⟨"/outer"⟩
        (ClassName.resourceName "B")) = none := by
      decide +kernel
    have gone : twoDirectories.entry? ⟨"/gone"⟩ = none := by decide +kernel
    rw [load_eq_bind, Logged.outcome_bind]
    simp only [outerContext, sources_root, Level.sources, List.map_cons, List.map_nil,
      outcome_firstResource_cons, ClassPathEntry.read, nothing, gone]
    rfl
  obtain ⟨shared, defined, -⟩ := load_single_identity twoDirectories innerContext distinct "A"
  have below := (shared outerContext above).1 loaded found
  obtain ⟨named, defining⟩ := defined loaded below
  have carried := ((load_single_identity twoDirectories innerContext distinct "B").1
    outerContext above).2 .file (fun missing => by simp) failed
  exact ⟨distinct, ⟨loaded, found, below, named, place, defining⟩, failed, carried⟩

end LoadingContext

end ExtensionCatalog
