/-
**The service contracts of a controller service.**

A service contract is an interface that the class declares, that the level defining the class sees,
and from which the contract of controller services can be reached. It is attributed to the level
that defines the interface, which is the outermost one that holds it.

* `extract_eq_ok_iff`: a definition is put together of four parts;
* `IsOutermostHolder.unique`: one level of a chain is the outermost that holds a class;
* `exists_isOutermostHolder`: **the level that defines a class is that one**;
* `outcome_serviceApi?`: what one interface of a class comes to;
* `provides_iff`: when a list of service contracts holds what one interface provides;
* `extract_lists_provided`: **which service contracts an extracted definition lists**.
-/

import ExtensionCatalog.Extraction
import ExtensionCatalog.Proofs.LoadingContext.Search

namespace ExtensionCatalog

/-! ### The level that defines a class -/

namespace LoadingContext

variable {tree : FileTree} {context outermost : LoadingContext} {name : String}

/-- Whether a level of a chain is the outermost one that holds the class file of a name. -/
structure IsOutermostHolder (context : LoadingContext) (tree : FileTree) (name : String)
    (outermost : LoadingContext) : Prop where
  above : outermost ∈ context.ancestry
  holds : outermost.level.Holds tree name
  first : ∀ outer ∈ outermost.ancestry.tail, ¬ outer.level.Holds tree name

theorem IsOutermostHolder.unique {other : LoadingContext}
    (holder : context.IsOutermostHolder tree name outermost)
    (holder' : context.IsOutermostHolder tree name other) : outermost = other := by
  obtain ⟨above, holds, first⟩ := holder
  obtain ⟨above', holds', first'⟩ := holder'
  induction context with
  | root level =>
    rw [List.mem_singleton.mp above, List.mem_singleton.mp above']
  | child parent level hypothesis =>
    rcases List.mem_cons.mp above with here | further
    · rcases List.mem_cons.mp above' with here' | further'
      · rw [here, here']
      · rw [here] at first
        exact absurd holds' (first other further')
    · rcases List.mem_cons.mp above' with here' | further'
      · rw [here'] at first'
        exact absurd holds (first' outermost further)
      · exact hypothesis further further'

/-- **The level that defines a class is the outermost one that holds it.** -/
theorem exists_isOutermostHolder {type : LoadedClass}
    (distinct : (context.levels.map (·.id)).Nodup) (loaded : context.IsLoaded tree type) :
    ∃ outermost, context.IsOutermostHolder tree type.name outermost ∧
      context.at? type.definedBy = some outermost := by
  obtain ⟨outermost, above, same, holds, first⟩ := exists_defining loaded
  refine ⟨outermost, ⟨above, holds, first⟩, ?_⟩
  rw [← same]
  exact at?_of_mem_ancestry distinct above

end LoadingContext

namespace Survey

open LoadingContext

variable {survey : Survey} {loaded type contract : LoadedClass} {extensionType : ExtensionType}

/-- A definition is put together of what its four parts come to. -/
theorem extract_eq_ok_iff {definition : Definition} :
    (survey.extract loaded extensionType).outcome = .ok definition ↔
      definition.extensionType = extensionType ∧ definition.name = loaded.name ∧
      (survey.description loaded).outcome = .ok definition.description ∧
      (survey.tags loaded).outcome = .ok definition.tags ∧
      (survey.restrictions loaded).outcome = .ok definition.restrictions ∧
      (if extensionType = .controllerService then survey.serviceApis loaded
        else pure ∅).outcome = .ok definition.serviceApis := by
  by_cases service : extensionType = .controllerService
  all_goals
    unfold extract
    simp only [service, ↓reduceIte, Logged.outcome_bind, Outcome.bind_eq_ok_iff]
    constructor
    · intro made
      obtain ⟨description, described, tags, tagged, restrictions, restricted, apis, served,
        whole⟩ := made
      cases whole
      exact ⟨rfl, rfl, described, tagged, restricted, served⟩
    · intro parts
      obtain ⟨typed, named, described, tagged, restricted, served⟩ := parts
      refine ⟨_, described, _, tagged, _, restricted, _, served, ?_⟩
      rw [← typed, ← named]
      rfl

/-! ### One interface -/

theorem definingModule_eq (distinct : (survey.context.levels.map (·.id)).Nodup)
    {outermost : LoadingContext}
    (holder : survey.context.IsOutermostHolder survey.tree type.name outermost)
    (seen : survey.context.IsLoaded survey.tree type) :
    survey.definingModule type = outermost.level.module := by
  obtain ⟨defining, holder', found⟩ := exists_isOutermostHolder distinct seen
  unfold definingModule
  rw [found, holder'.unique holder]
  rfl

/-- What an interface of a class comes to. -/
theorem outcome_serviceApi? (survey : Survey) (contract loaded : LoadedClass) (interface : String) :
    (survey.serviceApi? contract loaded interface).outcome =
      (survey.context.loadIfPresent survey.tree loaded.definedBy interface).outcome >>= fun
        | none => .ok none
        | some type =>
          (survey.context.isAssignable survey.tree contract type).outcome.map fun answer =>
            if answer then (survey.definingModule type).map (ServiceApi.ofModule interface)
            else none := by
  unfold serviceApi?
  rw [Logged.outcome_bind]
  refine Outcome.bind_congr_of_ok fun found _ => ?_
  cases found with
  | none => rfl
  | some type =>
    show (survey.context.isAssignable survey.tree contract type >>= _).outcome =
      (survey.context.isAssignable survey.tree contract type).outcome.map _
    rw [Logged.outcome_bind]
    rcases (survey.context.isAssignable survey.tree contract type).outcome with error | _ | _
    all_goals rfl

/-- What an interface comes to that the level defining the class sees. -/
theorem outcome_serviceApi?_of_loadFrom {interface : String}
    (looked : (survey.context.loadFrom survey.tree loaded.definedBy interface).outcome = .ok type) :
    (survey.serviceApi? contract loaded interface).outcome =
      (survey.context.isAssignable survey.tree contract type).outcome.map fun answer =>
        if answer then (survey.definingModule type).map (ServiceApi.ofModule interface)
        else none := by
  rw [outcome_serviceApi?, loadIfPresent_eq_ok_some_iff.mpr looked]
  rfl

theorem exists_loadFrom_of_serviceApi? {interface : String} {api : ServiceApi}
    (served : (survey.serviceApi? contract loaded interface).outcome = .ok (some api)) :
    ∃ type,
      (survey.context.loadFrom survey.tree loaded.definedBy interface).outcome = .ok type := by
  rw [outcome_serviceApi?] at served
  obtain ⟨found, looked, rest⟩ := Outcome.bind_eq_ok_iff.mp served
  cases found with
  | none => cases rest
  | some type => exact ⟨type, loadIfPresent_eq_ok_some_iff.mp looked⟩

/-- Among classes of a chain, reaching the type of a class is reaching the class. -/
theorem exists_reachable_key_iff (seen : survey.context.IsLoaded survey.tree type)
    (known : survey.context.IsLoaded survey.tree contract) :
    (∃ other, survey.context.Reachable survey.tree type other ∧ other.key = contract.key) ↔
      survey.context.Reachable survey.tree type contract := by
  constructor
  · intro met
    obtain ⟨other, reached, same⟩ := met
    have equal := (reached.isLoaded seen).eq_of_name_eq known (congrArg Prod.snd same)
    exact equal ▸ reached
  · intro reached
    exact ⟨contract, reached, rfl⟩

/-- What it takes for an interface of a class to be a service contract. -/
theorem serviceApi?_eq_some_iff (distinct : (survey.context.levels.map (·.id)).Nodup)
    (known : survey.context.IsLoaded survey.tree contract) {interface : String}
    {result : Option ServiceApi}
    (served : (survey.serviceApi? contract loaded interface).outcome = .ok result)
    {api : ServiceApi} :
    result = some api ↔ ∃ type,
      (survey.context.loadFrom survey.tree loaded.definedBy interface).outcome = .ok type ∧
        survey.context.Reachable survey.tree type contract ∧
        (survey.definingModule type).map (ServiceApi.ofModule interface) = some api := by
  constructor
  · intro listed
    rw [listed] at served
    obtain ⟨type, looked⟩ := exists_loadFrom_of_serviceApi? served
    have seen := isLoaded_of_loadFrom looked
    rw [outcome_serviceApi?_of_loadFrom looked] at served
    obtain ⟨answer, answered, told⟩ := Outcome.map_eq_ok_iff.mp served
    cases answer with
    | false => cases told
    | true =>
      have reached := (isAssignable_eq_ok_iff distinct seen answered).mp rfl
      exact ⟨type, looked, (exists_reachable_key_iff seen known).mp reached, told⟩
  · intro provided
    obtain ⟨type, looked, reached, attributed⟩ := provided
    have seen := isLoaded_of_loadFrom looked
    rw [outcome_serviceApi?_of_loadFrom looked] at served
    obtain ⟨answer, answered, told⟩ := Outcome.map_eq_ok_iff.mp served
    have yes := (isAssignable_eq_ok_iff distinct seen answered).mpr
      ((exists_reachable_key_iff seen known).mpr reached)
    rw [← told, if_pos yes, attributed]

/-! ### All interfaces -/

theorem serviceApis_eq_ok_iff {apis : SortedSet ServiceApi} :
    (survey.serviceApis loaded).outcome = .ok apis ↔ ∃ contractName contract found,
      survey.settings.contract? .controllerService = some contractName ∧
      (survey.context.load survey.tree contractName).outcome = .ok contract ∧
      (loaded.file.interfaces.mapM fun interface =>
        (survey.serviceApi? contract loaded interface).outcome) = .ok found ∧
      apis = .ofList found.reduceOption := by
  unfold serviceApis
  cases configured : survey.settings.contract? .controllerService with
  | none => exact iff_of_false (fun equal => by cases equal) (by simp)
  | some contractName =>
    simp only [Logged.outcome_bind, Logged.outcome_mapM, Outcome.bind_eq_ok_iff]
    constructor
    · intro served
      obtain ⟨contract, known, found, each, whole⟩ := served
      cases whole
      exact ⟨contractName, contract, found, rfl, known, each, rfl⟩
    · intro served
      obtain ⟨_, contract, found, ⟨⟩, known, each, rfl⟩ := served
      exact ⟨contract, known, found, each, rfl⟩

/-- Whether a class provides a service contract: the class declares its interface, from what the
level defining the class sees under that name the contract of controller services can be reached,
and the outermost level that holds the interface belongs to the module it is attributed to. -/
def Provides (survey : Survey) (contract loaded : LoadedClass) (api : ServiceApi) : Prop :=
  api.className ∈ loaded.file.interfaces ∧
    (∃ defining ∈ survey.context.ancestry, defining.level.id = loaded.definedBy ∧
      ∃ type, (defining.load survey.tree api.className).outcome = .ok type ∧
        survey.context.Reachable survey.tree type contract) ∧
    ∃ outermost module, survey.context.IsOutermostHolder survey.tree api.className outermost ∧
      outermost.level.module = some module ∧ api.groupId = module.group ∧
      api.artifactId = module.artifact ∧ api.version = module.version

theorem ofModule_eq_iff {interface : String} {module : Coordinate} {api : ServiceApi} :
    ServiceApi.ofModule interface module = api ↔ api.className = interface ∧
      api.groupId = module.group ∧ api.artifactId = module.artifact ∧
      api.version = module.version := by
  obtain ⟨className, groupId, artifactId, version⟩ := api
  simp only [ServiceApi.ofModule, ServiceApi.mk.injEq, eq_comm]

/-- What a class provides, asked interface by interface. -/
theorem provides_iff (distinct : (survey.context.levels.map (·.id)).Nodup)
    (seen : survey.context.IsLoaded survey.tree loaded) {api : ServiceApi} :
    survey.Provides contract loaded api ↔ ∃ interface ∈ loaded.file.interfaces, ∃ type,
      (survey.context.loadFrom survey.tree loaded.definedBy interface).outcome = .ok type ∧
        survey.context.Reachable survey.tree type contract ∧
        (survey.definingModule type).map (ServiceApi.ofModule interface) = some api := by
  constructor
  · intro provides
    obtain ⟨declared, ⟨defining, above, same, type, looked, reached⟩, outermost, module, holder,
      tagged, attributed⟩ := provides
    rw [← loadFrom_of_mem_ancestry distinct above, same] at looked
    have named := name_eq_of_loadFrom looked
    refine ⟨api.className, declared, type, looked, reached, ?_⟩
    rw [← named] at holder
    rw [definingModule_eq distinct holder (isLoaded_of_loadFrom looked), tagged]
    exact congrArg some (ofModule_eq_iff.mpr ⟨rfl, attributed⟩)
  · intro provided
    obtain ⟨interface, declared, type, looked, reached, attributed⟩ := provided
    have typeSeen := isLoaded_of_loadFrom looked
    have named := name_eq_of_loadFrom looked
    obtain ⟨outermost, holder, -⟩ := exists_isOutermostHolder distinct typeSeen
    rw [definingModule_eq distinct holder typeSeen] at attributed
    obtain ⟨module, tagged, made⟩ := Option.map_eq_some_iff.mp attributed
    obtain ⟨rfl, fields⟩ := ofModule_eq_iff.mp made
    obtain ⟨defining, above, same⟩ := seen.exists_level
    rw [← same, loadFrom_of_mem_ancestry distinct above] at looked
    rw [named] at holder
    exact ⟨declared, ⟨defining, above, same, type, looked, reached⟩, outermost, module, holder,
      tagged, fields⟩

/-- **The service contracts that an extracted definition lists are those that the class provides.**
In a chain of levels with distinct identities, a definition extracted from a class of the chain as a
controller service lists a service contract exactly if the class provides it, for the configured
contract of controller services as the context sees it; definitions of other types list none. -/
theorem extract_lists_provided (survey : Survey)
    (distinct : (survey.context.levels.map (·.id)).Nodup) {className : String}
    {loaded : LoadedClass}
    (found : (survey.context.load survey.tree className).outcome = .ok loaded)
    {extensionType : ExtensionType} {definition : Definition}
    (extracted : (survey.extract loaded extensionType).outcome = .ok definition) :
    (extensionType = .controllerService → ∃ contractName contract,
      survey.settings.contract? .controllerService = some contractName ∧
      (survey.context.load survey.tree contractName).outcome = .ok contract ∧
      ∀ api, api ∈ definition.serviceApis ↔ survey.Provides contract loaded api) ∧
    (extensionType ≠ .controllerService → definition.serviceApis = ∅) := by
  obtain ⟨-, -, -, -, -, served⟩ := extract_eq_ok_iff.mp extracted
  constructor
  · intro service
    rw [if_pos service] at served
    obtain ⟨contractName, contract, results, configured, known, each, whole⟩ :=
      serviceApis_eq_ok_iff.mp served
    refine ⟨contractName, contract, configured, known, fun api => ?_⟩
    have contractSeen := isLoaded_of_load (mem_ancestry_self _) known
    rw [provides_iff distinct (isLoaded_of_load (mem_ancestry_self _) found), whole,
      SortedSet.mem_ofList, List.reduceOption_mem_iff, Outcome.mem_of_mapM_eq_ok each]
    refine exists_congr fun interface => and_congr_right fun declared => ?_
    obtain ⟨result, here⟩ := Outcome.exists_of_mapM_eq_ok each declared
    rw [← serviceApi?_eq_some_iff distinct contractSeen here, here, Except.ok.injEq]
  · intro other
    rw [if_neg other] at served
    exact (Except.ok.inj served).symm

/-- Three directories: a contract `K`; an interface `I` that extends it and one that is nowhere; an
interface of the same name, and a class `C` that implements `I`. -/
def serviceTree : FileTree where
  entries := .ofList [(["base"], .directory), (["base", "K.class"], .file (lettersClass 75 [])),
    (["outer"], .directory), (["outer", "I.class"], .file (lettersClass 73 [77, 75])),
    (["inner"], .directory), (["inner", "I.class"], .file (lettersClass 73 [])),
    (["inner", "C.class"], .file (lettersClass 67 [73]))]
  workingDirectory := []

/-- The module of the upper one of two levels. -/
def outerModule : Coordinate := ⟨"org.example", "outer", "1", "nar", none⟩

/-- The shared level and the levels of two modules. -/
def serviceSurvey : Survey where
  context := .child (.child (.root ⟨⟨0, 0⟩, none, ∅, [.directory ⟨"/base"⟩]⟩)
    ⟨⟨0, 1⟩, some outerModule, ∅, [.directory ⟨"/outer"⟩]⟩)
    ⟨⟨0, 2⟩, some ⟨"org.example", "inner", "1", "nar", none⟩, ∅, [.directory ⟨"/inner"⟩]⟩
  tree := serviceTree
  settings := { contracts := [⟨.controllerService, "K"⟩] }

/-- The interface that two levels hold is attributed to the module of the outer one. -/
theorem extract_lists_provided_shadowed :
    (serviceSurvey.context.levels.map (·.id)).Nodup ∧ ∃ loaded definition contract,
      (serviceSurvey.context.load serviceSurvey.tree "C").outcome = .ok loaded ∧
      (serviceSurvey.extract loaded .controllerService).outcome = .ok definition ∧
      (serviceSurvey.context.load serviceSurvey.tree "K").outcome = .ok contract ∧
      serviceSurvey.Provides contract loaded (.ofModule "I" outerModule) := by
  have distinct : (serviceSurvey.context.levels.map (·.id)).Nodup := by decide
  have computed : (do
      let loaded ← (serviceSurvey.context.load serviceSurvey.tree "C").outcome.toOption
      let description ← (serviceSurvey.description loaded).outcome.toOption
      let tags ← (serviceSurvey.tags loaded).outcome.toOption
      let restrictions ← (serviceSurvey.restrictions loaded).outcome.toOption
      let contract ← (serviceSurvey.context.load serviceSurvey.tree "K").outcome.toOption
      let type ← (serviceSurvey.context.loadFrom serviceSurvey.tree loaded.definedBy
        "I").outcome.toOption
      let answer ← searchWithin serviceSurvey.context serviceSurvey.tree contract.key 9 [type] []
      let assignable ← answer.toOption
      return (loaded.file.interfaces, assignable, serviceSurvey.definingModule type)) =
        some (["I"], true, some outerModule) := by
    decide +kernel
  obtain ⟨loaded, found, rest⟩ := Option.bind_eq_some_iff.mp computed
  obtain ⟨description, described, rest⟩ := Option.bind_eq_some_iff.mp rest
  obtain ⟨tags, tagged, rest⟩ := Option.bind_eq_some_iff.mp rest
  obtain ⟨restrictions, restricted, rest⟩ := Option.bind_eq_some_iff.mp rest
  obtain ⟨contract, known, rest⟩ := Option.bind_eq_some_iff.mp rest
  obtain ⟨type, looked, rest⟩ := Option.bind_eq_some_iff.mp rest
  obtain ⟨answer, ended, rest⟩ := Option.bind_eq_some_iff.mp rest
  obtain ⟨assignable, answered, whole⟩ := Option.bind_eq_some_iff.mp rest
  obtain ⟨declared, yes, tag⟩ : loaded.file.interfaces = ["I"] ∧ assignable = true ∧
      serviceSurvey.definingModule type = some outerModule := by
    simpa using whole
  have found := Outcome.eq_ok_of_toOption found
  have known := Outcome.eq_ok_of_toOption known
  have served : (serviceSurvey.serviceApi? contract loaded "I").outcome =
      .ok (some (.ofModule "I" outerModule)) := by
    rw [outcome_serviceApi?_of_loadFrom (Outcome.eq_ok_of_toOption looked),
      outcome_isAssignable_of_searchWithin ended, Outcome.eq_ok_of_toOption answered, yes, tag]
    rfl
  have each : (loaded.file.interfaces.mapM fun interface =>
      (serviceSurvey.serviceApi? contract loaded interface).outcome) =
        .ok [some (.ofModule "I" outerModule)] := by
    rw [declared, List.mapM_cons, served]
    rfl
  have extracted : (serviceSurvey.extract loaded .controllerService).outcome =
      .ok ⟨.controllerService, loaded.name, description, tags, restrictions,
        .ofList [.ofModule "I" outerModule]⟩ :=
    extract_eq_ok_iff.mpr ⟨rfl, rfl, Outcome.eq_ok_of_toOption described,
      Outcome.eq_ok_of_toOption tagged, Outcome.eq_ok_of_toOption restricted,
      serviceApis_eq_ok_iff.mpr ⟨"K", contract, _, rfl, known, each, rfl⟩⟩
  obtain ⟨contractName, other, configured, known', lists⟩ :=
    (extract_lists_provided serviceSurvey distinct found extracted).1 rfl
  cases configured
  rw [known] at known'
  cases known'
  refine ⟨distinct, loaded, _, contract, found, extracted, known, (lists _).mp ?_⟩
  exact SortedSet.mem_ofList.mpr List.mem_cons_self

end Survey

end ExtensionCatalog
