/-
**What the types of a report fail with.**

A report holds what the discovery of each documented type comes to. If the settings are valid, each
of these types has a contract, and so no failure is about a missing one, not even one that is
wrapped.

* `Assembly.exists_failed`: the failures of a report;
* `Assembly.report_mapped`: **valid settings leave no contract to be missed**.
-/

import ExtensionCatalog.Proofs.Discovery.Cause
import ExtensionCatalog.Proofs.Report.Properties
import ExtensionCatalog.Proofs.Settings.Faults

namespace ExtensionCatalog

namespace Assembly

/-- A failure in a report is what the discovery of a documented type comes to. -/
theorem exists_failed {assembly : Assembly} {settings : DiscoverySettings} {module : Coordinate}
    {failure : DiscoveryFailure} (member : failure ∈ (assembly.report settings module).2.failures) :
    failure.extensionType ∈ ExtensionType.documented ∧ ∃ context,
      (Survey.discover ⟨context, assembly.tree, settings⟩ failure.extensionType).outcome =
        .error failure.error := by
  cases built : (assembly.build module).outcome with
  | error error =>
    rw [report_of_error built] at member
    cases member
  | ok context =>
    obtain ⟨told, silent⟩ := assembly.report_tells built failure.extensionType
    by_cases documented : failure.extensionType ∈ ExtensionType.documented
    · exact ⟨documented, context, (told documented).outcome_of_mem member⟩
    · have own := DocumentationReport.mem_failures_of_type member
      rw [(silent documented).2] at own
      cases own

/-- **Valid settings leave no contract to be missed.** Whatever module is documented, by whatever
dependencies, resolver and files: no failure in its report is, or wraps, that a type has no
contract. Each documented type has one, and it names an interface. -/
theorem report_mapped {settings : Settings} (valid : settings.validate = .ok ()) :
    (∀ (assembly : Assembly) (module : Coordinate),
      ∀ failure ∈ (assembly.report settings.discovery module).2.failures,
        ∀ cause, failure.error.HasCause cause →
          ∀ extensionType, cause ≠ .unmappedExtensionType extensionType) ∧
    ∀ extensionType ∈ ExtensionType.documented, ∃ interface,
      settings.discovery.contract? extensionType = some interface ∧
        Text.isBlankText interface = false := by
  refine ⟨fun assembly module failure member cause behind extensionType missing => ?_,
    fun extensionType documented => settings.exists_contract valid documented⟩
  obtain ⟨documented, context, failed⟩ := exists_failed member
  obtain ⟨interface, mapped, -⟩ := settings.exists_contract valid documented
  have registered := Survey.failsOnly_discover mapped _ failed
  rw [missing] at behind
  have caused := Error.causedByMissingContract_iff.mpr ⟨extensionType, behind⟩
  rw [registered.causedByMissingContract_eq_false] at caused
  cases caused

/-- Settings by which the class of the library is a controller service as well, although no level
holds the contract of these. -/
def unheldSettings : Settings where
  discovery := {
    contracts := [⟨.processor, "P"⟩, ⟨.controllerService, "P"⟩, ⟨.reportingTask, "R"⟩] }

/-- What becomes of the class: its contract is there, but not the class of the contract. -/
def unheldError : Error := .extensionDefinition .controllerService "C" (.classNotFound "P")

theorem report_mapped_unheld :
    unheldSettings.validate = .ok () ∧
    ⟨.controllerService, unheldError⟩ ∈
      (twofoldAssembly.report unheldSettings.discovery leafModule).2.failures ∧
    (∀ extensionType, ¬ unheldError.HasCause (.unmappedExtensionType extensionType)) ∧
    ∃ interface, unheldSettings.discovery.contract? .controllerService = some interface ∧
      Text.isBlankText interface = false := by
  have valid : unheldSettings.validate = .ok () := by decide +kernel
  have computed : ((twofoldAssembly.buildWithin 2 leafModule).bind (·.outcome.toOption)).map
      (fun context => (Survey.discover ⟨context, twofoldAssembly.tree, unheldSettings.discovery⟩
          .controllerService).outcome) = some (.error unheldError) := by
    decide +kernel
  obtain ⟨context, made, failed⟩ := Option.map_eq_some_iff.mp computed
  have built := outcome_build_of_buildWithin
    (show twofoldAssembly.provider.listed.length < 2 by decide +kernel) made
  have told : (twofoldAssembly.report unheldSettings.discovery leafModule).2.Tells
      .controllerService (.error unheldError) :=
    failed ▸ (report_tells built .controllerService).1 (by decide)
  have member := List.mem_of_mem_filter (told.2 ▸ List.mem_singleton_self _)
  obtain ⟨mapped, contracts⟩ := report_mapped valid
  exact ⟨valid, member, fun extensionType behind => mapped _ _ _ member _ behind extensionType rfl,
    contracts .controllerService (by decide)⟩

end Assembly

end ExtensionCatalog
