import ExtensionCatalog.Main
import ExtensionCatalog.LoadingContext.Outline
import ExtensionCatalog.Proofs.Properties.Escaping
import ExtensionCatalog.Proofs.Properties.Reading
import ExtensionCatalog.Proofs.Properties.Continuation
import ExtensionCatalog.Proofs.Properties.Faults
import ExtensionCatalog.Proofs.Definition.Draft
import ExtensionCatalog.Proofs.Definition.RoundTrip
import ExtensionCatalog.Proofs.LoadingContext.Identity
import ExtensionCatalog.Proofs.Extraction.ServiceApis
import ExtensionCatalog.Proofs.LoadingContext.View
import ExtensionCatalog.Proofs.Discovery.Ancestors
import ExtensionCatalog.Proofs.Definition.Xml
import ExtensionCatalog.Proofs.ModuleChain.Climb
import ExtensionCatalog.Proofs.Assembly.Levels
import ExtensionCatalog.Proofs.Assembly.Chain
import ExtensionCatalog.Proofs.Assembly.Exposure
import ExtensionCatalog.Proofs.Assembly.Foundation
import ExtensionCatalog.Proofs.Assembly.Exclusion
import ExtensionCatalog.Proofs.Assembly.Fault
import ExtensionCatalog.Proofs.ClassFile.Layout
import ExtensionCatalog.Proofs.ClassFile.ModifiedUtf8
import ExtensionCatalog.Proofs.ClassFile.Reading
import ExtensionCatalog.Proofs.ClassFile.Pool
import ExtensionCatalog.Proofs.ClassFile.Values
import ExtensionCatalog.Proofs.ClassFile.Parse
import ExtensionCatalog.Proofs.Xml.WellFormed
import ExtensionCatalog.Proofs.Definition.XmlDocument
import ExtensionCatalog.Proofs.Discovery.Registration
import ExtensionCatalog.Proofs.Definition.Restrictions
import ExtensionCatalog.Proofs.Extraction.Restrictions
import ExtensionCatalog.Proofs.FileTree.Changes
import ExtensionCatalog.Proofs.FileTree.Reach
import ExtensionCatalog.Proofs.Report.Partition
import ExtensionCatalog.Proofs.CommandLine.Run
import ExtensionCatalog.Proofs.Report.Confinement
import ExtensionCatalog.Proofs.Report.Properties
import ExtensionCatalog.Proofs.ClassPath.Interchange
import ExtensionCatalog.Proofs.ClassFile.Accepts
import ExtensionCatalog.Proofs.ClassFile.Raw
import ExtensionCatalog.Proofs.ClassFile.Hidden
import ExtensionCatalog.Proofs.ClassFile.CutOff
import ExtensionCatalog.Proofs.Text.Utf8
import ExtensionCatalog.Proofs.ClassFile.Decoding
import ExtensionCatalog.Proofs.ClassFile.Malformed
import ExtensionCatalog.Proofs.Extraction.Explanations
import ExtensionCatalog.Proofs.Extraction.Defaults
import ExtensionCatalog.Proofs.Coordinate
import ExtensionCatalog.Proofs.Lockfile
import ExtensionCatalog.Proofs.Definition.Described
import ExtensionCatalog.Proofs.FileTree.Below
import ExtensionCatalog.Proofs.Repository
import ExtensionCatalog.Proofs.Repository.Distinct
import ExtensionCatalog.Proofs.Settings.Load
import ExtensionCatalog.Proofs.Report.Failures
import ExtensionCatalog.Proofs.DependencySet.History
import ExtensionCatalog.Proofs.ClassFile.Bounded
