import Metastring.Introspection
import Metastring.Json.Writer
import Metastring.Main
import Metastring.Proofs.FlavorEquivalence
import Metastring.Proofs.CycleRejection
import Metastring.Proofs.FrontEnds
import Metastring.Proofs.OutlineReading
import Metastring.Proofs.MetadataFailure
import Metastring.Proofs.FaultyPosition
import Metastring.Proofs.Composition
import Metastring.Proofs.Redirection
import Metastring.Proofs.FileCompilation
import Metastring.Proofs.Listing
import Metastring.Proofs.IrrelevantMetadata
import Metastring.Proofs.JsonPresentation
import Metastring.Proofs.Reporting
import Metastring.Proofs.UnboundedMaximum
import Metastring.Proofs.TypeNames
import Metastring.Proofs.FormAgreement
import Metastring.Proofs.SessionHistory
import Metastring.Proofs.Encoding
import Metastring.Proofs.MaximumReading
import Metastring.Proofs.ContainerSizes
import Metastring.Proofs.TreeReading
import Metastring.Proofs.NestingBound
import Metastring.Proofs.CanonicalScope
