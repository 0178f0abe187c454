import CommonJs.Decimal.Reader
import CommonJs.FileSystem.Snapshot
import CommonJs.Main
import CommonJs.Proofs.Loading.Agreement
import CommonJs.Proofs.Loading.Exports
import CommonJs.Proofs.Loading.Handles
import CommonJs.Proofs.Loading.Once
import CommonJs.Proofs.Loading.Propagation
import CommonJs.Proofs.Loading.Remembered
import CommonJs.Proofs.Loading.Termination
import CommonJs.Proofs.Resolver.Browserless
import CommonJs.Proofs.Resolver.Canonical
import CommonJs.Proofs.Resolver.Forgetting
import CommonJs.Proofs.Resolver.Acyclic
import CommonJs.Proofs.Resolver.Replacement
import CommonJs.Proofs.FileSystem.Enclosed
import CommonJs.Proofs.FileSystem.History
import CommonJs.Proofs.Path.Below
import CommonJs.Proofs.Resolver.Confinement
import CommonJs.Proofs.Package.Recased
import CommonJs.Proofs.Package.Entries
import CommonJs.Proofs.Path.Recased
import CommonJs.Proofs.Resolver.Recased
import CommonJs.Proofs.Resolver.Capped
import CommonJs.Proofs.Resolver.Stubbed
import CommonJs.Proofs.Resolver.Calls
import CommonJs.Proofs.Resolver.Provenance
import CommonJs.Proofs.Loading.Data
import CommonJs.Proofs.Value.RoundTrip
import CommonJs.Proofs.FileSystem.Folded
import CommonJs.Proofs.Path.Form
import CommonJs.Proofs.Value.History
import CommonJs.Proofs.Settings.Loading
