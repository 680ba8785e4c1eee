import TrustedRoot.Catalog
import TrustedRoot.Config.Printer
import TrustedRoot.Main
import TrustedRoot.Proofs.Path.Spelling
import TrustedRoot.Volume
import TrustedRoot.Proofs.Path.NormalForm
import TrustedRoot.Proofs.Resolver.Confinement
import TrustedRoot.Proofs.Resolver.Stability
import TrustedRoot.Proofs.Catalog.Following
import TrustedRoot.Proofs.Resolver.Discipline
import TrustedRoot.Proofs.Resolver.Composition
import TrustedRoot.Proofs.Resolver.Expansion
import TrustedRoot.Proofs.Resolver.Relocation
import TrustedRoot.Proofs.Catalog.Agreement
import TrustedRoot.Proofs.Resolver.Budget
import TrustedRoot.Proofs.Path.Places
import TrustedRoot.Proofs.Path.Ancestry
import TrustedRoot.Proofs.Session
import TrustedRoot.Proofs.CommandLine.Containment
import TrustedRoot.Proofs.CommandLine.Records
import TrustedRoot.Proofs.Config.Layers
import TrustedRoot.Proofs.Config.Validity
import TrustedRoot.Proofs.Path.Location
import TrustedRoot.Proofs.Path.Within
import TrustedRoot.Proofs.Resolver.Lexical
import TrustedRoot.Proofs.CommandLine.Words
import TrustedRoot.Proofs.CommandLine.Switches
import TrustedRoot.Proofs.CommandLine.Tone
import TrustedRoot.Proofs.CommandLine.Verbosity
import TrustedRoot.Proofs.Path.Order
import TrustedRoot.Proofs.Path.Confinement
import TrustedRoot.Proofs.Resolver.Respelling
import TrustedRoot.Proofs.Catalog.Ceiling
import TrustedRoot.Proofs.Config.Home
import TrustedRoot.Proofs.Config.Merging
import TrustedRoot.Proofs.Config.Variables
import TrustedRoot.Proofs.Config.RootList
import TrustedRoot.Proofs.CommandLine.Validation
import TrustedRoot.Proofs.Config.Overriding
import TrustedRoot.Proofs.Catalog.Building
import TrustedRoot.Proofs.Catalog.Canonical
import TrustedRoot.Proofs.Config.Precedence
