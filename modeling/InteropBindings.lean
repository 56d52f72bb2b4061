import InteropBindings.Disk.Access
import InteropBindings.Main
import InteropBindings.Proofs.Declaration.Nesting
import InteropBindings.Proofs.Ledger
import InteropBindings.Proofs.Symbol.Building
import InteropBindings.Proofs.Symbol.DottedNames
import InteropBindings.Proofs.Symbol.Resolution
import InteropBindings.Proofs.Symbol.TypeLevels
import InteropBindings.Proofs.Output.Routing
import InteropBindings.Proofs.Output.Blocks
import InteropBindings.Proofs.Output.Contents
import InteropBindings.Proofs.Output.Merging
import InteropBindings.Proofs.Output.Stubs
import InteropBindings.Proofs.Output.Independence
import InteropBindings.Proofs.Output.Placement
import InteropBindings.Proofs.Output.Aliases
import InteropBindings.Proofs.Output.Growth
import InteropBindings.Proofs.Output.Imports
import InteropBindings.Proofs.Text.Lowercase
import InteropBindings.Proofs.Path.Components
import InteropBindings.Proofs.Output.Layout
import InteropBindings.Proofs.Path.Order
import InteropBindings.Proofs.Sorted
import InteropBindings.Proofs.Disk.Growth
import InteropBindings.Proofs.Disk.Writes
import InteropBindings.Proofs.Files.Jobs
import InteropBindings.Proofs.Files.Writing
import InteropBindings.Proofs.Output.Materializing
import InteropBindings.Proofs.Disk.Places
import InteropBindings.Proofs.Path.Cutting
import InteropBindings.Proofs.Path.Descent
import InteropBindings.Proofs.Output.RootExports
import InteropBindings.Proofs.Output.PlainPaths
import InteropBindings.Proofs.Output.Separation
import InteropBindings.Proofs.Generation
import InteropBindings.Proofs.Output.Keys
import InteropBindings.Proofs.Output.Openings
import InteropBindings.Proofs.Output.Replacement
import InteropBindings.Proofs.Output.FileOrder
import InteropBindings.Proofs.Output.TypeNames
import InteropBindings.Proofs.Output.Coverage
import InteropBindings.Proofs.Output.ImportPaths
import InteropBindings.Proofs.Output.ImportTargets
import InteropBindings.Proofs.Declaration.Namespaces
import InteropBindings.Proofs.Disk.Directories
import InteropBindings.Proofs.Disk.Trees
import InteropBindings.Proofs.Disk.Overwriting
import InteropBindings.Proofs.Disk.Footprint
import InteropBindings.Proofs.Files.Rewriting
import InteropBindings.Proofs.Files.Walking
import InteropBindings.Proofs.Files.Finding
import InteropBindings.Proofs.Output.Rewriting
import InteropBindings.Proofs.Output.Footprint
import InteropBindings.Proofs.Regeneration
import InteropBindings.Proofs.Output.Repetition
import InteropBindings.Proofs.PlatformFiles
import InteropBindings.Proofs.Preview
import InteropBindings.Proofs.Disk.Links
import InteropBindings.Proofs.Files.Reaching
import InteropBindings.Proofs.Sources
import InteropBindings.Proofs.Disk.Twins
import InteropBindings.Proofs.Files.Mirroring
import InteropBindings.Proofs.Output.Mirroring
import InteropBindings.Proofs.BrokenFiles
import InteropBindings.Proofs.Disk.Reordering
import InteropBindings.Proofs.Files.Discovery
import InteropBindings.Proofs.Declaration.Parameters
import InteropBindings.Proofs.CommandLine
import InteropBindings.Proofs.Output.FolderAggregators
import InteropBindings.Proofs.Text.StringLiterals
import InteropBindings.Proofs.Output.Quoting
import InteropBindings.Proofs.Binding.Signatures
import InteropBindings.Proofs.Output.Deduplication
import InteropBindings.Proofs.Symbol.Identity
import InteropBindings.Proofs.Output.Emission
import InteropBindings.Proofs.LongPaths
