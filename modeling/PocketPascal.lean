import PocketPascal.Files.Disk
import PocketPascal.Files.Tree
import PocketPascal.Main
import PocketPascal.Proofs.Reading
import PocketPascal.Proofs.Simulation
import PocketPascal.Proofs.Layout
import PocketPascal.Proofs.SourceLines
import PocketPascal.Proofs.LineTracking
import PocketPascal.Proofs.Coalescing
import PocketPascal.Proofs.ErrorLines
import PocketPascal.Proofs.Grammar
import PocketPascal.Proofs.Recognition
import PocketPascal.Proofs.Soundness
import PocketPascal.Proofs.Completeness
import PocketPascal.Proofs.Language
import PocketPascal.Proofs.LexicalGrammar
import PocketPascal.Proofs.MaximalMunch
import PocketPascal.Proofs.TokenStreams
import PocketPascal.Proofs.IncrementalLexing
import PocketPascal.Proofs.LedgerRoundTrip
import PocketPascal.Proofs.Reanalysis
import PocketPascal.Proofs.LedgerFormat
import PocketPascal.Proofs.Scoping
import PocketPascal.Proofs.Ownership
import PocketPascal.Proofs.AddressRanges
import PocketPascal.Proofs.Resolution
import PocketPascal.Proofs.NestingDepth
import PocketPascal.Proofs.AnyOrder
import PocketPascal.Proofs.Termination
import PocketPascal.Proofs.UniqueNames
import PocketPascal.Proofs.NestingLimit
import PocketPascal.Proofs.CleanedTokens
import PocketPascal.Proofs.CallBalance
import PocketPascal.Proofs.ExitStatus
import PocketPascal.Proofs.WrittenPaths
import PocketPascal.Proofs.Reruns
import PocketPascal.Proofs.LedgerFiles
import PocketPascal.Proofs.Wording
import PocketPascal.Proofs.RecordFields
import PocketPascal.Proofs.ErrorRecords
import PocketPascal.Proofs.LedgerLines
import PocketPascal.Proofs.EndOfInput
import PocketPascal.Proofs.Spacing
import PocketPascal.Proofs.Printing
import PocketPascal.Proofs.Owners
import PocketPascal.Proofs.Renaming
import PocketPascal.Proofs.Members
import PocketPascal.Proofs.Overlays
import PocketPascal.Proofs.Reconfiguring
