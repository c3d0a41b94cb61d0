import HostedRepo.Main
import HostedRepo.Remote.Script
import HostedRepo.Proofs.PushPipeline
import HostedRepo.Proofs.SharedStore
import HostedRepo.Proofs.InterleavedPushes
import HostedRepo.Proofs.FileMapLookup
import HostedRepo.Proofs.CollectedFiles
import HostedRepo.Proofs.RedirectChain
import HostedRepo.Proofs.Sending
import HostedRepo.Proofs.TreeStore
import HostedRepo.Proofs.GitExchanges
import HostedRepo.Proofs.PushRequests
import HostedRepo.Proofs.TokenConfinement
import HostedRepo.Proofs.ArchiveLinks
import HostedRepo.Proofs.PathSegments
import HostedRepo.Proofs.PlaceholderDeletion
import HostedRepo.Proofs.TokenBlindness
import HostedRepo.Proofs.KeptMutations
import HostedRepo.Proofs.PathsBelowRepos
import HostedRepo.Proofs.BranchAddresses
import HostedRepo.Proofs.RequestConfinement
import HostedRepo.Proofs.ConfinedCommands
import HostedRepo.Proofs.CommandTasks
import HostedRepo.Proofs.PerformedOperations
import HostedRepo.Proofs.DiskWriting
import HostedRepo.Proofs.FramedOutput
import HostedRepo.Proofs.CommandChecks
import HostedRepo.Proofs.Downloads
import HostedRepo.Proofs.PushedContent
import HostedRepo.Proofs.AuthorizedRequests
import HostedRepo.Proofs.TokenSources
import HostedRepo.Proofs.PatternSearch
import HostedRepo.Proofs.AccountedAddresses
import HostedRepo.Proofs.ByteOrder
import HostedRepo.Proofs.TextParts
import HostedRepo.Proofs.TreeEntries
import HostedRepo.Proofs.SubmittedEntries
import HostedRepo.Proofs.LinkResolution
import HostedRepo.Proofs.FolderDeletions
import HostedRepo.Proofs.FileStore
import HostedRepo.Proofs.FileDeletions
import HostedRepo.Proofs.Talks
import HostedRepo.Proofs.Utf16Reading
import HostedRepo.Proofs.AgreeingRuns
import HostedRepo.Proofs.CallOpenings
import HostedRepo.Proofs.StatusClasses
import HostedRepo.Proofs.WrittenStrings
import HostedRepo.Proofs.WrittenJson
import HostedRepo.Proofs.DirectoryListings
import HostedRepo.Proofs.FormCoding
import HostedRepo.Proofs.ReferenceQueries
import HostedRepo.Proofs.EntryTexts
import HostedRepo.Proofs.RemotePaths
import HostedRepo.Proofs.JsonGrammar
import HostedRepo.Proofs.JsonReading
import HostedRepo.Proofs.ExtendedRecords
