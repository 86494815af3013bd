import EntityGraph.PermitDesk
import EntityGraph.Settings.File
import EntityGraph.Value.Plain
import EntityGraph.Value.Tagged
import EntityGraph.World.Commit
import EntityGraph.Proofs.NetChanges
import EntityGraph.Proofs.Tables
import EntityGraph.Proofs.Merging
import EntityGraph.Proofs.Operations
import EntityGraph.Proofs.WorkingCopy
import EntityGraph.Proofs.Runs
import EntityGraph.Proofs.Deliveries
import EntityGraph.Proofs.Endings
import EntityGraph.Proofs.Consistency
import EntityGraph.Proofs.Isolation
import EntityGraph.Proofs.Clients
import EntityGraph.Proofs.AllOrNothing
import EntityGraph.Proofs.EqualValues
import EntityGraph.Proofs.UniqueChecks
import EntityGraph.Proofs.UniqueWrites
import EntityGraph.Proofs.Claims
import EntityGraph.Proofs.Declarations
import EntityGraph.Proofs.Views
import EntityGraph.Proofs.Relations
import EntityGraph.Proofs.RegisteredLocks
import EntityGraph.Proofs.Uniqueness
import EntityGraph.Proofs.Moments
import EntityGraph.Proofs.Intact
import EntityGraph.Proofs.FailedOperations
import EntityGraph.Proofs.EventStream
import EntityGraph.Proofs.QuietCommits
import EntityGraph.Proofs.Deletions
import EntityGraph.Proofs.Protection
import EntityGraph.Proofs.StoredValues
import EntityGraph.Proofs.ClaimIsolation
import EntityGraph.Proofs.BackedClaims
import EntityGraph.Proofs.Rejections
import EntityGraph.Proofs.Recordings
import EntityGraph.Proofs.Dispatches
import EntityGraph.Proofs.Vetoes
import EntityGraph.Proofs.ListedRecordings
import EntityGraph.Proofs.Announcements
import EntityGraph.Proofs.CommitOrder
import EntityGraph.Proofs.ContextCalls
import EntityGraph.Proofs.ShownNodes
import EntityGraph.Proofs.Summaries
import EntityGraph.Proofs.Accounting
import EntityGraph.Proofs.LivePermits
import EntityGraph.Proofs.ReturnedPermits
import EntityGraph.Proofs.LockLookup
import EntityGraph.Proofs.FoldedWrites
import EntityGraph.Proofs.OverlaidEntries
import EntityGraph.Proofs.Removals
import EntityGraph.Proofs.NotionRoundTrips
import EntityGraph.Proofs.StoredReferences
import EntityGraph.Proofs.GroupedProperties
import EntityGraph.Proofs.IntegerTexts
import EntityGraph.Proofs.IntegerConversion
import EntityGraph.Proofs.LowercaseTexts
import EntityGraph.Proofs.Plurals
import EntityGraph.Proofs.ConvertedValues
import EntityGraph.Proofs.PlainForms
import EntityGraph.Proofs.ListConversions
import EntityGraph.Proofs.Transformations
import EntityGraph.Proofs.GuardedKeys
import EntityGraph.Proofs.WriteHistory
import EntityGraph.Proofs.MirroredClaims
