import Autobackup.Abc2.AccountHistory
import Autobackup.Abc2.ActiveAd
import Autobackup.Abc2.AddFunds
import Autobackup.Abc2.AnnouncedAmount
import Autobackup.Abc2.ApiQuota
import Autobackup.Abc2.BitcoindErrors
import Autobackup.Abc2.CalculatePass
import Autobackup.Abc2.CampaignHistory
import Autobackup.Abc2.CreditorRuns
import Autobackup.Abc2.DistinctAddresses
import Autobackup.Abc2.Documents
import Autobackup.Abc2.KeyBuilders
import Autobackup.Abc2.KeyListPageAdder
import Autobackup.Abc2.KeyPages
import Autobackup.Abc2.KeyRequests
import Autobackup.Abc2.ListedAds
import Autobackup.Abc2.LostRace
import Autobackup.Abc2.NewAdSlotFiller
import Autobackup.Abc2.NoLostUpdate
import Autobackup.Abc2.OneKeyPerRequest
import Autobackup.Abc2.PayoutSteps
import Autobackup.Abc2.PayoutsAfterErrors
import Autobackup.Abc2.PurchaseHistory
import Autobackup.Abc2.Recoverer
import Autobackup.Abc2.Satoshi
import Autobackup.Abc2.SavedAccounts
import Autobackup.Abc2.SavedKeys
import Autobackup.Abc2.SavedPurchases
import Autobackup.Abc2.SavedRequests
import Autobackup.Abc2.ScheduledRequests
import Autobackup.Abc2.Session
import Autobackup.Abc2.SlotPricing
import Autobackup.Abc2.System
import Autobackup.Abc2.TodaysAdSlot
import Autobackup.Abc2.TransactionCreditor
import Autobackup.Abc2.WithdrawFunds
import Autobackup.Abc2.WithdrawRequestProcessor
import Autobackup.Abc2.WithdrawalRuns
import Autobackup.AdImages.TrackedAndUpToDate
import Autobackup.AutoBackupHalper.GitIgnore
import Autobackup.ChecksummedMessages.ByteByByte
import Autobackup.ChecksummedMessages.Cuts
import Autobackup.ChecksummedMessages.InStep
import Autobackup.ChecksummedMessages.NeverSpins
import Autobackup.ChecksummedMessages.Noise
import Autobackup.ChecksummedMessages.Reader
import Autobackup.ChecksummedMessages.RoundTrip
import Autobackup.ContentTracker.ReplayedTimeline
import Autobackup.ContentTracker.Tracker
import Autobackup.CouchbaseBackend.Accounts
import Autobackup.CouchbaseBackend.Backend
import Autobackup.CouchbaseBackend.CacheItem
import Autobackup.CouchbaseBackend.CleanShutdown
import Autobackup.CouchbaseBackend.CurrentDocument
import Autobackup.CouchbaseBackend.Identified
import Autobackup.CouchbaseBackend.PagedAnswers
import Autobackup.CouchbaseBackend.Polling
import Autobackup.CouchbaseBackend.Subscription
import Autobackup.CouchbaseBackend.ViewQueries
import Autobackup.CouchbaseBackend.WantedSubscriptions
import Autobackup.DesignEqualsImplementation.ConnectStatements
import Autobackup.DesignEqualsImplementation.ConnectionActivations
import Autobackup.DesignEqualsImplementation.CppEditMode
import Autobackup.DesignEqualsImplementation.ImportedChunks
import Autobackup.DesignEqualsImplementation.NamedEmissions
import Autobackup.DesignEqualsImplementation.WalkedPaths
import Autobackup.Filesystem.EasyTreeHashItem
import Autobackup.Filesystem.GitHelper
import Autobackup.Filesystem.LastModifiedTimestamp
import Autobackup.Filesystem.TreeText
import Autobackup.Foundation.AbsolutePath
import Autobackup.Foundation.AssociationList
import Autobackup.Foundation.ClaimList
import Autobackup.Foundation.Deliveries
import Autobackup.Foundation.DirectoryTree
import Autobackup.Foundation.HashChain
import Autobackup.Foundation.HashOrder
import Autobackup.Foundation.Interleaving
import Autobackup.Foundation.Ledger
import Autobackup.Foundation.Machine
import Autobackup.Foundation.OwnedVersions
import Autobackup.Foundation.PagedMap
import Autobackup.Foundation.QListInsert
import Autobackup.Foundation.Script
import Autobackup.Foundation.SymlinkTree
import Autobackup.Foundation.TextParts
import Autobackup.Foundation.TimedTree
import Autobackup.Foundation.Unfolding
import Autobackup.Foundation.VersionedStore
import Autobackup.Foundation.Waiters
import Autobackup.Foundation.WrittenTree
import Autobackup.GitUnroll.CensorshipMachine
import Autobackup.GitUnroll.RerolledHistory
import Autobackup.HeirarchyMolester.ListedHierarchies
import Autobackup.HeirarchyMolester.LoadedTables
import Autobackup.HeirarchyMolester.MolestedHierarchies
import Autobackup.HeirarchyMolester.OccuranceRateMerging
import Autobackup.HeirarchyMolester.TimestampFiles
import Autobackup.HeirarchyMolester.TouchedTables
import Autobackup.Hotteeing.ExactChunks
import Autobackup.LastModifiedTimestampsTools.Hierarchy
import Autobackup.LastModifiedTimestampsTools.RestoredHierarchies
import Autobackup.LastModifiedTimestampsTools.RestoredTimes
import Autobackup.LastModifiedTimestampsTools.TimestampLines
import Autobackup.LiveSymlink.AtomicUpdate
import Autobackup.LiveSymlink.NeverDangles
import Autobackup.LossyCopier.Bitrates
import Autobackup.LossyCopier.CopyOperations
import Autobackup.LossyCopier.LosesNoFile
import Autobackup.LossyCopier.UsableBitrates
import Autobackup.MuxerSyncer.MuxedAudio
import Autobackup.Network.AskedConnections
import Autobackup.Network.BroadcastBookkeeping
import Autobackup.Network.Cookies
import Autobackup.Network.EveryMessage
import Autobackup.Network.Framing
import Autobackup.Network.MultiServer
import Autobackup.QuickDirtyStaticGitWeb.IndexEntries
import Autobackup.QuickDirtyStaticGitWeb.MirrorsHead
import Autobackup.QuickDirtyStaticGitWeb.RemovedPages
import Autobackup.QuickDirtyStaticGitWeb.StaticGitWeb
import Autobackup.QuickDirtyStaticGitWeb.SuccessfulRuns
import Autobackup.QuickDirtyStaticGitWeb.SuccessfulTurns
import Autobackup.RecursiveGpgTools.DetachedSignatures
import Autobackup.RecursiveGpgTools.SignedTwice
import Autobackup.RecursiveGpgTools.Signer
import Autobackup.RecursiveGpgTools.TargetDirectory
import Autobackup.RecursiveGpgTools.Verifier
import Autobackup.RecursiveGpgTools.WrittenSigs
import Autobackup.SegmentUploader.FfmpegSegments
import Autobackup.SegmentsImporter.FiledAndPropagated
import Autobackup.SftpQueue.NoUploadLost
import Autobackup.SftpQueue.Queue
import Autobackup.SftpQueue.StopRequests
import Autobackup.SubjectMatterMastery.EndsAtMastery
import Autobackup.SubjectMatterMastery.MasteryTest
import Autobackup.TimeAndData.ReadsBackEverything
import Autobackup.TimeAndData.Timeline
import Autobackup.Timeline.GracePeriod
import Autobackup.Timeline.SortedUnion
import Autobackup.Wasdf.AtRestPositions
import Autobackup.Wasdf.CalibratedFingers
import Autobackup.Wasdf.Calibrator
import Autobackup.Wasdf.MovedPins
import Autobackup.Wasdf.Sketch
import Autobackup.WatchSigsFile.PostedFiles
import Autobackup.WatchSigsFile.PostedOnce
import Autobackup.WatchSigsFile.WrittenPost
