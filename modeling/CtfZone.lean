import CtfZone.Effects
import CtfZone.Runs
import CtfZone.Basic
import CtfZone.HelperHost
import CtfZone.HelperOperations
import CtfZone.HelperRules
import CtfZone.HelperFiles
import CtfZone.HelperFence
import CtfZone.HelperExpiry
import CtfZone.HelperDeadline
import CtfZone.HelperSweep
import CtfZone.Journal
import CtfZone.JournalReplay
import CtfZone.Tables
import CtfZone.RuntimeTables
import CtfZone.RuntimeApi
import CtfZone.ControllerTransactions
import CtfZone.ControllerWorker
import CtfZone.RuntimeSystem
import CtfZone.ControllerMoves
import CtfZone.RuntimeMoves
import CtfZone.RuntimeInvariants
import CtfZone.SystemMoves
import CtfZone.ClaimFencing
import CtfZone.SystemInvariants
import CtfZone.LifetimeBound
import CtfZone.HelperReplies
import CtfZone.FailedExtend
import CtfZone.ReadyInstances
import CtfZone.CleanupGuarantee
import CtfZone.Placement
import CtfZone.SlotRelease
import CtfZone.DegradedCleanup
import CtfZone.TwinRuns
import CtfZone.ControllerCalls
import CtfZone.FlagSecrecy
import CtfZone.FlagPolicy
import CtfZone.ValidatorAgreement
import CtfZone.StorageApi
import CtfZone.StorageFrame
import CtfZone.StorageLifecycle
import CtfZone.StorageQuiescence
import CtfZone.StorageQuota
import CtfZone.CategoryIcons
import CtfZone.SubmissionHistory
import CtfZone.AllChallenges
import CtfZone.ContestTables
import CtfZone.TeamChallenges
import CtfZone.ContestWrites
import CtfZone.Slots
import CtfZone.ContestSystem
import CtfZone.SolveMirror
import CtfZone.SolveUniqueness
import CtfZone.AttemptLimits
import CtfZone.CompetitionTime
import CtfZone.DynamicValues
import CtfZone.Scoreboard
import CtfZone.LockedTransactions
import CtfZone.FlagTransactions
import CtfZone.FlagDefinitions
import CtfZone.ChallengeAccess
import CtfZone.ChallengeList
import CtfZone.SharedLocks
import CtfZone.AccountTransactions
import CtfZone.AccountInvariants
import CtfZone.TeamRequests
import CtfZone.AccountRequests
import CtfZone.LoginAccess
import CtfZone.TeamStructure
import CtfZone.SshControl
import CtfZone.KeyedTables
import CtfZone.SshInvariants
import CtfZone.SshRequests
import CtfZone.Sightings
import CtfZone.SshSightings
import CtfZone.TicketProtocol
import CtfZone.SessionFencing
import CtfZone.CanonicalDigest
import CtfZone.RequestDigests
import CtfZone.CreateRequests
import CtfZone.CreationJournal
import CtfZone.Answers
import CtfZone.CreateOnce
import CtfZone.HintPurchases
import CtfZone.HintLedger
import CtfZone.HintDisclosure
import CtfZone.VerificationRequests
import CtfZone.EmailVerification
import CtfZone.VerifiedAddresses
import CtfZone.Rankings
import CtfZone.Profiles
import CtfZone.ProfilePlaces
import CtfZone.Passwords
import CtfZone.PasswordLogins
import CtfZone.Snapshots
import CtfZone.Exports
import CtfZone.Terminal
import CtfZone.TerminalDelivery
import CtfZone.GeneratedFlags
import CtfZone.FlagOwners
import CtfZone.Configuration
import CtfZone.ConfigurationRules
import CtfZone.ConfigurationRuns
import CtfZone.EmailDomains
import CtfZone.LoneTransactions
import CtfZone.Resubmissions
import CtfZone.StaticPng
import CtfZone.LeetRendering
import CtfZone.LockedFailures
import CtfZone.LeetMasks
import CtfZone.ReportedAttempts
import CtfZone.TimeGate
import CtfZone.ExactValues
import CtfZone.HelperCalm
import CtfZone.StaleRequests
import CtfZone.HelperRetries
import CtfZone.SvgAttributes
import CtfZone.CategorySvg
import CtfZone.RegexFlags
import CtfZone.Destinations
import CtfZone.TokenBuckets
import CtfZone.TicketLimiter
import CtfZone.Base64
import CtfZone.Fields
import CtfZone.SshKeys
import CtfZone.TrustedKeys
import CtfZone.ByteTexts
import CtfZone.TeamInvites
import CtfZone.Contracts
import CtfZone.IdentityVolume
import CtfZone.IdentityFiles
import CtfZone.IdentityContracts
import CtfZone.IdentityOperations
import CtfZone.IdentityQueue
import CtfZone.IdentitySystem
import CtfZone.IdentityRuns
import CtfZone.IdentityCalm
import CtfZone.IdentityGuarantees
