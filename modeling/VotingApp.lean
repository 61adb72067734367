import VotingApp.Lib.PoolHistory
import VotingApp.Lib.ExpiringStore
import VotingApp.Lib.JsonText
import VotingApp.Frames
import VotingApp.VoteRetention
import VotingApp.TableInvariants
import VotingApp.OtpRecords
import VotingApp.Provenance
import VotingApp.SettingsCache
import VotingApp.ClosedVoting
import VotingApp.EmailBlock
import VotingApp.AddressCap
import VotingApp.CodeRedirection
import VotingApp.UseWebSocket
import VotingApp.Framing
import VotingApp.HubDelivery
import VotingApp.PayloadReads
import VotingApp.LiveRuns
import VotingApp.LiveResults
import VotingApp.DomainCache
import VotingApp.Aliases
import VotingApp.SingleUse
import VotingApp.AckedCodes
import VotingApp.GuessBudget
import VotingApp.Lib.SoloRun
import VotingApp.SoloServer
import VotingApp.EmailAdmission
import VotingApp.HubLoop
import VotingApp.ClosedChannels
import VotingApp.HubTraces
import VotingApp.SnapshotOrder
import VotingApp.VoteAcceptance
import VotingApp.Lib.Renaming
import VotingApp.Gateway
import VotingApp.PeerLimits
import VotingApp.RecordFormat
import VotingApp.CanonicalForm
import VotingApp.Lib.Separated
import VotingApp.AddressGrammar
import VotingApp.DomainGrammar
import VotingApp.Isolation
import VotingApp.CounterExpiry
import VotingApp.Lib.Session
import VotingApp.RedisFaults
import VotingApp.StaleStatus
import VotingApp.LostDomains
import VotingApp.Lib.SingleFailure
import VotingApp.VoteAtomicity
import VotingApp.TornStatus
import VotingApp.Reconnect
import VotingApp.CandidateImages
import VotingApp.Lib.Clients
import VotingApp.Lib.JsDate
import VotingApp.VotingControlCard
import VotingApp.Refusals
import VotingApp.VoteModal
import VotingApp.AdminServer
import VotingApp.AdminAuth
import VotingApp.Lib.Derived
import VotingApp.Deployment
import VotingApp.PublicRoutes
import VotingApp.AdminAccounts
import VotingApp.AdminSessions
import VotingApp.DefaultAdmin
import VotingApp.EmailService
import VotingApp.MailChecks
import VotingApp.DeliveredMails
import VotingApp.Lib.Lockstep
import VotingApp.Lib.Guessing
import VotingApp.CodeSecrecy
import VotingApp.VoterJourney
import VotingApp.Lib.Scripts
import VotingApp.Migrations
import VotingApp.MailWorker
