import Ndns.Calls.Contracts
import Ndns.Calls.Delivery
import Ndns.Calls.Inevitability
import Ndns.Calls.Interleaving
import Ndns.Calls.Program
import Ndns.Calls.Refinement
import Ndns.Calls.SharedCache
import Ndns.Clients.BoundedResolution
import Ndns.Clients.Exchange
import Ndns.Clients.IterativeQueryController
import Ndns.Clients.NameMatching
import Ndns.Clients.NdnsDig
import Ndns.Clients.NdnsUpdate
import Ndns.Clients.NsCache
import Ndns.Clients.RecordFormat
import Ndns.Clients.Resolution
import Ndns.Clients.ResolverCoordinates
import Ndns.Clients.ResolverSafety
import Ndns.Clients.Response
import Ndns.Clients.ResponseRoundTrip
import Ndns.Clients.ZoneWalk
import Ndns.Daemon.CheckedFactories
import Ndns.Daemon.Constraints
import Ndns.Daemon.Database
import Ndns.Daemon.DbMgr
import Ndns.Daemon.FactoryRules
import Ndns.Daemon.FailingStatements
import Ndns.Daemon.HealthyDatabase
import Ndns.Daemon.InterruptedLookups
import Ndns.Daemon.Issuers
import Ndns.Daemon.KeyHolders
import Ndns.Daemon.LocalServices
import Ndns.Daemon.LowerFaults
import Ndns.Daemon.NameServer
import Ndns.Daemon.NdnsDaemon
import Ndns.Daemon.QueryRules
import Ndns.Daemon.RrsetFactory
import Ndns.Daemon.SharedDatabase
import Ndns.Daemon.StatementRules
import Ndns.Daemon.StoredNames
import Ndns.Daemon.StoredNumbers
import Ndns.Daemon.UpdateIntegrity
import Ndns.Daemon.ZoneIsolation
import Ndns.Label
import Ndns.Mgmt.AdditionContracts
import Ndns.Mgmt.AdditionOrder
import Ndns.Mgmt.AdditionRules
import Ndns.Mgmt.AnsweredQueries
import Ndns.Mgmt.AuthProtection
import Ndns.Mgmt.CertificateNames
import Ndns.Mgmt.ConcurrentWrites
import Ndns.Mgmt.ConvergingUpdates
import Ndns.Mgmt.CreateZone
import Ndns.Mgmt.CreationOutcomes
import Ndns.Mgmt.CreationRules
import Ndns.Mgmt.DaemonResolution
import Ndns.Mgmt.DelegatedResolution
import Ndns.Mgmt.DelegationTree
import Ndns.Mgmt.DenialCompleteness
import Ndns.Mgmt.DenialFreshness
import Ndns.Mgmt.DenialRecords
import Ndns.Mgmt.DenialShape
import Ndns.Mgmt.DenialSoundness
import Ndns.Mgmt.DigExits
import Ndns.Mgmt.DurableAdditions
import Ndns.Mgmt.FailedOperations
import Ndns.Mgmt.FetchedCertificates
import Ndns.Mgmt.FinishedOperations
import Ndns.Mgmt.HostedZones
import Ndns.Mgmt.LabelOrder
import Ndns.Mgmt.ListZone
import Ndns.Mgmt.LoopBounds
import Ndns.Mgmt.ManagementTool
import Ndns.Mgmt.OperationContracts
import Ndns.Mgmt.ReadYourWrites
import Ndns.Mgmt.RecordStore
import Ndns.Mgmt.Regeneration
import Ndns.Mgmt.Resolvability
import Ndns.Mgmt.RowNames
import Ndns.Mgmt.SameAnswers
import Ndns.Mgmt.ServedZones
import Ndns.Mgmt.ServingWhileEditing
import Ndns.Mgmt.SharedResolution
import Ndns.Mgmt.TransientErrors
import Ndns.Mgmt.UndoneAdditions
import Ndns.Mgmt.UpdateProtocol
import Ndns.Mgmt.VersionControl
import Ndns.Mgmt.WriteAutomata
import Ndns.Mgmt.ZoneChanges
import Ndns.Mgmt.ZoneContracts
import Ndns.Mgmt.ZoneFrames
import Ndns.Mgmt.ZoneListing
import Ndns.Mgmt.ZoneShape
import Ndns.Ndn.Name
import Ndns.Ndn.Packet
import Ndns.Ndn.PacketSizes
import Ndns.Ndn.Tlv
import Ndns.Order.CircularRanges
import Ndns.Order.LatestWins
import Ndns.Order.LexCode
import Ndns.Validator.CertificateFetcherAppCert
import Ndns.Validator.CertificateFetcherNdnsCert
import Ndns.Validator.RetryBudget
