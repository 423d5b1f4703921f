import Agentcy.Agents.AgentUtils
import Agentcy.Agents.CapabilityAncestry
import Agentcy.Agents.CapabilityTaxonomy
import Agentcy.Agents.EthicsChecker
import Agentcy.Agents.EthicsVerdicts
import Agentcy.Agents.ReEvaluation
import Agentcy.Agents.SupervisorAgent
import Agentcy.Bandit.LinUCB
import Agentcy.Bootstrap.EntryTasks
import Agentcy.Bootstrap.PipelineEvent
import Agentcy.Broker.BoundQueues
import Agentcy.Broker.CopiesPerEdge
import Agentcy.Broker.EdgeBindings
import Agentcy.Broker.Manifests
import Agentcy.Broker.RabbitConfig
import Agentcy.Broker.Routing
import Agentcy.Broker.RunBindings
import Agentcy.Broker.RunIsolation
import Agentcy.Broker.Topology
import Agentcy.Catalog.CatalogQuery
import Agentcy.Catalog.CatalogStore
import Agentcy.Catalog.Reingestion
import Agentcy.Catalog.Upserts
import Agentcy.Cnp.AgentLoad
import Agentcy.Cnp.BidScore
import Agentcy.Cnp.BidSelection
import Agentcy.Cnp.BidderBatches
import Agentcy.Cnp.BlueprintBidder
import Agentcy.Cnp.CfpInvariant
import Agentcy.Cnp.CfpLifecycle
import Agentcy.Cnp.CnpManager
import Agentcy.Cnp.CnpStore
import Agentcy.Cnp.CnpUtils
import Agentcy.Cnp.CycleAccounting
import Agentcy.Cnp.CycleServes
import Agentcy.Cnp.Feedback
import Agentcy.Cnp.GraphBuilder
import Agentcy.Cnp.HeldCapabilities
import Agentcy.Cnp.LoadConservation
import Agentcy.Cnp.PlanAgreement
import Agentcy.Cnp.RegistryUpdates
import Agentcy.Cnp.ResponseThreshold
import Agentcy.Cnp.TrustOutcomes
import Agentcy.Coalition.Assembler
import Agentcy.Coalition.Executor
import Agentcy.Coalition.PartnerOrder
import Agentcy.Consumer.Aggregator
import Agentcy.Consumer.FanIn
import Agentcy.Consumer.HandlerDispatch
import Agentcy.Consumer.OpenFanIns
import Agentcy.Consumer.SeveralManagers
import Agentcy.Consumer.TaskDispatch
import Agentcy.Couch.Backoff
import Agentcy.Couch.Pool
import Agentcy.Forwarder.BanditAttribution
import Agentcy.Forwarder.BanditUpdates
import Agentcy.Forwarder.Bidding
import Agentcy.Forwarder.CandidateLookup
import Agentcy.Forwarder.Credit
import Agentcy.Forwarder.Delivery
import Agentcy.Forwarder.ExecuteStep
import Agentcy.Forwarder.Pheromones
import Agentcy.Forwarder.Publish
import Agentcy.Forwarder.Redispatch
import Agentcy.Forwarder.Resolution
import Agentcy.Forwarder.RunFailure
import Agentcy.GraphStore.Listings
import Agentcy.GraphStore.MarkerKeys
import Agentcy.GraphStore.Pagination
import Agentcy.GraphStore.TenantIsolation
import Agentcy.Library.Attempts
import Agentcy.Library.Batches
import Agentcy.Library.BinaryFloat
import Agentcy.Library.Chain
import Agentcy.Library.Clamp
import Agentcy.Library.Dag
import Agentcy.Library.DagEnds
import Agentcy.Library.DagPaths
import Agentcy.Library.Dataflow
import Agentcy.Library.DataflowPeaks
import Agentcy.Library.Decay
import Agentcy.Library.Depth
import Agentcy.Library.DottedNames
import Agentcy.Library.IsoTime
import Agentcy.Library.JsonText
import Agentcy.Library.Kahn
import Agentcy.Library.KeyedStore
import Agentcy.Library.LastAssignment
import Agentcy.Library.LikePattern
import Agentcy.Library.LongestPath
import Agentcy.Library.MarkedNames
import Agentcy.Library.Matrices
import Agentcy.Library.OrderedMap
import Agentcy.Library.PyCalls
import Agentcy.Library.PyJson
import Agentcy.Library.PyText
import Agentcy.Library.Ranking
import Agentcy.Library.Reachability
import Agentcy.Library.Recency
import Agentcy.Library.Reconciliation
import Agentcy.Library.Run
import Agentcy.Library.SealedCell
import Agentcy.Library.Sha256
import Agentcy.Library.SharedCell
import Agentcy.Library.Slice
import Agentcy.Library.Snapshot
import Agentcy.Library.SortedUnion
import Agentcy.Library.TimedRun
import Agentcy.Library.Triples
import Agentcy.Library.VersionedCell
import Agentcy.Parser.BrokerEntries
import Agentcy.Parser.ConfigParser
import Agentcy.Parser.Connectivity
import Agentcy.Parser.Dependencies
import Agentcy.Parser.EdgeQueues
import Agentcy.Parser.FrontEnd
import Agentcy.Parser.LaterStages
import Agentcy.Parser.ParallelTasks
import Agentcy.Parser.Parsing
import Agentcy.Pheromones.Engine
import Agentcy.Pheromones.FailureStreaks
import Agentcy.Pheromones.FoundationalAgentStore
import Agentcy.Pheromones.Intensities
import Agentcy.Pheromones.PathSeeder
import Agentcy.Pipeline.RunExecutions
import Agentcy.Pipeline.RunNetwork
import Agentcy.Pipeline.RunSimulation
import Agentcy.Pipeline.RunSystem
import Agentcy.Pipeline.ServiceConfigs
import Agentcy.PipelineStore.Documents
import Agentcy.PipelineStore.Update
import Agentcy.Plans.AppliedRecords
import Agentcy.Plans.CandidateSoundness
import Agentcy.Plans.ExecutionGates
import Agentcy.Plans.LaunchOutcomes
import Agentcy.Plans.PlanCache
import Agentcy.Plans.PlanDrafts
import Agentcy.Plans.PlanRevisionUtils
import Agentcy.Plans.PlanRevisions
import Agentcy.Plans.PlanValidator
import Agentcy.Plans.RevisionOrder
import Agentcy.Plans.RevisionProvenance
import Agentcy.Plans.SystemExecutor
import Agentcy.Plans.ValidPlans
import Agentcy.Registration.BlockedEvents
import Agentcy.Registration.ConsumerMoves
import Agentcy.Registration.DeployedPipelines
import Agentcy.Registration.DrainedQueues
import Agentcy.Registration.RegistrationSystem
import Agentcy.Registration.RequestMoves
import Agentcy.Registration.Supervise
import Agentcy.Registry.AgentLiveness
import Agentcy.Registry.AgentProcesses
import Agentcy.Registry.AgentRegistryStore
import Agentcy.Registry.CapabilityCoverage
import Agentcy.Registry.Deregistration
import Agentcy.Registry.RegistryPolicy
import Agentcy.Runs.CandidateWalk
import Agentcy.Runs.EphemeralStore
import Agentcy.Runs.EvaluationSequences
import Agentcy.Runs.PipelineRunModel
import Agentcy.Runs.RunArchive
import Agentcy.Runs.RunWriters
import Agentcy.Semantic.PlanGraph
import Agentcy.Semantic.PlanReading
import Agentcy.Strategist.Phases
import Agentcy.Strategist.ProposedPhases
import Agentcy.Topology.Compiler
import Agentcy.Topology.GeneratedPipelines
import Agentcy.Topology.GenerationService
import Agentcy.Topology.HumanGates
import Agentcy.Topology.Mutation
import Agentcy.Topology.MutationDag
import Agentcy.Topology.MutationOrder
import Agentcy.Topology.Orchestrator
import Agentcy.Topology.OutcomeRecorder
import Agentcy.Topology.PolicyRestriction
import Agentcy.Topology.RuntimePolicy
import Agentcy.Topology.Seeds
import Agentcy.Topology.Skeleton
import Agentcy.Topology.StepFlags
import Agentcy.Topology.StepLines
import Agentcy.Topology.StepNodes
import Agentcy.Topology.StepPresence
import Agentcy.Topology.TypedSteps
import Agentcy.Tracker.CallSpec
import Agentcy.Tracker.Completion
import Agentcy.Tracker.ExactCompletion
import Agentcy.Tracker.FailedPersist
import Agentcy.Tracker.ForeignKeys
import Agentcy.Tracker.Interleaving
import Agentcy.Tracker.LRUSet
import Agentcy.Tracker.OnTaskDone
import Agentcy.Tracker.RecentKeys
import Agentcy.Tracker.Reforwarding
import Agentcy.Tracker.RunTask
import Agentcy.Tracker.StopCommands
import Agentcy.Tracker.System
import Agentcy.Tracker.TerminalStatus
