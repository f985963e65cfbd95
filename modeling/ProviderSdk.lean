import ProviderSdk.Serde
import ProviderSdk.PreparedOperation
import ProviderSdk.AttemptOutcome
import ProviderSdk.CompletionBatch
import ProviderSdk.V1
import ProviderSdk.Lib.Monitor
import ProviderSdk.ReadStream
import ProviderSdk.TargetedState
import ProviderSdk.Proto3
import ProviderSdk.Reconciliation
import ProviderSdk.WriteOutcome
import ProviderSdk.CompletionWire
import ProviderSdk.PreparedWire
import ProviderSdk.OutcomeWire
import ProviderSdk.Intention
import ProviderSdk.BehaviorWire
import ProviderSdk.StateWire
import ProviderSdk.CanonicalRead
import ProviderSdk.Discovery
import ProviderSdk.Lib.PrefixCode
import ProviderSdk.Writability
import ProviderSdk.AccountIdentity
import ProviderSdk.ConnectionSetup
import ProviderSdk.TargetedRead
import ProviderSdk.NoPanic
import ProviderSdk.MappingKey
import ProviderSdk.CanonicalDomain
import ProviderSdk.JsonBudget
import ProviderSdk.AccountLimits
import ProviderSdk.Bootstrap
import ProviderSdk.DiscoveryProto3
import ProviderSdk.DiscoveryWire
import ProviderSdk.Paging
import ProviderSdk.CanonicalPrepared
import ProviderSdk.CanonicalState
import ProviderSdk.AttemptRecord
import ProviderSdk.Exchange
import ProviderSdk.Launch
import ProviderSdk.Lib.Numerals
import ProviderSdk.SocketText
import ProviderSdk.Serving
import ProviderSdk.Lib.Writes
import ProviderSdk.MonotoneMerge
import ProviderSdk.Negotiation
import ProviderSdk.ReadSession
import ProviderSdk.Responses
import ProviderSdk.Workflow
import ProviderSdk.BehaviorChange
import ProviderSdk.ManyAttempts
import ProviderSdk.Lib.Retry
import ProviderSdk.RetriedWrite
