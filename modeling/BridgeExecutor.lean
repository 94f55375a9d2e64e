import BridgeExecutor.Reentrant.Frames
import BridgeExecutor.Reentrant.Undisturbed
import BridgeExecutor.Reentrant.Local
import BridgeExecutor.Lib.Words
import BridgeExecutor.Lib.Flags
import BridgeExecutor.Lib.Budget
import BridgeExecutor.Lib.Ledger
import BridgeExecutor.Lib.Hex
import BridgeExecutor.Lib.Rlp
import BridgeExecutor.Lib.Abi
import BridgeExecutor.Types
import BridgeExecutor.Contracts.BridgeExecutorBase
import BridgeExecutor.Contracts.Encoding
import BridgeExecutor.Contracts.Bridge
import BridgeExecutor.Contracts.CustomPolygonMapping
import BridgeExecutor.Contracts.FxPortal
import BridgeExecutor.Contracts.CrossDomainMessenger
import BridgeExecutor.System
import BridgeExecutor.PolygonBridge
import BridgeExecutor.OptimismBridge
import BridgeExecutor.ArbitrumBridge
import BridgeExecutor.Certora.Harness
import BridgeExecutor.Scripts.Ethers
import BridgeExecutor.Scripts.Arbitrum
import BridgeExecutor.Scripts.TicketIds
import BridgeExecutor.Properties.Specs
import BridgeExecutor.Properties.Moves
import BridgeExecutor.Properties.Refinement
import BridgeExecutor.Properties.Config
import BridgeExecutor.Properties.Executing
import BridgeExecutor.Properties.History
import BridgeExecutor.Properties.Bookkeeping
import BridgeExecutor.Properties.Delivery
import BridgeExecutor.Properties.Value
import BridgeExecutor.Properties.Aliasing
import BridgeExecutor.Properties.RetryableTicket
import BridgeExecutor.Properties.Simulation
import BridgeExecutor.Properties.Lifecycle
import BridgeExecutor.Properties.Timelock
import BridgeExecutor.Properties.Custody
import BridgeExecutor.Properties.Dispatch
import BridgeExecutor.Properties.EventLog
import BridgeExecutor.Properties.Progress
import BridgeExecutor.Properties.Mapping
import BridgeExecutor.Properties.Polygon
import BridgeExecutor.Properties.PolygonRuns
import BridgeExecutor.Properties.L2Bridges
import BridgeExecutor.Properties.TicketIds
