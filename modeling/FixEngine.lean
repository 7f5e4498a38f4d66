import FixEngine.Lib.Bytes
import FixEngine.Lib.Decimal
import FixEngine.Lib.Runs
import FixEngine.Lib.Refinement
import FixEngine.Lib.FreeList
import FixEngine.Lib.Ownership
import FixEngine.Lib.Recency
import FixEngine.Lib.Resequencer
import FixEngine.Core.Ring
import FixEngine.Core.LinearBuffer
import FixEngine.Core.Framer
import FixEngine.Core.Message
import FixEngine.Core.Parser
import FixEngine.Core.Store
import FixEngine.Core.RecoveryCache
import FixEngine.Core.Factory
import FixEngine.Core.Schema
import FixEngine.Core.Validator
import FixEngine.Core.Session
import FixEngine.Core.SessionPool
import FixEngine.Core.Arena
import FixEngine.Core.MpscRing
import FixEngine.Core.LogFileSink
import FixEngine.Memory.Deque
import FixEngine.Memory.Stream
import FixEngine.Memory.Blocks
import FixEngine.Log.Queue
import FixEngine.Log.Interleaving
import FixEngine.Log.OpenFiles
import FixEngine.Framing.Reference
import FixEngine.Framing.Streaming
import FixEngine.Framing.Draining
import FixEngine.Framing.Retained
import FixEngine.Wire.Fields
import FixEngine.Wire.Strict
import FixEngine.Wire.Format
import FixEngine.Wire.Encode
import FixEngine.Wire.Overlong
import FixEngine.Outbound.Index
import FixEngine.Outbound.Stored
import FixEngine.Outbound.Entries
import FixEngine.Outbound.Edits
import FixEngine.Outbound.Regenerate
import FixEngine.Outbound.Resent
import FixEngine.Validation.Scratch
import FixEngine.Validation.History
import FixEngine.Validation.Required
import FixEngine.Validation.BitSet
import FixEngine.Validation.Groups
import FixEngine.Validation.Acceptance
import FixEngine.Validation.Conformance
import FixEngine.Validation.Order
import FixEngine.Validation.Builders
import FixEngine.Session.Effects
import FixEngine.Session.WriteQueue
import FixEngine.Session.Outcomes
import FixEngine.Session.Operations
import FixEngine.Session.Runs
import FixEngine.Session.Connection
import FixEngine.Session.Reading
import FixEngine.Session.Pool
import FixEngine.Session.Rejection
import FixEngine.Outbound.Resending
import FixEngine.Outbound.Partition
import FixEngine.Outbound.Alignment
import FixEngine.Outbound.Numbering
import FixEngine.Outbound.Emission
import FixEngine.Session.Integers
import FixEngine.Session.ResetLogon
import FixEngine.Session.Delivery
import FixEngine.Session.Admission
import FixEngine.Recovery.Cache
import FixEngine.Recovery.Map
import FixEngine.Recovery.Reordering
import FixEngine.Recovery.Window
import FixEngine.Recovery.Termination
import FixEngine.Session.Endings
import FixEngine.Recovery.Consistency
import FixEngine.Lib.Simulation
import FixEngine.Lib.Exchange
import FixEngine.Network.Letters
import FixEngine.Network.Conversation
import FixEngine.Network.Peers
import FixEngine.Network.Speaking
import FixEngine.Network.Hearing
import FixEngine.Network.Agreement
import FixEngine.Network.Delivery
import FixEngine.Network.Answering
import FixEngine.Network.Recovering
import FixEngine.Network.GapRecovery
import FixEngine.Network.Rejoining
import FixEngine.Lib.Descent
import FixEngine.Log.Core
import FixEngine.Log.Files
import FixEngine.Log.Attended
import FixEngine.Log.Accounting
import FixEngine.Log.Shutdown
import FixEngine.Log.Wakeup
