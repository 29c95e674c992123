import AztecConnect.Lib.Bits
import AztecConnect.Lib.Circuit
import AztecConnect.Circuit.Accounts
import AztecConnect.Circuit.RootRollupTrees
import AztecConnect.Circuit.NoteValues
import AztecConnect.Lib.MappedArray
import AztecConnect.Lib.Reentrancy
import AztecConnect.Lib.Transition
import AztecConnect.Contract.Capacity
import AztecConnect.Contract.DataTree
import AztecConnect.Contract.DepositCaps
import AztecConnect.Contract.Approvals
import AztecConnect.Contract.Outputs
import AztecConnect.Client.Mutex
import AztecConnect.Client.RollupProcessor
import AztecConnect.Client.NotePicker
import AztecConnect.Client.MerkleTreeAppends
import AztecConnect.Client.UserState
import AztecConnect.System.BridgeCallData
import AztecConnect.System.Claims
import AztecConnect.System.InteractionNotes
import AztecConnect.Falafel.RollupDb
import AztecConnect.Falafel.CachedRollupDb
import AztecConnect.Falafel.UnsettledTxs
import AztecConnect.Lib.LazyCache
import AztecConnect.Falafel.NextRollup
import AztecConnect.Falafel.WorldState
import AztecConnect.Falafel.DataStartIndex
import AztecConnect.Falafel.ClaimRecords
import AztecConnect.Falafel.TxFeeAllocator
import AztecConnect.Falafel.RollupProfile
import AztecConnect.Falafel.RollupLimits
import AztecConnect.Falafel.ValidateTxs
import AztecConnect.Falafel.LinkedCommitments
import AztecConnect.System.HashPaths
import AztecConnect.Circuit.NativeBridgeCallData
import AztecConnect.Client.Block
import AztecConnect.Client.InnerProofData
import AztecConnect.System.RollupRequests
import AztecConnect.System.RollupProofData
import AztecConnect.Client.OffchainData
import AztecConnect.System.OffchainData
import AztecConnect.Client.GroupUserTxs
import AztecConnect.Falafel.BridgeSubsidyProvider
import AztecConnect.System.ClaimOutputs
import AztecConnect.Client.BoundedSerialQueue
import AztecConnect.System.InteractionNonces
import AztecConnect.Halloumi.JobSystem
import AztecConnect.System.PublishedRollup
import AztecConnect.Kebab.Answers
