import Agave.Library.MachineInt
import Agave.Library.StateMachine
import Agave.Library.List
import Agave.Library.ExceptLoop
import Agave.Library.Mutation
import Agave.Library.OptionLoop
import Agave.Library.ParallelFold
import Agave.Library.ImplicitTree
import Agave.Library.ByteDecoder
import Agave.Library.Bincode
import Agave.Library.MerkleTree
import Agave.Vote.Lockout
import Agave.Vote.State
import Agave.Vote.WellFormed
import Agave.Vote.Program
import Agave.Vote.Spec
import Agave.Vote.Invariant
import Agave.Vote.Rollback
import Agave.Vote.Filter
import Agave.Vote.Credits
import Agave.Vote.CheckSlots
import Agave.Vote.Latency
import Agave.Vote.Account
import Agave.Consensus.Tower
import Agave.Consensus.LockedOut
import Agave.Consensus.ForkChoice
import Agave.Runtime.TransactionContext
import Agave.Runtime.Invoke
import Agave.Runtime.BorrowedAccount
import Agave.Runtime.InstructionStack
import Agave.Runtime.Conservation
import Agave.Vote.Deserialize
import Agave.Stake.Delegation
import Agave.Stake.Activation
import Agave.Stake.State
import Agave.Stake.Instructions
import Agave.Stake.Funding
import Agave.Scheduler.StateMachine
import Agave.Scheduler.Queue
import Agave.Scheduler.Execution
import Agave.Scheduler.Locking
import Agave.Scheduler.Unlocking
import Agave.Scheduler.Properties
import Agave.Banking.ThreadAwareAccountLocks
import Agave.Banking.Holding
import Agave.Banking.Grants
import Agave.Gossip.Crds
import Agave.Gossip.WeightedShuffle
import Agave.Gossip.ShuffleTree
import Agave.Gossip.ShuffleSimulation
import Agave.Accounts.LatticeHash
import Agave.Accounts.RollingBitField
import Agave.Accounts.RollingBitFieldSet
import Agave.Shred.Merkle
import Agave.Turbine.ClusterNodes
import Agave.AddressLookupTable.State
import Agave.AddressLookupTable.Processor
import Agave.AddressLookupTable.Fork
import Agave.Entry.Poh
import Agave.Entry.Agreement
import Agave.Library.Leb128
import Agave.Encoding.ShortVec
import Agave.TransactionView.Bytes
import Agave.Encoding.VarInt
import Agave.Library.Partition
import Agave.Epoch.Schedule
import Agave.Sysvar.SlotHistory
import Agave.Merkle.Tree
import Agave.Vote.Compact
import Agave.Library.Iterator
import Agave.TransactionView.Frame
import Agave.TransactionView.Iterator
import Agave.TransactionView.Layout
import Agave.Stake.Merge
import Agave.Library.CounterMap
import Agave.Cost.Tracker
import Agave.Cost.Accounting
import Agave.Banking.QosService
import Agave.Runtime.StatusCache
import Agave.Runtime.StatusCacheInvariant
import Agave.Accounts.AccountLocks
import Agave.Library.Memo
import Agave.RuntimeTransaction.ComputeBudget
import Agave.Accounts.BlockhashQueue
