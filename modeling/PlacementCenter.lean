import PlacementCenter.Rust.Program
import PlacementCenter.Rust.Text
import PlacementCenter.Rust.Bincode
import PlacementCenter.Rust.Prost
import PlacementCenter.Rust.SerdeJson
import PlacementCenter.Rust.RocksDb
import PlacementCenter.Storage.SnapshotInstall
import PlacementCenter.Storage.LogRuns
import PlacementCenter.Raft.TermLookup
import PlacementCenter.Storage.ClientKeys
import PlacementCenter.Storage.KvStorage
import PlacementCenter.Raft.Eraftpb
import PlacementCenter.Raft.HardStateDurability
import PlacementCenter.Raft.AppliedIndex
import PlacementCenter.Raft.Answers
import PlacementCenter.Storage.LogRefinement
import PlacementCenter.Rust.Cuts
import PlacementCenter.Storage.LogImages
import PlacementCenter.Storage.LogLives
import PlacementCenter.Raft.LogEntries
import PlacementCenter.Raft.Restarts
import PlacementCenter.Raft.FirstIndex
import PlacementCenter.Openraft.LogDurability
import PlacementCenter.Openraft.LogCrashes
import PlacementCenter.Openraft.SnapshotOrder
import PlacementCenter.Openraft.SnapshotCuts
import PlacementCenter.Raft.RestartBounds
import PlacementCenter.Server.Calls
import PlacementCenter.Raft.Acknowledgements
import PlacementCenter.Storage.SnapshotLog
import PlacementCenter.Raft.SnapshotAtomicity
import PlacementCenter.Raft.Persistence
import PlacementCenter.Raft.SnapshotLabels
import PlacementCenter.Raft.ConfChanges
import PlacementCenter.Raft.Membership
import PlacementCenter.Server.LeaderAddress
import PlacementCenter.Storage.Replicas
import PlacementCenter.Clients.Forwarding
import PlacementCenter.Storage.KvHistory
import PlacementCenter.Openraft.ApplyBatches
import PlacementCenter.Server.ServicesKvNew
import PlacementCenter.Openraft.SnapshotIds
import PlacementCenter.Openraft.InstallAtomicity
import PlacementCenter.Storage.RepeatedSnapshots
import PlacementCenter.Raft.UncommittedIndices
import PlacementCenter.Storage.PrefixScan
import PlacementCenter.Server.NodeAddresses
import PlacementCenter.Storage.PrefixList
import PlacementCenter.Storage.ClusterKeys
import PlacementCenter.Openraft.LogKeys
import PlacementCenter.Clients.Retries
import PlacementCenter.Raft.Peers
import PlacementCenter.Server.PeerServices
import PlacementCenter.Clients.Pools
import PlacementCenter.Openraft.Convergence
import PlacementCenter.Openraft.Recovery
import PlacementCenter.Openraft.Network
import PlacementCenter.Openraft.Bootstrap
import PlacementCenter.Raft.PeerTraffic
import PlacementCenter.Raft.Ticks
import PlacementCenter.Storage.Registry
import PlacementCenter.Clients.Calls
import PlacementCenter.Server.Startup
