import DistCache.Cache.VersionVector
import DistCache.Cache.Entry
import DistCache.Cache.Engine
import DistCache.Cache.Lemmas
import DistCache.Cache.Invariant
import DistCache.Cache.Operations
import DistCache.Cache.Lru
import DistCache.Cache.Spec
import DistCache.Cache.MemoryCap
import DistCache.Cache.Refinement
import DistCache.Cache.CompareAndSwap
import DistCache.Cache.ConflictResolver
import DistCache.Cache.Enumeration
import DistCache.Service.Validator
import DistCache.Service.CacheService
import DistCache.Service.Server
import DistCache.Service.Admission
import DistCache.Client.Execute
import DistCache.Cluster.HashRing
import DistCache.Cluster.Placement
import DistCache.Cluster.RingInvariant
import DistCache.Cluster.Replicas
import DistCache.Cluster.Disruption
import DistCache.Cluster.Rebalance
import DistCache.Cluster.Coordinator
import DistCache.Cluster.Membership
import DistCache.Client.ShardingClient
import DistCache.Replication.ReplicationManager
import DistCache.Replication.Properties
import DistCache.Replication.Queue
import DistCache.Cluster.Quorum
import DistCache.Cluster.QuorumCas
import DistCache.Persistence.Wal
import DistCache.Persistence.WalSequence
import DistCache.Persistence.WalFaults
import DistCache.Persistence.Truncation
import DistCache.Persistence.Recovery
import DistCache.Persistence.RecoveryLaws
import DistCache.Persistence.SnapshotCodec
import DistCache.Persistence.WalFile
import DistCache.Persistence.SnapshotFaults
import DistCache.Persistence.SnapshotRetention
import DistCache.Cluster.Failover
import DistCache.Service.Expiry
import DistCache.Concurrency.Locks
import DistCache.Security.AuthToken
import DistCache.Security.AuthManager
import DistCache.Security.RateLimiter
import DistCache.Security.TlsConfig
