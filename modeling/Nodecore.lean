import Nodecore.KeyManagement.KeyData
import Nodecore.Ratelimiter.RedisEngine
import Nodecore.Flow.RequestProcessors
import Nodecore.Flow.LogsSource
import Nodecore.Ws.Subscriptions
import Nodecore.Upstreams.HeadOwners
import Nodecore.Upstreams.LagStatus
import Nodecore.Flow.SelectionError
import Nodecore.Flow.SelectionEffects
import Nodecore.Utils.Wildcards
import Nodecore.Server.Credentials
import Nodecore.Ratelimiter.AutoTune
import Nodecore.Flow.LogFilter
import Nodecore.Emerald.NativeCall
import Nodecore.KeyManagement.KeyService
import Nodecore.Stats.StatsUpload
import Nodecore.Resilience.HedgeResult
import Nodecore.Server.Streaming
import Nodecore.Upstreams.LowerBoundExact
import Nodecore.Ws.RegistryEntries
import Nodecore.Flow.LabelGroups
import Nodecore.Flow.Fanout
import Nodecore.Flow.SelectorClasses
import Nodecore.Protocol.ReorderedSelectors
import Nodecore.Resilience.Retry
import Nodecore.Upstreams.LowerBoundProcessor
import Nodecore.Upstreams.MethodsProcessor
import Nodecore.Upstreams.ForceEnabled
import Nodecore.Utils.Lifecycle
import Nodecore.Upstreams.ResumeSubscriptions
import Nodecore.Utils.Subscriptions
import Nodecore.Upstreams.StateOrder
import Nodecore.Protocol.RestHash
