import Corvus.Machine
import Corvus.Concurrent
import Corvus.ExpiringStore
import Corvus.Footprint
import Corvus.Hex
import Corvus.Json
import Corvus.Db.CacheAside
import Corvus.Db.CacheKeys
import Corvus.Db.CacheRead
import Corvus.Db.PrefixScan
import Corvus.Db.VersionToken
import Corvus.Db.RedisSetup
import Corvus.Db.ReconnectBackoff
import Corvus.Db.Postgres
import Corvus.Db.Timestamp
import Corvus.Db.MigrationRunner
import Corvus.Db.MigrationOnce
import Corvus.Db.MigrationHistory
import Corvus.Db.PgPool
import Corvus.Db.PoolAccounting
import Corvus.Db.PoolWaiting
import Corvus.Platform
import Corvus.Auth.Authenticator
import Corvus.Auth.ApiKeyValidator
import Corvus.Auth.ApiKeyRefinement
import Corvus.Auth.ApiKeyCache
import Corvus.Auth.ApiKeyExpiry
import Corvus.Resources.Resource
import Corvus.Resources.Cursor
import Corvus.Resources.Table
import Corvus.Resources.Repository
import Corvus.Resources.Service
import Corvus.Api.Response
import Corvus.Resources.Handler
import Corvus.Resources.CacheContent
import Corvus.Resources.Isolation
import Corvus.Resources.Coherence
import Corvus.Resources.Spelling
import Corvus.Resources.WriteAnswer
import Corvus.Keyset
import Corvus.Roster
import Corvus.Allowance
import Corvus.Trim
import Corvus.Resources.Paging
import Corvus.Auth.Middleware
import Corvus.Gateway.RateLimiter
import Corvus.Gateway.RateLimits
import Corvus.Gateway.ClientKey
import Corvus.Gateway.RetryAfter
import Corvus.Gateway.LimiterMemory
import Corvus.Gateway.LateCalls
import Corvus.Resources.BadCursor
import Corvus.Resources.UpdateStatement
import Corvus.Resources.Patch
import Corvus.Resources.StoredRows
import Corvus.Resources.Staleness
import Corvus.Fields
import Corvus.Auth.Scopes
import Corvus.Gateway.TrustedProxies
import Corvus.Base64
import Corvus.Resources.Base64Text
import Corvus.Resources.CursorUrl
import Corvus.Lines
import Corvus.Gateway.HealthProbe
import Corvus.Refinement
import Corvus.Partition
import Corvus.Api.RequestId
import Corvus.Auth.JwtValidator
import Corvus.Db.KeySpaces
import Corvus.Gateway.RequestSizeLimit
import Corvus.Server.KeySpaces
import Corvus.Server.Parts
import Corvus.Server.Server
import Corvus.Server.Authorisation
import Corvus.Server.Isolation
import Corvus.Resources.Versions
import Corvus.Server.Responses
import Corvus.Server.Admission
import Corvus.Progress
import Corvus.Server.Progress
import Corvus.Rely
import Corvus.Db.MigrationCoverage
import Corvus.Server.Startup
import Corvus.Api.Envelope
import Corvus.Resources.Outcomes
import Corvus.Server.Answers
import Corvus.Register
import Corvus.Resources.LastWrite
import Corvus.Server.Revocation
