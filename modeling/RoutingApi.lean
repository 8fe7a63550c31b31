import RoutingApi.Relational.Table
import RoutingApi.Relational.Schema
import RoutingApi.Process.Program
import RoutingApi.Replica.Replay
import RoutingApi.Database.Gorm
import RoutingApi.Models.Route
import RoutingApi.Models.TcpRoute
import RoutingApi.Database.Client
import RoutingApi.Database.Operations
import RoutingApi.Migration.Migrations
import RoutingApi.Process.Wp
import RoutingApi.Process.Loops
import RoutingApi.Migration.Runner
import RoutingApi.Migration.Upgrade
import RoutingApi.Models.ReservablePorts
import RoutingApi.Database.RouterGroups
import RoutingApi.Database.Runs
import RoutingApi.Database.KeyLookup
import RoutingApi.Database.Refresh
import RoutingApi.Database.History
import RoutingApi.Database.Convergence
import RoutingApi.Concurrency.ControlPoints
import RoutingApi.Concurrency.Announcement
import RoutingApi.Concurrency.PruneRace
import RoutingApi.Concurrency.Duplicates
import RoutingApi.Concurrency.Serialised
import RoutingApi.Concurrency.LostUpdate
import RoutingApi.Handlers.Validator
import RoutingApi.Handlers.Requests
import RoutingApi.Handlers.FrontendTLS
import RoutingApi.Concurrency.BackupLock
import RoutingApi.Handlers.RouterGroups
import RoutingApi.Client.ReservePort
import RoutingApi.Client.Reservations
import RoutingApi.Startup.Seeding
import RoutingApi.Stream.EventStream
import RoutingApi.Stream.StuckDispatcher
import RoutingApi.Stream.Hub
import RoutingApi.Stream.CancelWatches
import RoutingApi.Metrics.Reporter
import RoutingApi.Models.PortLists
import RoutingApi.Models.YamlPorts
import RoutingApi.Process.Traces
import RoutingApi.Handlers.NotFound
import RoutingApi.Database.Pruning
import RoutingApi.Database.TagOrder
import RoutingApi.UaaClient.Jwt
import RoutingApi.UaaClient.TokenValidator
import RoutingApi.UaaClient.KeyRotation
import RoutingApi.UaaClient.Scopes
import RoutingApi.UaaClient.TokenFetcher
import RoutingApi.Numeric.Binary64
import RoutingApi.Models.Duration
import RoutingApi.Handlers.TimeToLive
import RoutingApi.Startup.Config
import RoutingApi.Handlers.Deletion
import RoutingApi.Relational.Upserts
import RoutingApi.Handlers.StoredRows
import RoutingApi.Handlers.TableShape
import RoutingApi.Handlers.Batch
import RoutingApi.Text.Regex
import RoutingApi.Trace.Sanitize
import RoutingApi.Trace.Segments
import RoutingApi.Trace.Secrets
import RoutingApi.Text.Lines
import RoutingApi.Text.Decimal
import RoutingApi.Sse.Events
import RoutingApi.Text.Json
import RoutingApi.Models.Encoding
import RoutingApi.Client.EventSource
import RoutingApi.Replica.Leases
import RoutingApi.Database.Leases
import RoutingApi.Startup.RouteRegister
import RoutingApi.Concurrency.CleanupRoutes
import RoutingApi.Text.Url
import RoutingApi.Http.Mux
import RoutingApi.Http.Routes
