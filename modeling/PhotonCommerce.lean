import PhotonCommerce.Lib.Transition
import PhotonCommerce.Lib.Coroutine
import PhotonCommerce.Lib.Interleaving
import PhotonCommerce.Lib.Execution
import PhotonCommerce.Adapter.CallData
import PhotonCommerce.Adapter.SingleTicket
import PhotonCommerce.Server.Shutdown
import PhotonCommerce.Adapter.Isolation
import PhotonCommerce.Persistence.AsyncConnectionPool
import PhotonCommerce.Persistence.PqConnection
import PhotonCommerce.Persistence.AsyncConnect
import PhotonCommerce.Persistence.AwaitResponse
import PhotonCommerce.Persistence.Usable
import PhotonCommerce.Persistence.Fairness
import PhotonCommerce.Domain.User
import PhotonCommerce.Utils.Uuid
import PhotonCommerce.Persistence.Users
import PhotonCommerce.Runtime.Effects
import PhotonCommerce.Utils.Util
import PhotonCommerce.Lib.BigEndian
import PhotonCommerce.Utils.IdGenerator
import PhotonCommerce.Storage.RedisClient
import PhotonCommerce.Persistence.UserDao
import PhotonCommerce.Storage.UserRepository
import PhotonCommerce.Service.Model
import PhotonCommerce.Service.AuthService
import PhotonCommerce.Service.BasicUserService
import PhotonCommerce.Adapter.Endpoints
import PhotonCommerce.Adapter.Bracketed
import PhotonCommerce.Lib.ExpiringMap
import PhotonCommerce.Runtime.World
import PhotonCommerce.Lib.FieldCodec
import PhotonCommerce.Runtime.Reference
import PhotonCommerce.Persistence.Timestamp
import PhotonCommerce.Storage.UserCodec
import PhotonCommerce.Adapter.TokenLifetime
import PhotonCommerce.Adapter.ErrorText
import PhotonCommerce.Storage.CodeMap
import PhotonCommerce.Service.TookEffect
import PhotonCommerce.System.Server
import PhotonCommerce.System.CacheTransparency
import PhotonCommerce.System.PasswordLogin
import PhotonCommerce.System.CodeChecks
import PhotonCommerce.System.Registration
import PhotonCommerce.System.TakenPhone
import PhotonCommerce.System.Faithful
import PhotonCommerce.System.Authentication
import PhotonCommerce.System.Accounts
import PhotonCommerce.System.Codes
import PhotonCommerce.System.Connections
import PhotonCommerce.Config.ConnString
import PhotonCommerce.Registry.ConsulRegistry
import PhotonCommerce.Lib.FirstError
import PhotonCommerce.Lib.Ranking
import PhotonCommerce.Lib.Rotation
import PhotonCommerce.Lib.Simulation
import PhotonCommerce.Lib.AwaitBound
import PhotonCommerce.Lib.Erasure
import PhotonCommerce.Config.Section
import PhotonCommerce.Config.Loading
import PhotonCommerce.Server.AsioThreadPool
import PhotonCommerce.Storage.RedisPool
import PhotonCommerce.Adapter.Ticket
import PhotonCommerce.Adapter.AwaitBounds
import PhotonCommerce.System.Completion
import PhotonCommerce.Registry.Discovery
import PhotonCommerce.Domain.Lifecycle
import PhotonCommerce.Persistence.TimeText
import PhotonCommerce.Server.Startup
import PhotonCommerce.Server.Application
