import Stormancer.Rpc.EndToEnd
import Stormancer.Rpc.CallerTerminal
import Stormancer.Rpc.CalleeIsolation
import Stormancer.Rpc.CalleeTerminals
import Stormancer.Lib.Heap
import Stormancer.Lib.Run
import Stormancer.Lib.Waiters
import Stormancer.Requests.Cancellation
import Stormancer.Requests.EndToEnd
import Stormancer.Requests.SendFailure
import Stormancer.RakNet.Transport
import Stormancer.RakNet.QueueProgress
import Stormancer.RakNet.QueueReads
import Stormancer.RakNet.Endpoints
import Stormancer.RakNet.Pings
import Stormancer.RakNet.Attempts
import Stormancer.Lib.Replica
import Stormancer.Party.Replication
import Stormancer.Di.Container
import Stormancer.Di.Resolution
import Stormancer.Di.Tree
import Stormancer.Di.Events
import Stormancer.Di.Identity
import Stormancer.Di.Selection
import Stormancer.Scene.Routes
import Stormancer.Packets.AesWindows
import Stormancer.Packets.Layers
import Stormancer.Packets.ChannelUidStore
import Stormancer.Packets.ChannelUidCalls
import Stormancer.Packets.Encryption
import Stormancer.Packets.DecryptionBounds
import Stormancer.Lib.WeakSlots
import Stormancer.Scene.Handles
import Stormancer.Scene.Slots
import Stormancer.Scene.TableBounds
import Stormancer.P2P.ConnectionsRepository
import Stormancer.P2P.Ownership
import Stormancer.P2P.Consistency
import Stormancer.P2P.PendingConnections
import Stormancer.Scene.Connection
import Stormancer.Scene.StateOrder
import Stormancer.Scene.Disconnection
import Stormancer.Scene.FailedConnection
import Stormancer.Client.Scenes
import Stormancer.Client.SceneAddress
import Stormancer.Client.ApiClient
import Stormancer.Streams.Bytewise
import Stormancer.Rpc.CallerIds
import Stormancer.Rpc.Overloads
import Stormancer.Rpc.SendFailure
import Stormancer.P2P.Sessions
import Stormancer.P2P.Tunnels
import Stormancer.P2P.TunnelData
import Stormancer.Scene.Peers
import Stormancer.Scene.Sending
import Stormancer.Clock.IdealNetwork
import Stormancer.Clock.Schedules
import Stormancer.Clock.PingFailures
import Stormancer.Clock.SampleArithmetic
import Stormancer.Friends.Service
import Stormancer.Party.Leader
import Stormancer.Party.Resync
import Stormancer.Party.Invitations
import Stormancer.Party.SentInvitations
import Stormancer.Party.Joining
import Stormancer.Users.UsersApi
import Stormancer.Users.Attempts
import Stormancer.Users.Logout
import Stormancer.GameSession.Isolation
import Stormancer.RakNet.Pings
import Stormancer.Streams.Copy
import Stormancer.Streams.Serializer
import Stormancer.Users.Publications
import Stormancer.GameFinder.Service
import Stormancer.Client.SessionToken
import Stormancer.Threads.ActionDispatcher
import Stormancer.Threads.TimerThread
import Stormancer.Utilities.StringJoin
import Stormancer.Utilities.Event
import Stormancer.Lib.MsgpackCodec
import Stormancer.Client.Dto
import Stormancer.Scene.P2PMessages
import Stormancer.Threads.DefaultScheduler
import Stormancer.Utilities.Base64
import Stormancer.Client.Tokens
import Stormancer.Lib.Newest
import Stormancer.PlayerData.Service
import Stormancer.P2P.TunnelTraffic
import Stormancer.GameFinder.Requests
