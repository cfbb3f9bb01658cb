import AgencyProxy.Lts
import AgencyProxy.Maps
import AgencyProxy.Numbered
import AgencyProxy.Notify
import AgencyProxy.Serde
import AgencyProxy.Protocol
import AgencyProxy.Wire
import AgencyProxy.Broadcast
import AgencyProxy.Broadcast.Handles
import AgencyProxy.Waiting
import AgencyProxy.SocketPath
import AgencyProxy.Config
import AgencyProxy.Runtime.Store
import AgencyProxy.Runtime.Journal
import AgencyProxy.Runtime.Acknowledge
import AgencyProxy.Runtime.Provider
import AgencyProxy.Runtime.Registry
import AgencyProxy.Runtime.Activity
import AgencyProxy.Runtime.Endings
import AgencyProxy.Runtime.Cancel
import AgencyProxy.Runtime.Starts
import AgencyProxy.Runtime.Launches
import AgencyProxy.Runtime.Signal
import AgencyProxy.Runtime.Replay
import AgencyProxy.Runtime.Results
import AgencyProxy.Runtime.Owners
import AgencyProxy.Runtime.Progress
import AgencyProxy.Forwarder
import AgencyProxy.Delivery
import AgencyProxy.Delivery.Agreement
import AgencyProxy.Delivery.Endings
import AgencyProxy.Connection
import AgencyProxy.Connection.Moves
import AgencyProxy.Daemon
import AgencyProxy.Daemon.Lifecycle
import AgencyProxy.Daemon.Shutdown
import AgencyProxy.Daemon.Terminate
import AgencyProxy.Daemon.Discipline
import AgencyProxy.Daemon.Streams
import AgencyProxy.Daemon.Attachments
import AgencyProxy.Daemon.Receivers
import AgencyProxy.Daemon.Draining
import AgencyProxy.Daemon.Exits
import AgencyProxy.Daemon.Launches
import AgencyProxy.Daemon.Silence
import AgencyProxy.Daemon.Frames
import AgencyProxy.Daemon.Answers
import AgencyProxy.Daemon.Calls
import AgencyProxy.Daemon.Published
import AgencyProxy.Daemon.Progress
import AgencyProxy.WebSocket
import AgencyProxy.WebSocket.Subscriptions
import AgencyProxy.WebSocket.Silence
import AgencyProxy.WebSocket.RunSubscriptions
import AgencyProxy.WebSocket.Simulation
import AgencyProxy.WebSocket.Authentication
import AgencyProxy.WebSocket.Service
import AgencyProxy.WebSocket.Answers
import AgencyProxy.WebSocket.Drains
import AgencyProxy.WebSocket.Progress
import AgencyProxy.Client
import AgencyProxy.Client.Correlation
import AgencyProxy.Client.Events
import AgencyProxy.Client.Connect
import AgencyProxy.Link
import AgencyProxy.Link.Requests
import AgencyProxy.Link.Subscribers
import AgencyProxy.Link.Progress
