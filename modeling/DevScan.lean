import DevScan.Lib.Runs
import DevScan.Lib.Drain
import DevScan.Lib.Lease
import DevScan.Lib.Replica
import DevScan.Text.Split
import DevScan.Monitor.Accepted
import DevScan.Monitor.ClientMirror
import DevScan.Client.Foreign
import DevScan.Client.Freshness
import DevScan.Sys.ReadinessEdges
import DevScan.Monitor.Identity
import DevScan.Monitor.Truthful
import DevScan.Monitor.DroppedData
import DevScan.Net.Coverage
import DevScan.Net.Removal
import DevScan.Net.Draining
import DevScan.Stream.SendBlocks
import DevScan.Stream.Connections
import DevScan.Stream.TcpServer
import DevScan.Sys.OneShot
import DevScan.Sys.Registrations
import DevScan.Sys.Invocations
import DevScan.Lib.Holdings
import DevScan.Net.Descriptors
import DevScan.Net.Ownership
import DevScan.Monitor.Shapes
import DevScan.Lib.Occurrences
import DevScan.Text.Replace
import DevScan.Stream.Transient
import DevScan.Stream.ReceiveComplete
import DevScan.Lib.Int32
import DevScan.Stream.WindowsSocket
import DevScan.Stream.WindowsBlocks
import DevScan.Stream.Platforms
import DevScan.Lib.Loop
import DevScan.Net.Telegram
import DevScan.Net.TelegramBounds
import DevScan.Lib.Custody
import DevScan.Net.MulticastServer
import DevScan.Net.ServerSockets
import DevScan.Lib.Numeral
import DevScan.Net.ManualAddress
import DevScan.Sys.ExecuteFor
import DevScan.Lib.OrderedMap
import DevScan.Net.HardwareAddress
import DevScan.Net.EnumAdapters
import DevScan.Net.Sending
import DevScan.Sys.Moves
import DevScan.Text.SplitRun
import DevScan.Text.Trim
import DevScan.Json.Buffer
import DevScan.Json.Accepts
import DevScan.Json.Literals
import DevScan.Json.Writer
import DevScan.Json.RoundTrip
import DevScan.Json.StyledWriter
import DevScan.Json.Printed
import DevScan.Json.Spelled
import DevScan.Json.Assign
import DevScan.Client.Messages
import DevScan.Json.Exception
import DevScan.Monitor.Texts
import DevScan.Sys.WindowsEventLoop
import DevScan.Stream.OpenSockets
import DevScan.Net.DeviceStore
import DevScan.Sys.WindowsTimer
import DevScan.Sys.Awake
import DevScan.Sys.Notifier
