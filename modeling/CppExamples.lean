import CppExamples.Lib.System
import CppExamples.Lib.Simulation
import CppExamples.Lib.Loop
import CppExamples.Lib.IntLoop
import CppExamples.Lib.Tally
import CppExamples.Lib.SharedPtr
import CppExamples.Lib.Buffer
import CppExamples.Lib.CString
import CppExamples.Lib.StringArray
import CppExamples.Lib.Lifetime
import CppExamples.Lib.Stream
import CppExamples.Lib.Pipe
import CppExamples.Lib.Protobuf.Varint
import CppExamples.Lib.Protobuf.Parse
import CppExamples.Lib.Protobuf.UnknownField
import CppExamples.Lib.Protobuf.Timestamp
import CppExamples.Lib.Protobuf.Append
import CppExamples.Lib.Protobuf.WellFormed
import CppExamples.Lib.Protobuf.Merge
import CppExamples.Lib.Protobuf.Utf8
import CppExamples.AsyncUdp.Message
import CppExamples.AsyncUdp.HeaderText
import CppExamples.AsyncUdp.Socket
import CppExamples.AsyncUdp.Show
import CppExamples.AsyncUdp.ShowBytes
import CppExamples.AsyncUdp.Client
import CppExamples.AsyncUdp.Outbox
import CppExamples.AsyncUdp.Delivery
import CppExamples.AsyncUdp.Destination
import CppExamples.AsyncUdp.Replies
import CppExamples.AsyncUdp.ReplyLength
import CppExamples.AsyncUdp.MessageLength
import CppExamples.AsyncUdp.Closing
import CppExamples.AsyncUdp.Server
import CppExamples.AsyncUdp.Echo
import CppExamples.AsyncUdp.EchoBytes
import CppExamples.AsyncUdp.Heard
import CppExamples.AsyncUdp.Network
import CppExamples.AsyncUdp.OneMessage
import CppExamples.AsyncUdp.Requests
import CppExamples.AsyncUdp.Daytime
import CppExamples.AsyncUdp.DaytimeReplies
import CppExamples.AsyncTcp.Server
import CppExamples.AsyncTcp.Connections
import CppExamples.AsyncTcp.Writes
import CppExamples.TcpDaytime.Clients
import CppExamples.TcpDaytime.Service
import CppExamples.TcpDaytime.Blocking
import CppExamples.AsyncTcp.Network
import CppExamples.AsyncTcp.AllServed
import CppExamples.TcpDaytime.SameOutput
import CppExamples.WinSock.Network
import CppExamples.WinSock.ReverseServer
import CppExamples.WinSock.ReceivingServers
import CppExamples.WinSock.Calls
import CppExamples.WinSock.TcpClient
import CppExamples.WinSock.EchoServer
import CppExamples.WinSock.EchoSession
import CppExamples.WinSock.EchoRuns
import CppExamples.WinSock.HttpClient
import CppExamples.WinSock.FileSize
import CppExamples.WinSock.FileSizeTcp
import CppExamples.WinSock.FileSizeRuns
import CppExamples.WinSock.FileSizeUdp
import CppExamples.WinSock.FileSizeUdpRuns
import CppExamples.Nanomsg.Pair
import CppExamples.Nanomsg.Exchange
import CppExamples.Nanomsg.Circulation
import CppExamples.ConsoleApplication.FindOccurences
import CppExamples.ConsoleApplication.TestSwitch
import CppExamples.Radio.Phone
import CppExamples.Radio.RoundTrip
import CppExamples.Radio.Merge
import CppExamples.Radio.PhoneFile
import CppExamples.Radio.AddToPhoneList
import CppExamples.Radio.Truncated
import CppExamples.Radio.UdpClient
import CppExamples.Radio.Malformed
import CppExamples.Radio.DaytimeServer
import CppExamples.Radio.PhoneService
