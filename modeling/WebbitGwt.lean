import WebbitGwt.Transition.Core
import WebbitGwt.Exchange.Core
import WebbitGwt.Exchange.Conservation
import WebbitGwt.Java.Basic
import WebbitGwt.Java.Collections
import WebbitGwt.Rpc.Message
import WebbitGwt.Tokens.Core
import WebbitGwt.Rpc.CustomFieldSerializers
import WebbitGwt.Rpc.Callbacks
import WebbitGwt.Rpc.ServerImpl
import WebbitGwt.Rpc.WorkerEndpoint
import WebbitGwt.Rpc.RpcEndpoint
import WebbitGwt.Rpc.ClientProxies
import WebbitGwt.Rpc.Traffic
import WebbitGwt.Rpc.WebSocket
import WebbitGwt.Rpc.WorkerPair
import WebbitGwt.Rpc.ArbitraryPeer
import WebbitGwt.Rpc.FailedCall
import WebbitGwt.Rpc.CallbackIds
import WebbitGwt.Rpc.ReplyCallbacks
import WebbitGwt.Rpc.RemoteMethods
import WebbitGwt.Rpc.HandlingErrors
import WebbitGwt.Rebind.RemoteEndpointCreator
import WebbitGwt.Rebind.Overloads
import WebbitGwt.Rebind.ExactDispatch
import WebbitGwt.Rebind.ServerDispatch
import WebbitGwt.Rebind.NullCallbacks
import WebbitGwt.Rebind.SerializableTypes
import WebbitGwt.Rebind.MirroredTypes
import WebbitGwt.Nio.Bytes
import WebbitGwt.Nio.Buffer
import WebbitGwt.Java.Floating
import WebbitGwt.Stream.Value
import WebbitGwt.Stream.StreamWriter
import WebbitGwt.Stream.StreamReader
import WebbitGwt.Stream.Payload
import WebbitGwt.Stream.Growth
import WebbitGwt.Stream.Capacity
import WebbitGwt.Stream.GrowthInvariant
import WebbitGwt.Stream.Reading
import WebbitGwt.Stream.WorkerFormat
import WebbitGwt.Stream.Window
import WebbitGwt.Java.JString
import WebbitGwt.Stream.SocketData
import WebbitGwt.Stream.SocketFormat
import WebbitGwt.Stream.Deflate
import WebbitGwt.Stream.Header
import WebbitGwt.Stream.Transports
import WebbitGwt.Graph.Preorder
import WebbitGwt.Stream.ObjectStreams
import WebbitGwt.Stream.ObjectRoundTrip
import WebbitGwt.Stream.ObjectGraph
import WebbitGwt.Rpc.WorkerMessages
import WebbitGwt.Graph.Unfolding
import WebbitGwt.Rpc.WirePair
import WebbitGwt.Rpc.WorkerChannel
import WebbitGwt.Samples.SharedChat
import WebbitGwt.Samples.EasyChatRoom
import WebbitGwt.Rpc.UserCode
import WebbitGwt.Pako.Strings
import WebbitGwt.Pako.Adler32
import WebbitGwt.Transition.DoWhile
import WebbitGwt.Pako.ZlibDeflate
import WebbitGwt.Pako.Deflate
import WebbitGwt.Pako.ZlibInflate
import WebbitGwt.Pako.Inflate
import WebbitGwt.Transition.Transducer
import WebbitGwt.Pako.Blocks
import WebbitGwt.Stream.SocketTransfer
