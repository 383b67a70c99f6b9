import TowerGrpc.Lib.Rust
import TowerGrpc.Lib.Run
import TowerGrpc.Lib.Buf
import TowerGrpc.Lib.Base64
import TowerGrpc.Lib.Percent
import TowerGrpc.Lib.Multimap
import TowerGrpc.Lib.Utf8
import TowerGrpc.Lib.RustPath
import TowerGrpc.Http
import TowerGrpc.Status
import TowerGrpc.Codec.Buf
import TowerGrpc.Codec.Streaming
import TowerGrpc.Codec.Encode
import TowerGrpc.Codec.RoundTrip
import TowerGrpc.Codec.Delivery
import TowerGrpc.Server
import TowerGrpc.Server.ServerStreaming
import TowerGrpc.Client
import TowerGrpc.Call.Response
import TowerGrpc.Call.Request
import TowerGrpc.Call.Unary
import TowerGrpc.Call.ServerStreaming
import TowerGrpc.Metadata.Encoding
import TowerGrpc.Metadata.Value
import TowerGrpc.Metadata.Key
import TowerGrpc.Metadata.Map
import TowerGrpc.Metadata.View
import TowerGrpc.Build.Imports
