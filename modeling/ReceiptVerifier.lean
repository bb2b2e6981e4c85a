import ReceiptVerifier.Lib.Ber
import ReceiptVerifier.Lib.Traced
import ReceiptVerifier.Lib.Subslice
import ReceiptVerifier.Lib.Attempts
import ReceiptVerifier.Lib.Merge
import ReceiptVerifier.Lib.Rounds
import ReceiptVerifier.Lib.Choice
import ReceiptVerifier.Lib.Counted
import ReceiptVerifier.Lib.FirstCopy
import ReceiptVerifier.Lib.Gregorian
import ReceiptVerifier.Lib.Rfc3339
import ReceiptVerifier.Lib.Utf16
import ReceiptVerifier.Lib.Base64
import ReceiptVerifier.Lib.Rfc8259
import ReceiptVerifier.Lib.JsonReader
import ReceiptVerifier.Lib.Program
import ReceiptVerifier.Lib.World
import ReceiptVerifier.Lib.Lease
import ReceiptVerifier.Lib.Watched
import ReceiptVerifier.Lib.Window
import ReceiptVerifier.Lib.Tally
import ReceiptVerifier.Lib.Rounding
import ReceiptVerifier.Lib.Reader
import ReceiptVerifier.Basic
import ReceiptVerifier.Datetime
import ReceiptVerifier.Openssl.Walk
import ReceiptVerifier.Openssl.Handed
import ReceiptVerifier.Openssl.Certificate
import ReceiptVerifier.Openssl.Path
import ReceiptVerifier.Openssl.Lookup
import ReceiptVerifier.Openssl.Cms
import ReceiptVerifier.Openssl.Payload
import ReceiptVerifier.Payload
import ReceiptVerifier.Path
import ReceiptVerifier.Receipt
import ReceiptVerifier.JsonValue
import ReceiptVerifier.Json
import ReceiptVerifier.Jws
import ReceiptVerifier.Endpoint
import ReceiptVerifier.Verifier
import ReceiptVerifier.Roots
import ReceiptVerifier.Server.Roots
import ReceiptVerifier.Wire
import ReceiptVerifier.Abi
import ReceiptVerifier.Ffi
import ReceiptVerifier.Host
import ReceiptVerifier.Server.Http
import ReceiptVerifier.Server.Serve
import ReceiptVerifier.Server.Runtime
import ReceiptVerifier.Go.Host
import ReceiptVerifier.Go.ReceiptPayload
import ReceiptVerifier.Go.Verifier
import ReceiptVerifier.JavaWasm.Wire
import ReceiptVerifier.Php.Installer
import ReceiptVerifier.Php.Wire
import ReceiptVerifier.Python.Wire
import ReceiptVerifier.Node.Payload
import ReceiptVerifier.JavaWasm.GuestPool
import ReceiptVerifier.JavaWasm.ServerConnection
import ReceiptVerifier.JavaWasm.ServerBinary
import ReceiptVerifier.JavaWasm.ServerProcess
import ReceiptVerifier.JavaWasm.HttpConn
import ReceiptVerifier.Dotnet.InstancePool
import ReceiptVerifier.Java.ReceiptDecoder
import ReceiptVerifier.Java.EndpointResponse
import ReceiptVerifier.Java.Endpoint
import ReceiptVerifier.Java.JwsCore
import ReceiptVerifier.Java.ReceiptCore
import ReceiptVerifier.Java.TopDown
import ReceiptVerifier.Verify.Walk
import ReceiptVerifier.Verify.Envelope
import ReceiptVerifier.Verify.Chunks
import ReceiptVerifier.Verify.Measure
import ReceiptVerifier.Verify.Handed
import ReceiptVerifier.Verify.Judged
import ReceiptVerifier.Verify.Keys
import ReceiptVerifier.Verify.Bag
import ReceiptVerifier.Verify.Payload
import ReceiptVerifier.Verify.Installer
import ReceiptVerifier.Verify.JavaDecoder
import ReceiptVerifier.Verify.Dates
import ReceiptVerifier.Verify.DateLanguage
import ReceiptVerifier.Verify.Renderings
import ReceiptVerifier.Verify.Endpoint
import ReceiptVerifier.Verify.RenderedDates
import ReceiptVerifier.Verify.Values
import ReceiptVerifier.Verify.HostPayload
import ReceiptVerifier.Verify.Hosts
import ReceiptVerifier.Verify.Endpoints
import ReceiptVerifier.Verify.Node
import ReceiptVerifier.Verify.Clock
import ReceiptVerifier.Verify.Content
import ReceiptVerifier.Verify.AttributeOrder
import ReceiptVerifier.Verify.Anchors
import ReceiptVerifier.Verify.BagOrder
import ReceiptVerifier.Verify.Walks
import ReceiptVerifier.Verify.JavaTopDown
import ReceiptVerifier.Verify.Validity
import ReceiptVerifier.Verify.Verdicts
import ReceiptVerifier.Verify.JavaJws
import ReceiptVerifier.Verify.Wire
import ReceiptVerifier.Verify.Ffi
import ReceiptVerifier.Verify.Http
import ReceiptVerifier.Verify.GoHost
import ReceiptVerifier.Verify.Serve
import ReceiptVerifier.Verify.Runtime
import ReceiptVerifier.Verify.Pool
import ReceiptVerifier.Verify.PythonWire
import ReceiptVerifier.Verify.Response
import ReceiptVerifier.Verify.Answers
import ReceiptVerifier.Verify.GoCalls
import ReceiptVerifier.Verify.GoTold
import ReceiptVerifier.Verify.GoVerifier
import ReceiptVerifier.Verify.CountedPools
import ReceiptVerifier.Verify.Compact
import ReceiptVerifier.Verify.Connections
import ReceiptVerifier.Verify.ServerBinary
import ReceiptVerifier.Verify.Supervision
import ReceiptVerifier.Verify.HttpConn
import ReceiptVerifier.Verify.Roots
import ReceiptVerifier.Verify.RootsConfig
import ReceiptVerifier.Verify.RootsText
import ReceiptVerifier.Lib.Permits
import ReceiptVerifier.Python.Host
import ReceiptVerifier.Python.Verifier
import ReceiptVerifier.Verify.PythonCalls
import ReceiptVerifier.Verify.PythonHost
import ReceiptVerifier.Verify.PythonSetup
import ReceiptVerifier.Verify.PythonVerifier
