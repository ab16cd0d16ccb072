import NativeBridge.Main
import NativeBridge.Gateway.Request
import NativeBridge.Snapshot.Reader
import NativeBridge.Proofs.Arm64.Decoding
import NativeBridge.Proofs.Arm64.Machine
import NativeBridge.Proofs.Arm64.Execution
import NativeBridge.Proofs.Arm64.Operands
import NativeBridge.Proofs.Arm64.Constants
import NativeBridge.Proofs.Call.Convention
import NativeBridge.Proofs.Stub.Moves
import NativeBridge.Proofs.Stub.Marshalling
import NativeBridge.Proofs.Stub.Tags
import NativeBridge.Proofs.Stub.Frame
import NativeBridge.Proofs.Stub.Called
import NativeBridge.Proofs.Stub.Length
import NativeBridge.Proofs.Stub.Delivery
import NativeBridge.Proofs.Stub.Return
import NativeBridge.Proofs.Emulator.Queue
import NativeBridge.Proofs.Action
import NativeBridge.Proofs.Recorded
import NativeBridge.Proofs.Linker.Calls
import NativeBridge.Proofs.Linker.Initializers
import NativeBridge.Proofs.Symbol.Glyphs
import NativeBridge.Proofs.Symbol.Spelling
import NativeBridge.Proofs.Symbol.Reading
import NativeBridge.Proofs.Symbol.RoundTrip
import NativeBridge.Proofs.Resolution.Search
import NativeBridge.Proofs.Linker.Lookup
import NativeBridge.Proofs.Resolution.Leases
import NativeBridge.Proofs.Linker.Leases
import NativeBridge.Proofs.Linker.Opening
import NativeBridge.Proofs.Resolution.Steady
import NativeBridge.Proofs.Linker.Request
import NativeBridge.Proofs.Linker.Run
import NativeBridge.Proofs.Linker.Bindings
import NativeBridge.Proofs.CodePage
import NativeBridge.Proofs.Linker.Stubs
import NativeBridge.Proofs.Arm64.Reach
import NativeBridge.Proofs.Call.Planning
import NativeBridge.Proofs.Stub.Accesses
import NativeBridge.Proofs.Stub.Domain
import NativeBridge.Proofs.Descriptor.Grammar
import NativeBridge.Proofs.Descriptor.Cursor
import NativeBridge.Proofs.CodePage.Filling
import NativeBridge.Proofs.Symbol.Grammar
import NativeBridge.Proofs.Cache
import NativeBridge.Proofs.Cache.History
import NativeBridge.Proofs.Stub.Declared
import NativeBridge.Proofs.Linker.Passing
import NativeBridge.Proofs.Linker.Vulkan
import NativeBridge.Proofs.Gateway.Step
import NativeBridge.Proofs.Gateway.Answers
import NativeBridge.Proofs.Gateway.History
import NativeBridge.Proofs.Call.ClosedForm
import NativeBridge.Proofs.Symbol.Uniqueness
import NativeBridge.Proofs.Descriptor.Arguments
import NativeBridge.Proofs.Resolution.Overload
import NativeBridge.Proofs.Linker.Failure
import NativeBridge.Proofs.Descriptor.Canonical
import NativeBridge.Proofs.Stub.Addresses
import NativeBridge.Proofs.Symbol.Limit
import NativeBridge.Proofs.Json.Reading
import NativeBridge.Proofs.Json.Literal
import NativeBridge.Proofs.Json.Number
import NativeBridge.Proofs.Json.Record
import NativeBridge.Proofs.Snapshot
import NativeBridge.Proofs.Text.Count
import NativeBridge.Proofs.Text.Blank
import NativeBridge.Proofs.Config.Layers
import NativeBridge.Proofs.Signature.Letters
import NativeBridge.Proofs.Inspector.Forms
import NativeBridge.Proofs.Platform.Namespaces
import NativeBridge.Proofs.Loader.NamespaceFunction
import NativeBridge.Proofs.Emulator.Scopes
import NativeBridge.Proofs.Linker.Bridging
import NativeBridge.Proofs.Linker.Scopes
import NativeBridge.Proofs.Arm64.Shortest
import NativeBridge.Proofs.Arm64.Encoding
