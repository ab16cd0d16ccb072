import NativeBridge.LinkFault
import NativeBridge.Text.Hex

/-! # The journal

What a linker reports while it goes on: each notice has a level, the part of the linker that it
comes from, and a text. Worlds that keep a journal take down the notices in order.
-/

namespace NativeBridge

inductive Level
  | warn
  | error
  deriving DecidableEq, Repr

def Level.name : Level → String
  | warn => "WARN"
  | error => "ERROR"

inductive Notice
  | unreleased (allocation : UInt64) (fault : IntrospectionFault)
  | classSkipped (id : UInt64) (fault : IntrospectionFault)
  | methodSkipped (id : UInt64) (fault : IntrospectionFault)
  | unreadableSymbol (symbol : String) (fault : Fault)
  | unresolved (symbol className methodName : String) (reason : ResolutionFault)
  | noNativeBuild (path name : String)
  | unbound (fault : LinkFault)
  | unbridged (library : String) (fault : LinkFault)
  | unattached (fault : IntrospectionFault)
  | noVendorNamespace (name : String)
  | noLoader (name : String)
  | incompleteLoader
  deriving DecidableEq, Repr

namespace Notice

def level : Notice → Level
  | unreleased .. | classSkipped .. | methodSkipped .. | noNativeBuild .. | noVendorNamespace ..
  | noLoader .. | incompleteLoader => .warn
  | unreadableSymbol .. | unresolved .. | unbound .. | unbridged .. | unattached .. => .error

def part : Notice → String
  | unreleased .. | classSkipped .. | methodSkipped .. | unreadableSymbol .. | unresolved .. =>
    "RESOLVER"
  | noNativeBuild .. | unbound .. | unbridged .. | unattached .. | noVendorNamespace ..
  | noLoader .. | incompleteLoader => "LINKER"

def text : Notice → String
  | unreleased allocation fault =>
    s!"failed to release runtime allocation {Text.address allocation}: {fault.message}"
  | classSkipped id fault => s!"skipping class {Text.address id}: {fault.message}"
  | methodSkipped id fault => s!"skipping method {Text.address id}: {fault.message}"
  | unreadableSymbol symbol fault =>
    s!"failed to parse native symbol name {symbol}: {fault.message}"
  | unresolved symbol className methodName reason =>
    s!"{symbol} (class {className}, method {methodName}): {reason.message}"
  | noNativeBuild path name =>
    s!"native build {path} not found, loading {name} through the emulator"
  | unbound fault => fault.message
  | unbridged library fault => s!"{library}: {fault.message}"
  | unattached fault => s!"failed to attach audio thread to the runtime: {fault.message}"
  | noVendorNamespace name => s!"no vendor namespace exported; opening {name} without one"
  | noLoader name => s!"no loader entry points; cannot open {name}"
  | incompleteLoader => "ignoring incomplete loader entry points"

def line (n : Notice) : String :=
  s!"{n.level.name} {n.part} {n.text}"

end Notice

class Journal (W : Type) where
  take : Notice → W → W

def note {W : Type} [Journal W] (n : Notice) : StateM W Unit :=
  modify (Journal.take n)

end NativeBridge
