import NativeBridge.Config
import NativeBridge.Fault

/-! # Faults in linking

Why a symbol has no descriptor, a library cannot be loaded, or a linker cannot be set up.
-/

namespace NativeBridge

/-- A failed call to the managed runtime. -/
structure IntrospectionFault where
  operation : String
  reason : String
  deriving DecidableEq, Repr

def IntrospectionFault.message (f : IntrospectionFault) : String :=
  s!"{f.operation} failed: {f.reason}"

/-- Why no descriptor is known for a symbol. -/
inductive ResolutionFault
  | demangle (fault : Fault)
  /-- Classes or methods cannot be listed. -/
  | introspection (fault : IntrospectionFault)
  | classNotFound (className : String)
  | methodNotFound (className methodName : String)
  deriving DecidableEq, Repr

def ResolutionFault.message : ResolutionFault → String
  | demangle fault => fault.message
  | introspection fault => s!"runtime introspection failed: {fault.message}"
  | classNotFound className => s!"class {className} not found"
  | methodNotFound className methodName => s!"method {methodName} not found in class {className}"

/-- Why a library is not loaded. -/
inductive LoadDefect
  /-- The build for the host's processor is there, but does not open. -/
  | unopened (path : String)
  | refused (reason : String)
  | nullHandle
  deriving DecidableEq, Repr

def LoadDefect.message : LoadDefect → String
  | unopened path => s!"{path} failed to open"
  | refused reason => reason
  | nullHandle => "emulator returned a null handle"

inductive LinkFault
  | stub (fault : Fault)
  | resolution (symbol : String) (reason : ResolutionFault)
  | load (library : String) (defect : LoadDefect)
  | config (fault : ConfigFault)
  /-- A linker is asked for before there is one. -/
  | notArmed
  deriving DecidableEq, Repr

namespace LinkFault

def message : LinkFault → String
  | stub fault => fault.message
  | resolution symbol reason => s!"failed to resolve signature of {symbol}: {reason.message}"
  | load library defect => s!"failed to load {library}: {defect.message}"
  | config fault => s!"invalid linker config: {fault.message}"
  | notArmed => "linker context is not installed"

/-- The fault in a name, signature or stub that lies behind this one. -/
def source? : LinkFault → Option Fault
  | stub fault => some fault
  | resolution _ (.demangle fault) => some fault
  | _ => none

end LinkFault

/-- How an attempt to set up a linker ends that does not succeed. -/
inductive SetupFailure
  | fault (fault : LinkFault)
  /-- There are no addresses for the cache, which is a panic and not a fault that is returned. -/
  | capacityOverflow
  deriving DecidableEq, Repr

end NativeBridge
