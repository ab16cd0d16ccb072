/-! # The emulator

The emulator runs libraries that were built for another processor. The initializers of a library
that it loads are put off: they wait in a queue, which can be put aside for an empty one, replayed,
and made current again.
-/

namespace NativeBridge

structure LoadFlags where
  /-- Every symbol is bound at once. -/
  bindNow : Bool
  /-- The symbols of the library are not seen by others. -/
  isLocal : Bool
  deriving DecidableEq, Repr

namespace LoadFlags

/-- The bit in the flags of an open that asks to bind at once. -/
def nowBit : Int32 := 0x2

/-- The bit in the flags of an open that shows the symbols to others. -/
def globalBit : Int32 := 0x100

def ofOpenFlags (flags : Int32) : LoadFlags where
  bindNow := flags &&& nowBit != 0
  isLocal := flags &&& globalBit == 0

end LoadFlags

/-- An emulator in a world `W`, whose queues put aside are values of `Q`. -/
structure Emulator (W Q : Type) where
  /-- The handle of a library, or the reason why it is not loaded. -/
  load : String → LoadFlags → StateM W (Except String UInt64)
  /-- The address of a symbol among those that a library sees. -/
  findSymbol : UInt64 → String → StateM W (Option UInt64)
  /-- The environment that emulated functions are given in place of the host's. -/
  wrappedEnv : StateM W UInt64
  /-- The host address at which formatted calls enter. -/
  callEntry : StateM W UInt64
  /-- Puts the current queue aside for an empty one. -/
  suspendQueue : StateM W Q
  /-- Runs the initializers of the current queue. -/
  replayQueue : StateM W Unit
  /-- Makes a queue current again. -/
  restoreQueue : Q → StateM W Unit

namespace Emulator

variable {W Q : Type}

/-- The queues that open scopes have put aside, the innermost first. -/
abbrev Scopes (Q : Type) := List Q

inductive ScopeAction
  | enter
  | replay
  | leave
  deriving DecidableEq, Repr

/-- Enters a scope, replays in the innermost one, or leaves it. Outside all scopes there is
nothing to replay or leave. -/
def act (e : Emulator W Q) : Scopes Q → ScopeAction → StateM W (Scopes Q)
  | scopes, .enter => do return (← e.suspendQueue) :: scopes
  | [], .replay | [], .leave => return []
  | saved :: outer, .replay => do
    e.replayQueue
    return saved :: outer
  | saved :: outer, .leave => do
    e.restoreQueue saved
    return outer

def replayInScope (e : Emulator W Q) : StateM W Unit :=
  discard ([.enter, .replay, .leave].foldlM e.act ([] : Scopes Q))

end Emulator

end NativeBridge
