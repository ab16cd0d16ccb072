import NativeBridge.Linker
import NativeBridge.Proofs.Recorded

/-! # Calls of a linker

The calls that a linker makes to the platform, the emulator and the managed runtime, each with its
answer, and the collaborators that take them down. A recorded collaborator answers what the one
behind it answers.
-/

namespace NativeBridge

inductive PlatformCall
  | openLibrary (name? : Option RawName) (flags : Int32) (caller : UInt64)
      (answer : Option UInt64)
  | findSymbol (handle : UInt64) (name : RawName) (caller : UInt64) (answer : Option UInt64)
  | openExtended (name : RawName) (flags : Int32) (info : Option ExtendedInfo) (caller : UInt64)
      (answer : Option UInt64)
  | exportedNamespace (name : RawName) (answer : Option UInt64)
  | hasFile (path : String) (answer : Bool)
  deriving DecidableEq

/-- Queues that are put aside are values of `Q`. -/
inductive EmulatorCall (Q : Type)
  | load (name : String) (flags : LoadFlags) (answer : Except String UInt64)
  | findSymbol (handle : UInt64) (symbol : String) (answer : Option UInt64)
  | wrappedEnv (answer : UInt64)
  | callEntry (answer : UInt64)
  | suspendQueue (answer : Q)
  | replayQueue
  | restoreQueue (saved : Q)

inductive RuntimeCall
  | loadedClasses (answer : Except IntrospectionFault (Lease (List ClassRef)))
  | classDescriptor (ref : ClassRef) (answer : Except IntrospectionFault (Lease String))
  | declaredMethods (ref : ClassRef) (answer : Except IntrospectionFault (Lease (List MethodRef)))
  | methodSignature (ref : MethodRef) (answer : Except IntrospectionFault MethodSignature)
  | attachThread (answer : Except IntrospectionFault Unit)
  | deallocate (allocation : Allocation) (answer : Except IntrospectionFault Unit)

inductive Call (Q : Type)
  | platform (c : PlatformCall)
  | emulator (c : EmulatorCall Q)
  | runtime (c : RuntimeCall)

variable {W Q : Type}

def Platform.recorded (p : Platform W) : Platform (Recorded W (Call Q)) where
  openLibrary name flags caller :=
    recording (p.openLibrary name flags caller) (.platform ∘ .openLibrary name flags caller)
  findSymbol handle name caller :=
    recording (p.findSymbol handle name caller) (.platform ∘ .findSymbol handle name caller)
  openExtended name flags info caller :=
    recording (p.openExtended name flags info caller)
      (.platform ∘ .openExtended name flags info caller)
  exportedNamespace name :=
    recording (p.exportedNamespace name) (.platform ∘ .exportedNamespace name)
  hasFile path := recording (p.hasFile path) (.platform ∘ .hasFile path)

def Emulator.recorded (e : Emulator W Q) : Emulator (Recorded W (Call Q)) Q where
  load name flags := recording (e.load name flags) (.emulator ∘ .load name flags)
  findSymbol handle symbol :=
    recording (e.findSymbol handle symbol) (.emulator ∘ .findSymbol handle symbol)
  wrappedEnv := recording e.wrappedEnv (.emulator ∘ .wrappedEnv)
  callEntry := recording e.callEntry (.emulator ∘ .callEntry)
  suspendQueue := recording e.suspendQueue (.emulator ∘ .suspendQueue)
  replayQueue := recording e.replayQueue fun _ => .emulator .replayQueue
  restoreQueue saved := recording (e.restoreQueue saved) fun _ => .emulator (.restoreQueue saved)

theorem Emulator.replayQueue_traced {e : Emulator W Q} {w : W} :
    Traced w e.recorded.replayQueue e.replayQueue
      fun _ calls => calls = [.emulator .replayQueue] :=
  ⟨_, fun _ => rfl, rfl⟩

theorem Emulator.restoreQueue_traced {e : Emulator W Q} {saved : Q} {w : W} :
    Traced w (e.recorded.restoreQueue saved) (e.restoreQueue saved)
      fun _ calls => calls = [.emulator (.restoreQueue saved)] :=
  ⟨_, fun _ => rfl, rfl⟩

def ManagedRuntime.recorded (rt : ManagedRuntime W) : ManagedRuntime (Recorded W (Call Q)) where
  loadedClasses := recording rt.loadedClasses (.runtime ∘ .loadedClasses)
  classDescriptor ref := recording (rt.classDescriptor ref) (.runtime ∘ .classDescriptor ref)
  declaredMethods ref := recording (rt.declaredMethods ref) (.runtime ∘ .declaredMethods ref)
  methodSignature ref := recording (rt.methodSignature ref) (.runtime ∘ .methodSignature ref)
  attachThread := recording rt.attachThread (.runtime ∘ .attachThread)
  deallocate allocation :=
    recording (rt.deallocate allocation) (.runtime ∘ .deallocate allocation)

def Host.recorded (host : Host W Q) : Host (Recorded W (Call Q)) Q where
  platform := host.platform.recorded
  emulator := host.emulator.recorded
  runtime := host.runtime.recorded
  audioDevices := host.audioDevices

end NativeBridge
