import NativeBridge.Json.Printer

/-! # Snapshots

What can be seen of a linker at one moment: the state of every library, and how full the cache is.
-/

namespace NativeBridge

inductive LibraryState
  | unresolved
  | nativeBound
  | emulatedBound
  deriving DecidableEq, Repr

namespace LibraryState

def name : LibraryState → String
  | unresolved => "unresolved"
  | nativeBound => "native_bound"
  | emulatedBound => "emulated_bound"

def ofName? : String → Option LibraryState
  | "unresolved" => some unresolved
  | "native_bound" => some nativeBound
  | "emulated_bound" => some emulatedBound
  | _ => none

theorem ofName?_name (s : LibraryState) : ofName? s.name = some s := by
  cases s <;> rfl

end LibraryState

structure LibrarySnapshot where
  name : String
  role : String
  state : LibraryState
  handle : Option String
  pages : UInt64
  bytes : UInt64
  deriving DecidableEq, Repr

structure Snapshot where
  libraries : List LibrarySnapshot
  cachedSignatures : UInt64
  cacheCapacity : UInt64
  vulkanLoaderInstalled : Bool
  vulkanDriverInstalled : Bool
  deriving DecidableEq, Repr

open Json

def LibrarySnapshot.print (depth : Nat) (s : LibrarySnapshot) : List Char :=
  printBracket '{' '}' depth [
    printMember "name" (printText s.name),
    printMember "role" (printText s.role),
    printMember "state" (printText s.state.name),
    printMember "handle" (printOptionalText s.handle),
    printMember "trampoline_pages" (printCount s.pages),
    printMember "trampoline_bytes" (printCount s.bytes)]

def Snapshot.print (s : Snapshot) : String :=
  String.ofList (printBracket '{' '}' 0 [
    printMember "libraries" (printBracket '[' ']' 1 (s.libraries.map (LibrarySnapshot.print 2))),
    printMember "cached_signatures" (printCount s.cachedSignatures),
    printMember "signature_cache_capacity" (printCount s.cacheCapacity),
    printMember "vulkan_loader_installed" (printFlag s.vulkanLoaderInstalled),
    printMember "vulkan_driver_installed" (printFlag s.vulkanDriverInstalled)])

end NativeBridge
