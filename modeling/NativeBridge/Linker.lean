import NativeBridge.Cache
import NativeBridge.CodePage
import NativeBridge.Emulator
import NativeBridge.Library
import NativeBridge.LinkFault
import NativeBridge.ManagedRuntime
import NativeBridge.Platform
import NativeBridge.Snapshot

/-! # The linker

What a linker knows: where each of the known libraries ended up, the pages with the stubs made for
it, the descriptors found so far, and the Vulkan handles that the host installed.
-/

namespace NativeBridge

inductive BindingKind
  | native
  | emulated
  deriving DecidableEq, Repr

/-- Where a library ended up. -/
structure Binding where
  handle : UInt64
  kind : BindingKind
  deriving DecidableEq, Repr

structure Slot where
  binding? : Option Binding
  pages : Pages
  deriving DecidableEq, Repr

/-- Whether the slot answers requests on a handle with stubs. Handle zero stands for no library. -/
def Slot.emulates (s : Slot) (handle : UInt64) : Bool :=
  handle != 0 && s.binding? == some ⟨handle, .emulated⟩

/-- What a linker works with in a world `W`. -/
structure Host (W Q : Type) where
  platform : Platform W
  emulator : Emulator W Q
  runtime : ManagedRuntime W
  /-- The address of the function that answers queries for audio devices. -/
  audioDevices : UInt64

structure Linker where
  config : Config
  cache : Cache
  slots : Vector Slot 10
  /-- Zero if none is installed. -/
  vulkanLoader : UInt64
  /-- Zero if none is installed. -/
  vulkanDriver : UInt64
  deriving DecidableEq, Repr

namespace Linker

def create (config : Config) (pageSize : Nat) : Except SetupFailure Linker := do
  config.validate.mapError fun fault => .fault (.config fault)
  if pageSize = 0 then
    .error (.fault (.config .zeroPageSize))
  else match Cache.reserve? config.cacheCapacity.toNat with
    | none => .error .capacityOverflow
    | some cache => .ok {
        config
        cache
        slots := .replicate 10 ⟨none, .empty pageSize⟩
        vulkanLoader := 0
        vulkanDriver := 0 }

def ofSystem (config : Config) (answer : PageSizeAnswer) : Except SetupFailure Linker := do
  let pageSize ← answer.pageSize.mapError fun defect => .fault (.stub (.noStub defect))
  create config pageSize

def slot (l : Linker) (i : LibraryIndex) : Slot := l.slots.get i

def withSlot (l : Linker) (i : LibraryIndex) (s : Slot) : Linker :=
  { l with slots := l.slots.set i.val s i.isLt }

def withBinding (l : Linker) (i : LibraryIndex) (b : Binding) : Linker :=
  l.withSlot i { l.slot i with binding? := some b }

def withPages (l : Linker) (i : LibraryIndex) (pages : Pages) : Linker :=
  l.withSlot i { l.slot i with pages }

/-- The library whose requests on a handle are answered with stubs. -/
def emulated? (l : Linker) (handle : UInt64) : Option Library :=
  Library.known.toList.find? fun lib => (l.slot lib.index).emulates handle

/-- The Vulkan loader, for the name that stands for it. -/
def vulkanLoaderFor? (l : Linker) (name : String) : Option UInt64 :=
  if name = l.config.vulkanLoader ∧ l.vulkanLoader ≠ 0 then some l.vulkanLoader else none

/-- The Vulkan driver, for names that look like a driver's. -/
def vulkanDriverFor? (l : Linker) (name : String) : Option UInt64 :=
  if Text.contains name l.config.vulkanDriverFragment ∧ l.vulkanDriver ≠ 0 then
    some l.vulkanDriver
  else none

end Linker

def LibraryState.ofBinding : Option Binding → LibraryState
  | none => unresolved
  | some ⟨_, .native⟩ => nativeBound
  | some ⟨_, .emulated⟩ => emulatedBound

def Slot.snapshot (s : Slot) (lib : Library) : LibrarySnapshot where
  name := lib.name
  role := lib.role.name
  state := .ofBinding s.binding?
  handle := s.binding?.map fun b => Text.address b.handle
  pages := .ofNat s.pages.count
  bytes := .ofNat s.pages.bytesUsed

def Linker.snapshot (l : Linker) : Snapshot where
  libraries := Library.known.toList.map fun lib => (l.slot lib.index).snapshot lib
  cachedSignatures := .ofNat l.cache.size
  cacheCapacity := .ofNat l.cache.capacity
  vulkanLoaderInstalled := l.vulkanLoader != 0
  vulkanDriverInstalled := l.vulkanDriver != 0

theorem Slot.emulates_eq_true_iff {s : Slot} {handle : UInt64} :
    s.emulates handle = true ↔ handle ≠ 0 ∧ s.binding? = some ⟨handle, .emulated⟩ := by
  simp [emulates]

theorem Linker.slot_withSlot (l : Linker) (i j : LibraryIndex) (s : Slot) :
    (l.withSlot i s).slot j = if i = j then s else l.slot j := by
  change (l.slots.set i.val s i.isLt)[j.val] = if i = j then s else l.slots[j.val]
  simp only [Vector.getElem_set, Fin.ext_iff]

end NativeBridge
