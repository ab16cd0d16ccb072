import NativeBridge.Json.Record
import NativeBridge.Snapshot

/-! # Reading snapshots

Every field of a snapshot has to be given, except that a library without a handle may leave the
handle out.
-/

namespace NativeBridge

open Json

structure LibraryDraft where
  name : Option String := none
  role : Option String := none
  state : Option LibraryState := none
  handle : Option (Option String) := none
  pages : Option UInt64 := none
  bytes : Option UInt64 := none

namespace LibraryDraft

def fields : List (Json.Field LibraryDraft) := [
  { name := "name"
    isFilled := (·.name.isSome)
    fill := fun d => Reader.text.map fun v => { d with name := some v } },
  { name := "role"
    isFilled := (·.role.isSome)
    fill := fun d => Reader.text.map fun v => { d with role := some v } },
  { name := "state"
    isFilled := (·.state.isSome)
    fill := fun d => (Reader.choice LibraryState.ofName?).map fun v => { d with state := some v } },
  { name := "handle"
    isFilled := (·.handle.isSome)
    fill := fun d => Reader.optionalText.map fun v => { d with handle := some v } },
  { name := "trampoline_pages"
    isFilled := (·.pages.isSome)
    fill := fun d => Reader.count.map fun v => { d with pages := some v } },
  { name := "trampoline_bytes"
    isFilled := (·.bytes.isSome)
    fill := fun d => Reader.count.map fun v => { d with bytes := some v } }]

def finished? (d : LibraryDraft) : Option LibrarySnapshot := do
  return {
    name := ← d.name
    role := ← d.role
    state := ← d.state
    handle := d.handle.join
    pages := ← d.pages
    bytes := ← d.bytes }

end LibraryDraft

def LibrarySnapshot.reader : Reader LibrarySnapshot :=
  .record LibraryDraft.fields {} LibraryDraft.finished?

structure SnapshotDraft where
  libraries : Option (List LibrarySnapshot) := none
  cachedSignatures : Option UInt64 := none
  cacheCapacity : Option UInt64 := none
  vulkanLoaderInstalled : Option Bool := none
  vulkanDriverInstalled : Option Bool := none

namespace SnapshotDraft

def fields : List (Json.Field SnapshotDraft) := [
  { name := "libraries"
    isFilled := (·.libraries.isSome)
    fill := fun d => (Reader.list LibrarySnapshot.reader).map fun v =>
      { d with libraries := some v } },
  { name := "cached_signatures"
    isFilled := (·.cachedSignatures.isSome)
    fill := fun d => Reader.count.map fun v => { d with cachedSignatures := some v } },
  { name := "signature_cache_capacity"
    isFilled := (·.cacheCapacity.isSome)
    fill := fun d => Reader.count.map fun v => { d with cacheCapacity := some v } },
  { name := "vulkan_loader_installed"
    isFilled := (·.vulkanLoaderInstalled.isSome)
    fill := fun d => Reader.flag.map fun v => { d with vulkanLoaderInstalled := some v } },
  { name := "vulkan_driver_installed"
    isFilled := (·.vulkanDriverInstalled.isSome)
    fill := fun d => Reader.flag.map fun v => { d with vulkanDriverInstalled := some v } }]

def finished? (d : SnapshotDraft) : Option Snapshot := do
  return {
    libraries := ← d.libraries
    cachedSignatures := ← d.cachedSignatures
    cacheCapacity := ← d.cacheCapacity
    vulkanLoaderInstalled := ← d.vulkanLoaderInstalled
    vulkanDriverInstalled := ← d.vulkanDriverInstalled }

end SnapshotDraft

namespace Snapshot

def reader : Reader Snapshot :=
  .record SnapshotDraft.fields {} SnapshotDraft.finished?

def parse (text : List UInt8) : Except Mishap Snapshot :=
  reader.whole text

end Snapshot

end NativeBridge
