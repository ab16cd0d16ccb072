import NativeBridge.Config
import NativeBridge.Json.Record
import NativeBridge.Text.Blank

/-! # Configuration in layers

The variables of the environment go over the fields of a JSON file, and these over the defaults.
Only the result has to be usable.
-/

namespace NativeBridge

/-- The fields that a file gives. -/
structure ConfigDraft where
  nativeDirectory : Option String := none
  cacheCapacity : Option UInt64 := none
  vulkanLoader : Option String := none
  vulkanDriverFragment : Option String := none
  vendorNamespaces : Option (List String) := none
  deriving DecidableEq, Repr

namespace ConfigDraft

open Json

def fields : List (Json.Field ConfigDraft) := [
  { name := "native_library_dir"
    isFilled := (·.nativeDirectory.isSome)
    fill := fun d => Reader.text.map fun v => { d with nativeDirectory := some v } },
  { name := "signature_cache_capacity"
    isFilled := (·.cacheCapacity.isSome)
    fill := fun d => Reader.count.map fun v => { d with cacheCapacity := some v } },
  { name := "vulkan_loader_name"
    isFilled := (·.vulkanLoader.isSome)
    fill := fun d => Reader.text.map fun v => { d with vulkanLoader := some v } },
  { name := "vulkan_driver_fragment"
    isFilled := (·.vulkanDriverFragment.isSome)
    fill := fun d => Reader.text.map fun v => { d with vulkanDriverFragment := some v } },
  { name := "vendor_namespaces"
    isFilled := (·.vendorNamespaces.isSome)
    fill := fun d => (Reader.list .text).map fun v => { d with vendorNamespaces := some v } }]

/-- The draft's fields, and the fields of `base` where the draft has none. -/
def completedBy (d : ConfigDraft) (base : Config) : Config where
  nativeDirectory := d.nativeDirectory.getD base.nativeDirectory
  cacheCapacity := d.cacheCapacity.getD base.cacheCapacity
  vulkanLoader := d.vulkanLoader.getD base.vulkanLoader
  vulkanDriverFragment := d.vulkanDriverFragment.getD base.vulkanDriverFragment
  vendorNamespaces := d.vendorNamespaces.getD base.vendorNamespaces

def reader : Reader ConfigDraft :=
  .record fields {} some

end ConfigDraft

namespace Config

def fileVariable : String := "JB_LINKER_CONFIG"

def directoryVariable : String := "JB_NATIVE_LIBRARY_DIR"

def capacityVariable : String := "JB_SIGNATURE_CACHE_CAPACITY"

def ofJson (text : List UInt8) : Except Json.Mishap Config :=
  (ConfigDraft.reader.whole text).map (·.completedBy {})

def ofFile (read : FileReader) (path : String) : Except ConfigFault Config := do
  let text ← (read path).mapError (.unreadable path)
  (ofJson text).mapError (.unparsable path)

/-- The count that a variable gives, if it is set. -/
def countVariable (lookup : String → Option String) (key : String) :
    Except ConfigFault (Option UInt64) :=
  match lookup key with
  | none => .ok none
  | some text => ((Text.count (Text.trim text)).map some).mapError (.badCount key text)

/-- The configuration that the environment gives, with the values of variables trimmed. -/
def ofVariables (lookup : String → Option String) (read : FileReader) :
    Except ConfigFault Config := do
  let base ← match lookup fileVariable with
    | some path => ofFile read (Text.trim path)
    | none => .ok {}
  let capacity ← countVariable lookup capacityVariable
  let layer : ConfigDraft :=
    { nativeDirectory := (lookup directoryVariable).map Text.trim, cacheCapacity := capacity }
  let config := layer.completedBy base
  config.validate
  return config

end Config

end NativeBridge
