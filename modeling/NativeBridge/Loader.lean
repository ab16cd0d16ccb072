import NativeBridge.Platform

/-! # Loader entry points

The platform's loader as three functions that the host hands over. They answer zero for what they
do not find. A fourth, which tells the namespaces, is looked up with the second one when it is
first asked for, and what was found then is kept, even if it is nothing.
-/

namespace NativeBridge

abbrev OpenFunction (W : Type) := Option RawName → Int32 → UInt64 → StateM W UInt64

abbrev SymbolFunction (W : Type) := UInt64 → RawName → UInt64 → StateM W UInt64

abbrev ExtendedOpenFunction (W : Type) :=
  RawName → Int32 → Option ExtendedInfo → UInt64 → StateM W UInt64

structure Loader (W : Type) where
  openLibrary : OpenFunction W
  findSymbol : SymbolFunction W
  openExtended : ExtendedOpenFunction W

/-- What the entry points run in. -/
structure Surroundings (W : Type) where
  /-- Calls the function that lies at an address with the name of a namespace. -/
  callAt : UInt64 → RawName → StateM W UInt64
  hasFile : String → StateM W Bool
  /-- The address that the linker's own requests come from. -/
  home : UInt64

/-- What is known of the function that tells the namespaces: nothing before the first search,
then whether and where it was found. -/
abbrev NamespaceFunction := Option (Option UInt64)

namespace Loader

variable {W : Type}

/-- What an answer of the entry points says: zero means that nothing was found. -/
def found (address : UInt64) : Option UInt64 :=
  if address = 0 then none else some address

/-- The handle under which all libraries are searched. -/
def everywhere : UInt64 := 0

def namespaceFunctionName : String := "android_get_exported_namespace"

/-- Does something in the world behind the knowledge of the namespace function. -/
def within {α : Type} (action : StateM W α) : StateM (W × NamespaceFunction) α := do
  let (world, known) ← get
  let (a, world) := action world
  set (world, known)
  return a

def namespaceFunction (l : Loader W) (s : Surroundings W) :
    StateM (W × NamespaceFunction) (Option UInt64) := do
  match (← get).2 with
  | some known => return known
  | none =>
    let address ← within (l.findSymbol everywhere (Text.encode namespaceFunctionName) s.home)
    modify fun (world, _) => (world, some (found address))
    return found address

def platform (l : Loader W) (s : Surroundings W) : Platform (W × NamespaceFunction) where
  openLibrary name flags caller := within (found <$> l.openLibrary name flags caller)
  findSymbol handle name caller := within (found <$> l.findSymbol handle name caller)
  openExtended name flags info caller := within (found <$> l.openExtended name flags info caller)
  exportedNamespace name := do
    match ← l.namespaceFunction s with
    | none => return none
    | some address => within (found <$> s.callAt address name)
  hasFile path := within (s.hasFile path)

end Loader

/-- What is known beside a world keeps no journal of its own. -/
instance {W K : Type} [Journal W] : Journal (W × K) where
  take n state := (Journal.take n state.1, state.2)

end NativeBridge
