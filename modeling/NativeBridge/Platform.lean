import NativeBridge.Journal
import NativeBridge.Text.Utf8

/-! # The platform's loader

The loader that the host has of its own. It is asked for libraries and symbols by the bytes of
their names, and told which address a request comes from.
-/

namespace NativeBridge

/-- The bytes of a name, without the zero that ends them. -/
abbrev RawName := List UInt8

structure ExtendedInfo where
  flags : UInt64
  reservedAddress : UInt64
  reservedSize : UInt64
  relroFile : Int32
  libraryFile : Int32
  libraryFileOffset : Int64
  libraryNamespace : UInt64
  deriving DecidableEq, Repr

namespace ExtendedInfo

/-- The flag by which the namespace counts. -/
def useNamespace : UInt64 := 0x200

/-- An open in a namespace and nothing else. -/
def inNamespace (libraryNamespace : UInt64) : ExtendedInfo where
  flags := useNamespace
  reservedAddress := 0
  reservedSize := 0
  relroFile := 0
  libraryFile := 0
  libraryFileOffset := 0
  libraryNamespace := libraryNamespace

end ExtendedInfo

/-- A loader in a world `W`. The last argument of a request is the caller's address. -/
structure Platform (W : Type) where
  /-- The handle of a library, or of the program itself if there is no name. -/
  openLibrary : Option RawName → Int32 → UInt64 → StateM W (Option UInt64)
  findSymbol : UInt64 → RawName → UInt64 → StateM W (Option UInt64)
  openExtended : RawName → Int32 → Option ExtendedInfo → UInt64 → StateM W (Option UInt64)
  exportedNamespace : RawName → StateM W (Option UInt64)
  /-- Whether something lies at a path. -/
  hasFile : String → StateM W Bool

namespace Platform

variable {W : Type}

/-- The first of the namespaces that is exported. A name that holds a zero byte cannot be asked
for. -/
def firstNamespace (p : Platform W) : List String → StateM W (Option UInt64)
  | [] => return none
  | name :: others =>
    if '\x00' ∈ name.toList then p.firstNamespace others
    else do
      match ← p.exportedNamespace (Text.encode name) with
      | some found => return some found
      | none => p.firstNamespace others

/-- Opens a library in the first of the namespaces that is exported, or else in none. -/
def openInNamespaces [Journal W] (p : Platform W) (names : List String) (name : RawName)
    (flags : Int32) (caller : UInt64) : StateM W (Option UInt64) := do
  match ← p.firstNamespace names with
  | some found => p.openExtended name flags (some (.inNamespace found)) caller
  | none =>
    note (.noVendorNamespace (Text.decodeLossy name))
    p.openExtended name flags (some (.inNamespace 0)) caller

end Platform

end NativeBridge
