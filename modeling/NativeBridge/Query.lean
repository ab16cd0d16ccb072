import NativeBridge.CodePage
import NativeBridge.Library
import NativeBridge.Platform

/-! # Queries

The questions that programs put to a loader, and the answers. A platform answers every one of them
by itself: opens among the vendor's libraries go to the first namespace that is exported.
-/

namespace NativeBridge

inductive Query
  /-- An open of a library, or of the program itself if there is no name. -/
  | openLibrary (name? : Option RawName) (flags : Int32) (caller : UInt64)
  | openExtended (name : RawName) (flags : Int32) (info : Option ExtendedInfo) (caller : UInt64)
  /-- An open among the vendor's libraries. -/
  | openVendor (name : RawName) (flags : Int32) (caller : UInt64)
  | findSymbol (handle : UInt64) (name : RawName) (caller : UInt64)
  deriving DecidableEq, Repr

inductive Answer
  | nothing
  /-- A handle or an address. -/
  | value (value : UInt64)
  /-- A stub, by its place on the pages of a library. -/
  | stub (library : LibraryIndex) (place : Place)
  deriving DecidableEq, Repr

def Answer.ofValue? : Option UInt64 → Answer
  | none => nothing
  | some v => value v

/-- Puts a query to the platform as it stands. -/
def Platform.answer {W : Type} [Journal W] (p : Platform W) (namespaces : List String) :
    Query → StateM W Answer
  | .openLibrary name? flags caller => .ofValue? <$> p.openLibrary name? flags caller
  | .openExtended name flags info caller => .ofValue? <$> p.openExtended name flags info caller
  | .openVendor name flags caller => .ofValue? <$> p.openInNamespaces namespaces name flags caller
  | .findSymbol handle name caller => .ofValue? <$> p.findSymbol handle name caller

end NativeBridge
