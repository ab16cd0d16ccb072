import NativeBridge.Linker.Request
import NativeBridge.Proofs.Linker.Lookup
import NativeBridge.Proofs.Linker.Opening
import NativeBridge.Proofs.Platform.Namespaces

/-! # Calls of a request

What comes of a request for all answers of the collaborators, and what it can do to the slots of
the linker: nothing, one binding, or one stub.
-/

namespace NativeBridge

variable {W Q : Type}

def OfPlatform (calls : List (Call Q)) : Prop :=
  ∀ c ∈ calls, ∃ p, c = .platform p

namespace OfPlatform

theorem nil : OfPlatform ([] : List (Call Q)) :=
  fun _ h => absurd h List.not_mem_nil

theorem cons {p : PlatformCall} {calls : List (Call Q)} (h : OfPlatform calls) :
    OfPlatform (.platform p :: calls) :=
  List.forall_mem_cons.mpr ⟨⟨p, rfl⟩, h⟩

theorem append {calls more : List (Call Q)} (h : OfPlatform calls) (hmore : OfPlatform more) :
    OfPlatform (calls ++ more) :=
  List.forall_mem_append.mpr ⟨h, hmore⟩

end OfPlatform

theorem Answer.ofValue?_ne_stub (value? : Option UInt64) (i : LibraryIndex) (place : Place) :
    Answer.ofValue? value? ≠ .stub i place := by
  cases value? with
  | none => exact Answer.noConfusion
  | some value => exact Answer.noConfusion

namespace Platform

variable {calls : List (Call Q)}

theorem NamespacesAsked.ofPlatform {names : List String} {found? : Option UInt64}
    (h : NamespacesAsked names found? calls) : OfPlatform calls := by
  induction h with
  | exhausted => exact .nil
  | found => exact .cons .nil
  | passed _ ih => exact .cons ih

theorem OpenedInNamespaces.ofPlatform {names : List String} {name : RawName} {flags : Int32}
    {caller : UInt64} {answer : Option UInt64}
    (h : OpenedInNamespaces names name flags caller answer calls) : OfPlatform calls := by
  cases h with
  | mk _ hasked => exact hasked.ofPlatform.append (.cons .nil)

end Platform

namespace Linker

variable {host : Host W Q} {w : W} {l : Linker}

/-- What comes of a request in the world `w`. -/
inductive Performed [Journal W] (host : Host W Q) (w : W) (l : Linker) :
    Request → Answer × Linker → List (Call Q) → Prop
  | opened {name? : Option RawName} {flags : Int32} {caller : UInt64} {answer : Option UInt64}
      {l' : Linker} {calls : List (Call Q)} :
    Opened l flags caller name? (answer, l') calls →
    Performed host w l (.query (.openLibrary name? flags caller)) (.ofValue? answer, l') calls
  | openedExtended {name : RawName} {flags : Int32} {info : Option ExtendedInfo} {caller : UInt64}
      (answer : Option UInt64) {calls : List (Call Q)} :
    OfPlatform calls →
    Performed host w l (.query (.openExtended name flags info caller)) (.ofValue? answer, l) calls
  | openedVendor {name : RawName} {flags : Int32} {caller : UInt64} (answer : Option UInt64)
      {calls : List (Call Q)} :
    OfPlatform calls →
    Performed host w l (.query (.openVendor name flags caller)) (.ofValue? answer, l) calls
  | found {handle : UInt64} {name : RawName} {caller : UInt64} {out : Answer × Linker}
      {calls : List (Call Q)} :
    Found host w l handle name caller out calls →
    Performed host w l (.query (.findSymbol handle name caller)) out calls
  | loaderSet (handle : UInt64) :
    Performed host w l (.setVulkanLoader handle) (.nothing, { l with vulkanLoader := handle }) []
  | driverSet (handle : UInt64) :
    Performed host w l (.setVulkanDriver handle) (.nothing, { l with vulkanDriver := handle }) []

theorem openExtended_traced (name : RawName) (flags : Int32) (info : Option ExtendedInfo)
    (caller : UInt64) :
    Traced w (l.openExtended host.recorded name flags info caller)
      (l.openExtended host name flags info caller)
      fun _ (calls : List (Call Q)) => OfPlatform calls := by
  unfold openExtended
  cases l.vulkanDriverFor? (Text.decodeLossy name) with
  | some handle => exact .pure .nil
  | none => exact .recording (.cons .nil)

variable [Journal W]

theorem openVendor_traced (name : RawName) (flags : Int32) (caller : UInt64) :
    Traced w (l.openVendor host.recorded name flags caller) (l.openVendor host name flags caller)
      fun _ (calls : List (Call Q)) => OfPlatform calls := by
  unfold openVendor
  cases l.vulkanDriverFor? (Text.decodeLossy name) with
  | some handle => exact .pure .nil
  | none =>
    apply (Platform.openInNamespaces_traced _ name flags caller).mono
    exact fun _ h => h.ofPlatform

theorem perform_traced (request : Request) :
    Traced w (l.perform host.recorded request) (l.perform host request)
      (Performed host w l request) := by
  cases request with
  | setVulkanLoader handle => exact .pure (.loaderSet handle)
  | setVulkanDriver handle => exact .pure (.driverSet handle)
  | query q =>
    cases q with
    | openLibrary name? flags caller =>
      exact .bind (openLibrary_traced name?) fun _ hcalls => .done (.opened hcalls)
    | openExtended name flags info caller =>
      refine .bind (openExtended_traced name flags info caller) fun _ hcalls => ?_
      exact .done (.openedExtended _ hcalls)
    | openVendor name flags caller =>
      refine .bind (openVendor_traced name flags caller) fun _ hcalls => ?_
      exact .done (.openedVendor _ hcalls)
    | findSymbol handle name caller =>
      exact (findSymbol_traced handle name caller).mono fun _ => .found

/-- What a request in the world `w` does to the slots. -/
inductive SlotsChange (host : Host W Q) (w : W) (l : Linker) :
    Request → Answer × Linker → List (Call Q) → Prop
  | kept {request : Request} {answer : Answer} {l' : Linker} {calls : List (Call Q)} :
    l'.slots = l.slots → l'.config = l.config → (∀ i place, answer ≠ .stub i place) →
    SlotsChange host w l request (answer, l') calls
  | binding {raw : RawName} {flags : Int32} {caller : UInt64} {lib : Library} {b : Binding}
      {calls : List (Call Q)} :
    Library.forFilename? (Text.decodeLossy raw) = some lib →
    (l.slot lib.index).binding? = none →
    Attempt (nativePath l.config (Text.decodeLossy raw)) (Text.decodeLossy raw) flags caller
      lib.policy (.ok b) calls →
    SlotsChange host w l (.query (.openLibrary (some raw) flags caller))
      (.value b.handle, l.withBinding lib.index b) calls
  | stub {handle : UInt64} {name : RawName} {caller : UInt64} {lib : Library} {place : Place}
      {l' : Linker} {calls : List (Call Q)} :
    l.emulated? handle = some lib →
    Placed host w l lib handle (Text.decodeLossy name) (place, l') calls →
    SlotsChange host w l (.query (.findSymbol handle name caller)) (.stub lib.index place, l') calls

theorem Performed.slotsChange {request : Request} {out : Answer × Linker} {calls : List (Call Q)}
    (h : Performed host w l request out calls) : SlotsChange host w l request out calls := by
  cases h with
  | opened h =>
    cases h with
    | program answer => exact .kept rfl rfl (Answer.ofValue?_ne_stub _)
    | redirected => exact .kept rfl rfl (Answer.ofValue?_ne_stub _)
    | passed answer => exact .kept rfl rfl (Answer.ofValue?_ne_stub _)
    | known hlib h =>
      cases h with
      | repeated => exact .kept rfl rfl (Answer.ofValue?_ne_stub _)
      | failed => exact .kept rfl rfl (Answer.ofValue?_ne_stub _)
      | bound hfree hattempt => exact .binding hlib hfree hattempt
  | openedExtended => exact .kept rfl rfl (Answer.ofValue?_ne_stub _)
  | openedVendor => exact .kept rfl rfl (Answer.ofValue?_ne_stub _)
  | loaderSet => exact .kept rfl rfl (Answer.ofValue?_ne_stub none)
  | driverSet => exact .kept rfl rfl (Answer.ofValue?_ne_stub none)
  | found h =>
    cases h with
    | passed => exact .kept rfl rfl (Answer.ofValue?_ne_stub _)
    | bridged hlib h => exact .stub hlib h.placed
    | unknown _ h =>
      obtain ⟨hslots, hconfig, -⟩ := h.unplaced fun place => nofun
      exact .kept hslots hconfig (Answer.ofValue?_ne_stub none)
    | failed _ h =>
      obtain ⟨hslots, hconfig, -⟩ := h.unplaced fun place => nofun
      exact .kept hslots hconfig (Answer.ofValue?_ne_stub none)

end Linker

end NativeBridge
