import NativeBridge.Gateway
import NativeBridge.Proofs.Action

/-! # Who answers

A query to the gateway is answered by the linker if there is one, by the entry points if there are
any, and otherwise by nobody.
-/

namespace NativeBridge

variable {W Q : Type}

/-- The call of an entry point that a query is. Opens among the vendor's libraries are none. -/
inductive Loader.Asked (l : Loader W) : Query → StateM W UInt64 → Prop
  | openLibrary (name? : Option RawName) (flags : Int32) (caller : UInt64) :
    Asked l (.openLibrary name? flags caller) (l.openLibrary name? flags caller)
  | openExtended (name : RawName) (flags : Int32) (info : Option ExtendedInfo) (caller : UInt64) :
    Asked l (.openExtended name flags info caller) (l.openExtended name flags info caller)
  | findSymbol (handle : UInt64) (name : RawName) (caller : UInt64) :
    Asked l (.findSymbol handle name caller) (l.findSymbol handle name caller)

namespace Gateway

variable [Journal W]

/-- What comes of a query in the world `w`. -/
inductive Answered (s : Surroundings W) (g : Gateway W Q) (w : W) :
    Query → (Answer × Gateway W Q) × W → Prop
  | linker {a : Armed W Q} {q : Query} {answer : Answer} {l : Linker} {w' : W} :
    g.armed? = some a → a.linker.answer a.host q w = ((answer, l), w') →
    Answered s g w q ((answer, { g with armed? := some { a with linker := l } }), w')
  | entryPoint {i : Installed W} {q : Query} {call : StateM W UInt64} :
    g.armed? = none → g.loader? = some i → i.loader.Asked q call →
    Answered s g w q ((.ofValue? (Loader.found (call w).1), g), (call w).2)
  /-- Among the vendor's libraries the first namespace that is exported counts. -/
  | vendor {i : Installed W} {name : RawName} {flags : Int32} {caller : UInt64}
      {value? : Option UInt64} {known : NamespaceFunction} {w' : W} :
    g.armed? = none → g.loader? = some i →
    (i.loader.platform s).openInNamespaces ({} : Config).vendorNamespaces name flags caller
      (w, i.known) = (value?, (w', known)) →
    Answered s g w (.openVendor name flags caller)
      ((.ofValue? value?, { g with loader? := some { i with known } }), w')
  | nobody {q : Query} :
    g.armed? = none → g.loader? = none →
    Answered s g w q ((.nothing, g), (unanswered q w).2)

theorem answered (s : Surroundings W) (g : Gateway W Q) (w : W) (q : Query) :
    Answered s g w q (g.answer s q w) := by
  obtain ⟨armed?, loader?, vulkanLoader, vulkanDriver⟩ := g
  cases armed? with
  | some a => exact .linker rfl rfl
  | none =>
    cases loader? with
    | none => exact .nobody rfl rfl
    | some i =>
      cases q with
      | openLibrary name? flags caller =>
        exact .entryPoint rfl rfl (.openLibrary name? flags caller)
      | openExtended name flags info caller =>
        exact .entryPoint rfl rfl (.openExtended name flags info caller)
      | openVendor name flags caller => exact .vendor rfl rfl rfl
      | findSymbol handle name caller =>
        exact .entryPoint rfl rfl (.findSymbol handle name caller)

end Gateway

end NativeBridge
