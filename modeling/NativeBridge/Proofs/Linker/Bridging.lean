import NativeBridge.Proofs.Linker.Lookup

/-! # Who is asked to bridge a symbol

For a symbol of an emulated library the runtime is asked for a descriptor, and the emulator for
the function and for what a stub needs. Nothing is loaded for it, no queue is put aside, and the
platform has no part in it.
-/

namespace NativeBridge

variable {W Q ρ β : Type}

/-- The calls that bridge a symbol. -/
inductive Call.Bridges : Call Q → Prop
  | runtime (c : RuntimeCall) :
    Bridges (.runtime c)
  | findSymbol (handle : UInt64) (symbol : String) (answer : Option UInt64) :
    Bridges (.emulator (.findSymbol handle symbol answer))
  | wrappedEnv (answer : UInt64) :
    Bridges (.emulator (.wrappedEnv answer))
  | callEntry (answer : UInt64) :
    Bridges (.emulator (.callEntry answer))

/-- Whether nobody was asked for anything else than bridging takes. -/
def Bridging (calls : List (Call Q)) : Prop :=
  ∀ c ∈ calls, c.Bridges

variable {calls more : List (Call Q)}

namespace Bridging

theorem nil : Bridging ([] : List (Call Q)) :=
  fun _ h => absurd h List.not_mem_nil

theorem cons {c : Call Q} (hc : c.Bridges) (h : Bridging calls) : Bridging (c :: calls) :=
  List.forall_mem_cons.mpr ⟨hc, h⟩

theorem append (h : Bridging calls) (hmore : Bridging more) : Bridging (calls ++ more) :=
  List.forall_mem_append.mpr ⟨h, hmore⟩

end Bridging

namespace Resolution

theorem Ends.bridging {allocation? : Option Allocation} (h : Ends allocation? calls) :
    Bridging calls := by
  cases h with
  | unbacked => exact .nil
  | backed => exact .cons (.runtime _) .nil

theorem ClassVisit.bridging {wanted : String} {ref : ClassRef} {found : Option ClassRef}
    (h : ClassVisit wanted ref found calls) : Bridging calls := by
  cases h with
  | unreadable => exact .cons (.runtime _) .nil
  | read hends => exact .cons (.runtime _) hends.bridging

theorem MethodVisit.bridging {m : MethodId} {ref : MethodRef} {found : Option String}
    (h : MethodVisit m ref found calls) : Bridging calls := by
  cases h with
  | unreadable => exact .cons (.runtime _) .nil
  | read hname hdescriptor => exact .cons (.runtime _) (hname.bridging.append hdescriptor.bridging)

theorem Search.bridging {Visit : ρ → Option β → List (Call Q) → Prop} {refs : List ρ}
    {found : Option β} (h : Search Visit refs found calls)
    (hvisit : ∀ {ref found calls}, Visit ref found calls → Bridging calls) : Bridging calls := by
  induction h with
  | exhausted => exact .nil
  | found h => exact hvisit h
  | passed h _ ih => exact (hvisit h).append ih

theorem Listing.bridging {list : Except IntrospectionFault (Lease (List ρ)) → RuntimeCall}
    {Visit : ρ → Option β → List (Call Q) → Prop} {outcome : Except IntrospectionFault (Option β)}
    (h : Listing list Visit outcome calls)
    (hvisit : ∀ {ref found calls}, Visit ref found calls → Bridging calls) : Bridging calls := by
  cases h with
  | unlisted => exact .cons (.runtime _) .nil
  | listed hsearch hends =>
    exact .cons (.runtime _) ((hsearch.bridging hvisit).append hends.bridging)

theorem Introspection.bridging {m : MethodId} {outcome : Except ResolutionFault String}
    (h : Introspection m outcome calls) : Bridging calls := by
  cases h with
  | noClasses h => exact h.bridging ClassVisit.bridging
  | noClass h => exact h.bridging ClassVisit.bridging
  | noMethods h h' =>
    exact (h.bridging ClassVisit.bridging).append (h'.bridging MethodVisit.bridging)
  | noMethod h h' =>
    exact (h.bridging ClassVisit.bridging).append (h'.bridging MethodVisit.bridging)
  | described h h' =>
    exact (h.bridging ClassVisit.bridging).append (h'.bridging MethodVisit.bridging)

theorem LookedUp.bridging {symbol : String} {outcome : Except LinkFault String}
    (h : LookedUp symbol outcome calls) : Bridging calls := by
  cases h with
  | unreadable => exact .nil
  | unresolved _ h => exact h.bridging
  | resolved _ h => exact h.bridging

theorem Resolved.bridging {cache : Cache} {symbol : String}
    {out : Except LinkFault String × Cache} (h : Resolved cache symbol out calls) :
    Bridging calls := by
  cases h with
  | cached => exact .nil
  | failed _ h => exact h.bridging
  | added _ h => exact h.bridging

end Resolution

namespace Linker

variable {l : Linker} {i : LibraryIndex} {symbol : String}

theorem Made.bridging {sig : Signature} {function : UInt64}
    {out : Except LinkFault Place × Linker} (h : Made l i sig function out calls) :
    Bridging calls := by
  cases h with
  | placed => exact .cons (.wrappedEnv _) (.cons (.callEntry _) .nil)
  | refused => exact .cons (.wrappedEnv _) (.cons (.callEntry _) .nil)

theorem Attached.bridging (h : Attached symbol calls) : Bridging calls := by
  cases h with
  | needless => exact .nil
  | asked => exact .cons (.runtime _) .nil

variable [Journal W] {host : Host W Q} {w : W}

theorem FunctionBridged.bridging {function : UInt64} {out : Except LinkFault Place × Linker}
    (h : FunctionBridged host.runtime w l i symbol function out calls) : Bridging calls := by
  cases h with
  | unresolved h => exact h.bridging
  | undecoded h => exact h.bridging
  | decoded _ h _ h' => exact h.bridging.append h'.bridging

theorem Bridged.bridging {lib : Library} {handle : UInt64}
    {out : Except LinkFault (Option Place) × Linker}
    (h : Bridged host w l lib handle symbol out calls) : Bridging calls := by
  cases h with
  | audio _ h => exact h.bridging
  | unknown => exact .cons (.findSymbol _ _ _) .nil
  | function _ h h' => exact .cons (.findSymbol _ _ _) (h.bridging.append h'.bridging)

end Linker

end NativeBridge
