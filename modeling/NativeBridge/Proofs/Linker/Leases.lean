import NativeBridge.Proofs.Linker.Lookup
import NativeBridge.Proofs.Resolution.Leases

/-! # Leases of a look-up

The leases that the runtime hands out while a symbol is resolved or looked up are settled when the
answer is there, whatever the answer is. A lease that a failing runtime does not take back is
offered to it once, as every other one.
-/

namespace NativeBridge

variable {W Q : Type}

namespace Nested

open Linker

variable {l : Linker} {symbol : String} {calls : List (Call Q)}

theorem of_made {i : LibraryIndex} {sig : Signature} {function : UInt64}
    {out : Except LinkFault Place × Linker} (h : Made l i sig function out calls) :
    Nested calls := by
  cases h with
  | placed => exact .other rfl rfl rfl rfl (.other rfl rfl rfl rfl .nil)
  | refused => exact .other rfl rfl rfl rfl (.other rfl rfl rfl rfl .nil)

theorem of_attached (h : Attached symbol calls) : Nested calls := by
  cases h with
  | needless => exact .nil
  | asked => exact .other rfl rfl rfl rfl .nil

variable [Journal W] {host : Host W Q} {w : W} {handle : UInt64}

theorem of_functionBridged {i : LibraryIndex} {function : UInt64}
    {out : Except LinkFault Place × Linker}
    (h : FunctionBridged host.runtime w l i symbol function out calls) : Nested calls := by
  cases h with
  | unresolved h => exact of_resolved h
  | undecoded h => exact of_resolved h
  | decoded _ h _ hmade => exact (of_resolved h).append (of_made hmade)

theorem of_bridged {lib : Library} {out : Except LinkFault (Option Place) × Linker}
    (h : Bridged host w l lib handle symbol out calls) : Nested calls := by
  cases h with
  | audio _ hmade => exact of_made hmade
  | unknown => exact .other rfl rfl rfl rfl .nil
  | function _ hattach h =>
    exact .other rfl rfl rfl rfl ((of_attached hattach).append (of_functionBridged h))

theorem of_found {name : RawName} {caller : UInt64} {out : Answer × Linker}
    (h : Found host w l handle name caller out calls) : Nested calls := by
  cases h with
  | passed => exact .other rfl rfl rfl rfl .nil
  | bridged _ h => exact of_bridged h
  | unknown _ h => exact of_bridged h
  | failed _ h => exact of_bridged h

end Nested

namespace Linker

variable [Journal W]

/-- Whatever the runtime answers and the cache holds, each allocation behind a lease is handed back
as often as it was leased and no other is, at no time more often than it was leased before, and the
leases of a list's elements end before the list's own. -/
theorem leases_settled (host : Host W Q) (l : Linker) (cache : Cache) (symbol : String)
    (handle : UInt64) (name : RawName) (caller : UInt64) (w : W) :
    (Traced w (Resolution.resolve host.runtime.recorded symbol cache)
      (Resolution.resolve host.runtime symbol cache)
      fun _ (calls : List (Call Q)) => Settled calls ∧ Nested calls) ∧
    (Traced w (findSymbol host.recorded l handle name caller)
      (findSymbol host l handle name caller)
      fun _ calls => Settled calls ∧ Nested calls) := by
  constructor
  · refine (Resolution.resolve_traced symbol cache).mono fun calls h => ?_
    have hnested := Nested.of_resolved h
    exact ⟨hnested.settled, hnested⟩
  · refine (findSymbol_traced handle name caller).mono fun calls h => ?_
    have hnested := Nested.of_found h
    exact ⟨hnested.settled, hnested⟩

end Linker

end NativeBridge
