import NativeBridge.Journal

/-! # The managed runtime

The runtime that declares the native methods, as far as it can be looked into. What it lists is
copied out of memory of its own, which has to be given back: a value is leased with the allocation
behind it, and releasing the lease hands the allocation back.
-/

namespace NativeBridge

abbrev Allocation := UInt64

structure ClassRef where
  id : UInt64
  deriving DecidableEq, Repr

structure MethodRef where
  id : UInt64
  deriving DecidableEq, Repr

/-- A value from the runtime; one that no allocation is behind is the caller's own. -/
structure Lease (α : Type) where
  value : α
  allocation? : Option Allocation
  deriving DecidableEq, Repr

structure MethodSignature where
  name : Lease String
  descriptor : Lease String
  deriving DecidableEq, Repr

structure ManagedRuntime (W : Type) where
  /-- The classes that are visible where the native methods are. -/
  loadedClasses : StateM W (Except IntrospectionFault (Lease (List ClassRef)))
  /-- The type descriptor of a class, such as `Lgame/Core;`. -/
  classDescriptor : ClassRef → StateM W (Except IntrospectionFault (Lease String))
  declaredMethods : ClassRef → StateM W (Except IntrospectionFault (Lease (List MethodRef)))
  methodSignature : MethodRef → StateM W (Except IntrospectionFault MethodSignature)
  /-- Gives the calling thread an environment of the runtime. -/
  attachThread : StateM W (Except IntrospectionFault Unit)
  deallocate : Allocation → StateM W (Except IntrospectionFault Unit)

/-- Ends a lease. A failure is noted and changes nothing else. -/
def ManagedRuntime.release {W α : Type} [Journal W] (rt : ManagedRuntime W) (lease : Lease α) :
    StateM W Unit := do
  match lease.allocation? with
  | none => return
  | some allocation =>
    match ← rt.deallocate allocation with
    | .ok () => return
    | .error fault => note (.unreleased allocation fault)

end NativeBridge
