import NativeBridge.Cache
import NativeBridge.ManagedRuntime
import NativeBridge.Symbol.Reader

/-! # Descriptors of symbols

The descriptor behind a symbol is that of the first method, of the class and with the name that
the symbol spells, whose descriptor holds the parameters that the symbol gives, if it gives any.
Classes and methods that cannot be read are passed over. Every lease ends before the list that
its element came from is released.
-/

namespace NativeBridge.Resolution

variable {W : Type} [Journal W]

def firstClass (rt : ManagedRuntime W) (wanted : String) :
    List ClassRef → StateM W (Option ClassRef)
  | [] => return none
  | ref :: others => do
    match ← rt.classDescriptor ref with
    | .error fault =>
      note (.classSkipped ref.id fault)
      firstClass rt wanted others
    | .ok descriptor =>
      rt.release descriptor
      if descriptor.value = wanted then return some ref else firstClass rt wanted others

def findClass (rt : ManagedRuntime W) (wanted : String) :
    StateM W (Except IntrospectionFault (Option ClassRef)) := do
  match ← rt.loadedClasses with
  | .error fault => return .error fault
  | .ok refs =>
    let found ← firstClass rt wanted refs.value
    rt.release refs
    return .ok found

def fits (m : MethodId) (name descriptor : String) : Bool :=
  name == m.methodName && m.parameters.all (Text.contains descriptor)

def firstMethod (rt : ManagedRuntime W) (m : MethodId) :
    List MethodRef → StateM W (Option String)
  | [] => return none
  | ref :: others => do
    match ← rt.methodSignature ref with
    | .error fault =>
      note (.methodSkipped ref.id fault)
      firstMethod rt m others
    | .ok method =>
      rt.release method.name
      rt.release method.descriptor
      if fits m method.name.value method.descriptor.value then
        return some method.descriptor.value
      else firstMethod rt m others

def findMethod (rt : ManagedRuntime W) (m : MethodId) (ref : ClassRef) :
    StateM W (Except IntrospectionFault (Option String)) := do
  match ← rt.declaredMethods ref with
  | .error fault => return .error fault
  | .ok refs =>
    let found ← firstMethod rt m refs.value
    rt.release refs
    return .ok found

def introspect (rt : ManagedRuntime W) (m : MethodId) :
    StateM W (Except ResolutionFault String) := do
  match ← findClass rt m.classDescriptor with
  | .error fault => return .error (.introspection fault)
  | .ok none => return .error (.classNotFound m.className)
  | .ok (some ref) =>
    match ← findMethod rt m ref with
    | .error fault => return .error (.introspection fault)
    | .ok none => return .error (.methodNotFound m.className m.methodName)
    | .ok (some descriptor) => return .ok descriptor

def lookUp (rt : ManagedRuntime W) (symbol : String) : StateM W (Except LinkFault String) := do
  match Symbol.demangle symbol with
  | .error fault =>
    note (.unreadableSymbol symbol fault)
    return .error (.resolution symbol (.demangle fault))
  | .ok m =>
    match ← introspect rt m with
    | .error reason =>
      note (.unresolved symbol m.className m.methodName reason)
      return .error (.resolution symbol reason)
    | .ok descriptor => return .ok descriptor

/-- The descriptor behind a symbol, and the cache with it. Only what was found is cached. -/
def resolve (rt : ManagedRuntime W) (symbol : String) (cache : Cache) :
    StateM W (Except LinkFault String × Cache) := do
  match cache.get? symbol with
  | some descriptor => return (.ok descriptor, cache)
  | none =>
    match ← lookUp rt symbol with
    | .error fault => return (.error fault, cache)
    | .ok descriptor => return (.ok descriptor, cache.insert symbol descriptor)

end NativeBridge.Resolution
