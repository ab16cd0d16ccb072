import NativeBridge.Proofs.Linker.Calls
import NativeBridge.Resolution

/-! # Calls of a resolution

What the runtime is asked on the way to a descriptor: the classes are listed and searched, then the
methods of the class that was found. The relations here say which calls lead to which outcome, for
all answers of the runtime, and a recorded resolution makes such calls.
-/

namespace NativeBridge.Resolution

variable {W Q ρ β : Type}

/-- The calls that end a lease with this allocation behind it. -/
inductive Ends : Option Allocation → List (Call Q) → Prop
  | unbacked : Ends none []
  | backed (allocation : Allocation) (answer : Except IntrospectionFault Unit) :
    Ends (some allocation) [.runtime (.deallocate allocation answer)]

/-- A search among references: `Visit` tells what comes out of one reference, and the first one
out of which something comes ends the search. -/
inductive Search (Visit : ρ → Option β → List (Call Q) → Prop) :
    List ρ → Option β → List (Call Q) → Prop
  | exhausted : Search Visit [] none []
  | found {ref : ρ} {others : List ρ} {b : β} {calls : List (Call Q)} :
    Visit ref (some b) calls → Search Visit (ref :: others) (some b) calls
  | passed {ref : ρ} {others : List ρ} {found : Option β} {calls more : List (Call Q)} :
    Visit ref none calls → Search Visit others found more →
    Search Visit (ref :: others) found (calls ++ more)

/-- A search among the references of a leased list, which `list` asks for. -/
inductive Listing (list : Except IntrospectionFault (Lease (List ρ)) → RuntimeCall)
    (Visit : ρ → Option β → List (Call Q) → Prop) :
    Except IntrospectionFault (Option β) → List (Call Q) → Prop
  | unlisted (fault : IntrospectionFault) :
    Listing list Visit (.error fault) [.runtime (list (.error fault))]
  | listed {refs : Lease (List ρ)} {found : Option β} {calls release : List (Call Q)} :
    Search Visit refs.value found calls → Ends refs.allocation? release →
    Listing list Visit (.ok found) (.runtime (list (.ok refs)) :: (calls ++ release))

/-- What comes out of a class when one with the descriptor `wanted` is searched. -/
inductive ClassVisit (wanted : String) : ClassRef → Option ClassRef → List (Call Q) → Prop
  | unreadable (ref : ClassRef) (fault : IntrospectionFault) :
    ClassVisit wanted ref none [.runtime (.classDescriptor ref (.error fault))]
  | read {ref : ClassRef} {descriptor : Lease String} {release : List (Call Q)} :
    Ends descriptor.allocation? release →
    ClassVisit wanted ref (if descriptor.value = wanted then some ref else none)
      (.runtime (.classDescriptor ref (.ok descriptor)) :: release)

/-- What comes out of a method when one that a symbol spells is searched. -/
inductive MethodVisit (m : MethodId) : MethodRef → Option String → List (Call Q) → Prop
  | unreadable (ref : MethodRef) (fault : IntrospectionFault) :
    MethodVisit m ref none [.runtime (.methodSignature ref (.error fault))]
  | read {ref : MethodRef} {method : MethodSignature} {release release' : List (Call Q)} :
    Ends method.name.allocation? release → Ends method.descriptor.allocation? release' →
    MethodVisit m ref
      (if fits m method.name.value method.descriptor.value then some method.descriptor.value
        else none)
      (.runtime (.methodSignature ref (.ok method)) :: (release ++ release'))

abbrev ClassListing (wanted : String) :
    Except IntrospectionFault (Option ClassRef) → List (Call Q) → Prop :=
  Listing .loadedClasses (ClassVisit wanted)

abbrev MethodListing (m : MethodId) (ref : ClassRef) :
    Except IntrospectionFault (Option String) → List (Call Q) → Prop :=
  Listing (.declaredMethods ref) (MethodVisit m)

inductive Introspection (m : MethodId) :
    Except ResolutionFault String → List (Call Q) → Prop
  | noClasses {fault : IntrospectionFault} {calls : List (Call Q)} :
    ClassListing m.classDescriptor (.error fault) calls →
    Introspection m (.error (.introspection fault)) calls
  | noClass {calls : List (Call Q)} :
    ClassListing m.classDescriptor (.ok none) calls →
    Introspection m (.error (.classNotFound m.className)) calls
  | noMethods {ref : ClassRef} {fault : IntrospectionFault} {calls more : List (Call Q)} :
    ClassListing m.classDescriptor (.ok (some ref)) calls →
    MethodListing m ref (.error fault) more →
    Introspection m (.error (.introspection fault)) (calls ++ more)
  | noMethod {ref : ClassRef} {calls more : List (Call Q)} :
    ClassListing m.classDescriptor (.ok (some ref)) calls →
    MethodListing m ref (.ok none) more →
    Introspection m (.error (.methodNotFound m.className m.methodName)) (calls ++ more)
  | described {ref : ClassRef} {descriptor : String} {calls more : List (Call Q)} :
    ClassListing m.classDescriptor (.ok (some ref)) calls →
    MethodListing m ref (.ok (some descriptor)) more →
    Introspection m (.ok descriptor) (calls ++ more)

/-- A search for the descriptor behind a symbol. -/
inductive LookedUp (symbol : String) : Except LinkFault String → List (Call Q) → Prop
  | unreadable {fault : Fault} :
    Symbol.demangle symbol = .error fault →
    LookedUp symbol (.error (.resolution symbol (.demangle fault))) []
  | unresolved {m : MethodId} {reason : ResolutionFault} {calls : List (Call Q)} :
    Symbol.demangle symbol = .ok m → Introspection m (.error reason) calls →
    LookedUp symbol (.error (.resolution symbol reason)) calls
  | resolved {m : MethodId} {descriptor : String} {calls : List (Call Q)} :
    Symbol.demangle symbol = .ok m → Introspection m (.ok descriptor) calls →
    LookedUp symbol (.ok descriptor) calls

/-- A search that a cache is asked before, and what it leaves of the cache. -/
inductive Resolved (cache : Cache) (symbol : String) :
    Except LinkFault String × Cache → List (Call Q) → Prop
  | cached {descriptor : String} :
    cache.get? symbol = some descriptor → Resolved cache symbol (.ok descriptor, cache) []
  | failed {fault : LinkFault} {calls : List (Call Q)} :
    cache.get? symbol = none → LookedUp symbol (.error fault) calls →
    Resolved cache symbol (.error fault, cache) calls
  | added {descriptor : String} {calls : List (Call Q)} :
    cache.get? symbol = none → LookedUp symbol (.ok descriptor) calls →
    Resolved cache symbol (.ok descriptor, cache.insert symbol descriptor) calls

variable [Journal W] {rt : ManagedRuntime W} {w : W}

theorem release_traced {α : Type} (lease : Lease α) :
    Traced w (rt.recorded.release lease) (rt.release lease)
      fun _ calls => Ends (Q := Q) lease.allocation? calls := by
  obtain ⟨value, allocation?⟩ := lease
  cases allocation? with
  | none => exact .pure .unbacked
  | some allocation =>
    refine .recording_bind ?_
    cases (rt.deallocate allocation w).1 with
    | ok => exact .pure (.backed allocation _)
    | error fault => exact .note (.backed allocation _)

theorem firstClass_traced (wanted : String) (refs : List ClassRef) :
    Traced w (firstClass rt.recorded wanted refs) (firstClass rt wanted refs)
      (Search (Q := Q) (ClassVisit wanted) refs) := by
  induction refs generalizing w with
  | nil => exact .pure .exhausted
  | cons ref others ih =>
    refine .recording_bind ?_
    cases (rt.classDescriptor ref w).1 with
    | error fault => exact .note_bind (ih.mono fun _ h => .passed (.unreadable ref fault) h)
    | ok descriptor =>
      refine .bind (release_traced descriptor) fun release hrelease => ?_
      have hvisit : ClassVisit wanted ref _ _ := .read hrelease
      by_cases hwanted : descriptor.value = wanted
      · rw [if_pos hwanted] at hvisit ⊢
        rw [if_pos hwanted]
        refine .pure ?_
        rw [List.append_nil]
        exact .found hvisit
      · rw [if_neg hwanted] at hvisit ⊢
        rw [if_neg hwanted]
        exact ih.mono fun _ h => .passed hvisit h

theorem firstMethod_traced (m : MethodId) (refs : List MethodRef) :
    Traced w (firstMethod rt.recorded m refs) (firstMethod rt m refs)
      (Search (Q := Q) (MethodVisit m) refs) := by
  induction refs generalizing w with
  | nil => exact .pure .exhausted
  | cons ref others ih =>
    refine .recording_bind ?_
    cases (rt.methodSignature ref w).1 with
    | error fault => exact .note_bind (ih.mono fun _ h => .passed (.unreadable ref fault) h)
    | ok method =>
      refine .bind (release_traced method.name) fun release hrelease => ?_
      refine .bind (release_traced method.descriptor) fun release' hrelease' => ?_
      have hvisit : MethodVisit m ref _ _ := .read hrelease hrelease'
      by_cases hfits : fits m method.name.value method.descriptor.value
      · rw [if_pos hfits] at hvisit ⊢
        rw [if_pos hfits]
        refine .pure ?_
        rw [List.append_nil]
        exact .found hvisit
      · rw [if_neg hfits] at hvisit ⊢
        rw [if_neg hfits]
        refine ih.mono fun _ h => ?_
        rw [← List.append_assoc]
        exact .passed hvisit h

theorem findClass_traced (wanted : String) :
    Traced w (findClass rt.recorded wanted) (findClass rt wanted)
      (ClassListing (Q := Q) wanted) := by
  refine .recording_bind ?_
  cases (rt.loadedClasses w).1 with
  | error fault => exact .pure (.unlisted fault)
  | ok refs =>
    refine .bind (firstClass_traced wanted refs.value) fun calls hcalls => ?_
    refine .bind (release_traced refs) fun release hrelease => .pure ?_
    rw [List.append_nil]
    exact .listed hcalls hrelease

theorem findMethod_traced (m : MethodId) (ref : ClassRef) :
    Traced w (findMethod rt.recorded m ref) (findMethod rt m ref)
      (MethodListing (Q := Q) m ref) := by
  refine .recording_bind ?_
  cases (rt.declaredMethods ref w).1 with
  | error fault => exact .pure (.unlisted fault)
  | ok refs =>
    refine .bind (firstMethod_traced m refs.value) fun calls hcalls => ?_
    refine .bind (release_traced refs) fun release hrelease => .pure ?_
    rw [List.append_nil]
    exact .listed hcalls hrelease

theorem introspect_traced (m : MethodId) :
    Traced w (introspect rt.recorded m) (introspect rt m) (Introspection (Q := Q) m) := by
  refine .bind (findClass_traced m.classDescriptor) fun calls hclass => ?_
  cases hfound : (findClass rt m.classDescriptor w).1 with
  | error fault =>
    rw [hfound] at hclass
    exact .done (.noClasses hclass)
  | ok found =>
    rw [hfound] at hclass
    cases found with
    | none => exact .done (.noClass hclass)
    | some ref =>
      refine .bind (findMethod_traced m ref) fun more hmethod => ?_
      cases hfound' : (findMethod rt m ref (findClass rt m.classDescriptor w).2).1 with
      | error fault =>
        rw [hfound'] at hmethod
        exact .pure (by rw [List.append_nil]; exact .noMethods hclass hmethod)
      | ok found =>
        rw [hfound'] at hmethod
        cases found with
        | none => exact .pure (by rw [List.append_nil]; exact .noMethod hclass hmethod)
        | some descriptor =>
          exact .pure (by rw [List.append_nil]; exact .described hclass hmethod)

theorem lookUp_traced (symbol : String) :
    Traced w (lookUp rt.recorded symbol) (lookUp rt symbol) (LookedUp (Q := Q) symbol) := by
  unfold lookUp
  cases hsymbol : Symbol.demangle symbol with
  | error fault => exact .note_bind (.pure (.unreadable hsymbol))
  | ok m =>
    refine .bind (introspect_traced m) fun calls hcalls => ?_
    cases houtcome : (introspect rt m w).1 with
    | error reason =>
      rw [houtcome] at hcalls
      exact .note_bind (.done (.unresolved hsymbol hcalls))
    | ok descriptor =>
      rw [houtcome] at hcalls
      exact .done (.resolved hsymbol hcalls)

theorem resolve_traced (symbol : String) (cache : Cache) :
    Traced w (resolve rt.recorded symbol cache) (resolve rt symbol cache)
      (Resolved (Q := Q) cache symbol) := by
  unfold resolve
  cases hcache : cache.get? symbol with
  | some descriptor => exact .pure (.cached hcache)
  | none =>
    refine .bind (lookUp_traced symbol) fun calls hcalls => ?_
    cases hfound : (lookUp rt symbol w).1 with
    | error fault =>
      rw [hfound] at hcalls
      exact .done (.failed hcache hcalls)
    | ok descriptor =>
      rw [hfound] at hcalls
      exact .done (.added hcache hcalls)

end NativeBridge.Resolution
