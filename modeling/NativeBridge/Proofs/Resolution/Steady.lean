import Mathlib
import NativeBridge.Proofs.Cache
import NativeBridge.Proofs.Resolution.Search

/-! # Resolution with a steady runtime

While a runtime keeps telling the same of its classes and methods, a resolution with a cache answers
what a search without one answers. Every descriptor in the cache is one that the search would find,
and a search that fails leaves nothing in it.
-/

namespace NativeBridge

variable {W Q α β : Type}

/-- Whether an action keeps a world among these and answers as `P` says. -/
def Keeps (steady : W → Prop) (x : StateM W α) (P : α → Prop) : Prop :=
  ∀ w, steady w → P (x w).1 ∧ steady (x w).2

namespace Keeps

variable {steady : W → Prop} {x : StateM W α} {f : α → StateM W β} {P : α → Prop} {R : β → Prop}

theorem pure {a : α} (h : P a) : Keeps steady (Pure.pure a : StateM W α) P :=
  fun _ hw => ⟨h, hw⟩

theorem bind (hx : Keeps steady x P) (hf : ∀ a, P a → Keeps steady (f a) R) :
    Keeps steady (x >>= f) R := by
  intro w hw
  obtain ⟨hanswer, hworld⟩ := hx w hw
  exact hf _ hanswer _ hworld

end Keeps

/-- What a runtime tells of its classes and methods. -/
structure RuntimeView where
  classes : Except IntrospectionFault (List ClassRef)
  descriptor : ClassRef → Except IntrospectionFault String
  methods : ClassRef → Except IntrospectionFault (List MethodRef)
  /-- Name and descriptor of a method. -/
  method : MethodRef → Except IntrospectionFault (String × String)

/-- Whether a runtime tells the same in all of these worlds, from which its calls do not lead away.
The allocations behind its leases may differ, and it may take them back or not. -/
structure ManagedRuntime.Shows [Journal W] (rt : ManagedRuntime W) (view : RuntimeView)
    (steady : W → Prop) : Prop where
  loadedClasses : Keeps steady rt.loadedClasses fun answer =>
    answer.map Lease.value = view.classes
  classDescriptor : ∀ ref, Keeps steady (rt.classDescriptor ref) fun answer =>
    answer.map Lease.value = view.descriptor ref
  declaredMethods : ∀ ref, Keeps steady (rt.declaredMethods ref) fun answer =>
    answer.map Lease.value = view.methods ref
  methodSignature : ∀ ref, Keeps steady (rt.methodSignature ref) fun answer =>
    answer.map (fun m => (m.name.value, m.descriptor.value)) = view.method ref
  deallocate : ∀ allocation, Keeps steady (rt.deallocate allocation) fun _ => True
  note : ∀ n, Keeps steady (NativeBridge.note (W := W) n) fun _ => True

namespace RuntimeView

def hasDescriptor (v : RuntimeView) (wanted : String) (ref : ClassRef) : Bool :=
  match v.descriptor ref with
  | .ok descriptor => descriptor = wanted
  | .error _ => false

def spelled? (v : RuntimeView) (m : MethodId) (ref : MethodRef) : Option String :=
  match v.method ref with
  | .ok (name, descriptor) => if Resolution.fits m name descriptor then some descriptor else none
  | .error _ => none

def findClass (v : RuntimeView) (wanted : String) :
    Except IntrospectionFault (Option ClassRef) :=
  v.classes.map (·.find? (v.hasDescriptor wanted))

def findMethod (v : RuntimeView) (m : MethodId) (ref : ClassRef) :
    Except IntrospectionFault (Option String) :=
  (v.methods ref).map (·.findSome? (v.spelled? m))

def introspect (v : RuntimeView) (m : MethodId) : Except ResolutionFault String :=
  match v.findClass m.classDescriptor with
  | .error fault => .error (.introspection fault)
  | .ok none => .error (.classNotFound m.className)
  | .ok (some ref) =>
    match v.findMethod m ref with
    | .error fault => .error (.introspection fault)
    | .ok none => .error (.methodNotFound m.className m.methodName)
    | .ok (some descriptor) => .ok descriptor

/-- The descriptor behind a symbol, as the view has it. -/
def lookUp (v : RuntimeView) (symbol : String) : Except LinkFault String :=
  match Symbol.demangle symbol with
  | .error fault => .error (.resolution symbol (.demangle fault))
  | .ok m => (v.introspect m).mapError (.resolution symbol)

end RuntimeView

namespace Resolution

variable [Journal W] {rt : ManagedRuntime W} {view : RuntimeView} {steady : W → Prop}

def resolveAll (rt : ManagedRuntime W) :
    List String → Cache → StateM W (List (Except LinkFault String) × Cache)
  | [], cache => return ([], cache)
  | symbol :: others, cache => do
    let (answer, cache) ← resolve rt symbol cache
    let (answers, cache) ← resolveAll rt others cache
    return (answer :: answers, cache)

theorem release_keeps (h : rt.Shows view steady) (lease : Lease α) :
    Keeps steady (rt.release lease) fun _ => True := by
  obtain ⟨value, allocation?⟩ := lease
  cases allocation? with
  | none => exact .pure trivial
  | some allocation =>
    refine .bind (h.deallocate allocation) fun answer _ => ?_
    cases answer with
    | ok => exact .pure trivial
    | error fault => exact h.note _

theorem firstClass_keeps (h : rt.Shows view steady) (wanted : String) (refs : List ClassRef) :
    Keeps steady (firstClass rt wanted refs) (· = refs.find? (view.hasDescriptor wanted)) := by
  induction refs with
  | nil => exact .pure rfl
  | cons ref others ih =>
    refine .bind (h.classDescriptor ref) fun answer hanswer => ?_
    rw [List.find?_cons]
    cases answer with
    | error fault =>
      have hskipped : view.hasDescriptor wanted ref = false := by
        rw [RuntimeView.hasDescriptor, ← hanswer]
        rfl
      rw [hskipped]
      exact .bind (h.note _) fun _ _ => ih
    | ok descriptor =>
      have hread : view.hasDescriptor wanted ref = decide (descriptor.value = wanted) := by
        rw [RuntimeView.hasDescriptor, ← hanswer]
        rfl
      refine .bind (release_keeps h descriptor) fun _ _ => ?_
      rw [hread]
      by_cases hwanted : descriptor.value = wanted
      · rw [if_pos hwanted, decide_eq_true hwanted]
        exact .pure rfl
      · rw [if_neg hwanted, decide_eq_false hwanted]
        exact ih

theorem firstMethod_keeps (h : rt.Shows view steady) (m : MethodId) (refs : List MethodRef) :
    Keeps steady (firstMethod rt m refs) (· = refs.findSome? (view.spelled? m)) := by
  induction refs with
  | nil => exact .pure rfl
  | cons ref others ih =>
    refine .bind (h.methodSignature ref) fun answer hanswer => ?_
    rw [List.findSome?_cons]
    cases answer with
    | error fault =>
      have hskipped : view.spelled? m ref = none := by
        rw [RuntimeView.spelled?, ← hanswer]
        rfl
      rw [hskipped]
      exact .bind (h.note _) fun _ _ => ih
    | ok method =>
      have hread : view.spelled? m ref =
          if fits m method.name.value method.descriptor.value then some method.descriptor.value
          else none := by
        rw [RuntimeView.spelled?, ← hanswer]
        rfl
      refine .bind (release_keeps h method.name) fun _ _ => ?_
      refine .bind (release_keeps h method.descriptor) fun _ _ => ?_
      rw [hread]
      by_cases hfits : fits m method.name.value method.descriptor.value
      · rw [if_pos hfits, if_pos hfits]
        exact .pure rfl
      · rw [if_neg hfits, if_neg hfits]
        exact ih

theorem findClass_keeps (h : rt.Shows view steady) (wanted : String) :
    Keeps steady (findClass rt wanted) (· = view.findClass wanted) := by
  refine .bind h.loadedClasses fun answer hanswer => ?_
  rw [RuntimeView.findClass, ← hanswer]
  cases answer with
  | error fault => exact .pure rfl
  | ok refs =>
    refine .bind (firstClass_keeps h wanted refs.value) fun found hfound => ?_
    rw [hfound]
    exact .bind (release_keeps h refs) fun _ _ => .pure rfl

theorem findMethod_keeps (h : rt.Shows view steady) (m : MethodId) (ref : ClassRef) :
    Keeps steady (findMethod rt m ref) (· = view.findMethod m ref) := by
  refine .bind (h.declaredMethods ref) fun answer hanswer => ?_
  rw [RuntimeView.findMethod, ← hanswer]
  cases answer with
  | error fault => exact .pure rfl
  | ok refs =>
    refine .bind (firstMethod_keeps h m refs.value) fun found hfound => ?_
    rw [hfound]
    exact .bind (release_keeps h refs) fun _ _ => .pure rfl

theorem introspect_keeps (h : rt.Shows view steady) (m : MethodId) :
    Keeps steady (introspect rt m) (· = view.introspect m) := by
  refine .bind (findClass_keeps h m.classDescriptor) fun found hfound => ?_
  rw [RuntimeView.introspect, ← hfound]
  cases found with
  | error fault => exact .pure rfl
  | ok ref? =>
    cases ref? with
    | none => exact .pure rfl
    | some ref =>
      refine .bind (findMethod_keeps h m ref) fun found' hfound' => ?_
      dsimp only
      rw [← hfound']
      cases found' with
      | error fault => exact .pure rfl
      | ok descriptor? =>
        cases descriptor? with
        | none => exact .pure rfl
        | some descriptor => exact .pure rfl

theorem lookUp_keeps (h : rt.Shows view steady) (symbol : String) :
    Keeps steady (lookUp rt symbol) (· = view.lookUp symbol) := by
  unfold lookUp RuntimeView.lookUp
  cases Symbol.demangle symbol with
  | error fault => exact .bind (h.note _) fun _ _ => .pure rfl
  | ok m =>
    refine .bind (introspect_keeps h m) fun outcome houtcome => ?_
    dsimp only
    rw [← houtcome]
    cases outcome with
    | error reason => exact .bind (h.note _) fun _ _ => .pure rfl
    | ok descriptor => exact .pure rfl

/-- Whether every descriptor in a cache is the one that the view has of its symbol. -/
def Agrees (view : RuntimeView) (cache : Cache) : Prop :=
  ∀ entry ∈ cache.entries, view.lookUp entry.1 = .ok entry.2

theorem agrees_empty (capacity : Nat) : Agrees view (.empty capacity) :=
  fun _ h => absurd h List.not_mem_nil

theorem Agrees.insert {cache : Cache} {symbol descriptor : String} (h : Agrees view cache)
    (hsymbol : view.lookUp symbol = .ok descriptor) :
    Agrees view (cache.insert symbol descriptor) := by
  intro entry hentry
  rcases Cache.mem_insert hentry with ⟨hold, -⟩ | rfl
  · exact h entry hold
  · exact hsymbol

theorem resolve_keeps (h : rt.Shows view steady) (symbol : String) {cache : Cache}
    (hcache : Agrees view cache) :
    Keeps steady (resolve rt symbol cache) fun out =>
      out.1 = view.lookUp symbol ∧ Agrees view out.2 := by
  unfold resolve
  cases hget : cache.get? symbol with
  | some descriptor => exact .pure ⟨(hcache _ (Cache.mem_of_get? hget)).symm, hcache⟩
  | none =>
    refine .bind (lookUp_keeps h symbol) fun answer hanswer => ?_
    cases answer with
    | error fault => exact .pure ⟨hanswer, hcache⟩
    | ok descriptor => exact .pure ⟨hanswer, hcache.insert hanswer.symm⟩

theorem resolveAll_keeps (h : rt.Shows view steady) (symbols : List String) {cache : Cache}
    (hcache : Agrees view cache) :
    Keeps steady (resolveAll rt symbols cache) fun out => Agrees view out.2 := by
  induction symbols generalizing cache with
  | nil => exact .pure hcache
  | cons symbol others ih =>
    refine .bind (resolve_keeps h symbol hcache) fun out hout => ?_
    exact .bind (ih hout.2) fun _ hrest => .pure hrest

theorem Introspection.calls_ne_nil {m : MethodId} {outcome : Except ResolutionFault String}
    {calls : List (Call Q)} (h : Introspection m outcome calls) : calls ≠ [] := by
  have hlisting : ∀ {out more}, ClassListing (Q := Q) m.classDescriptor out more → more ≠ [] := by
    intro out more hout
    cases hout with
    | unlisted => exact List.cons_ne_nil _ _
    | listed => exact List.cons_ne_nil _ _
  cases h with
  | noClasses h => exact hlisting h
  | noClass h => exact hlisting h
  | noMethods h _ => exact List.append_ne_nil_of_left_ne_nil (hlisting h) _
  | noMethod h _ => exact List.append_ne_nil_of_left_ne_nil (hlisting h) _
  | described h _ => exact List.append_ne_nil_of_left_ne_nil (hlisting h) _

/-- The runtime is asked for a symbol that can be read and is not in the cache. -/
theorem Resolved.calls_ne_nil_iff {cache : Cache} {symbol : String}
    {out : Except LinkFault String × Cache} {calls : List (Call Q)}
    (h : Resolved cache symbol out calls) :
    calls ≠ [] ↔ (∃ m, Symbol.demangle symbol = .ok m) ∧ cache.get? symbol = none := by
  have hlooked : ∀ {answer more}, LookedUp (Q := Q) symbol answer more →
      (more ≠ [] ↔ ∃ m, Symbol.demangle symbol = .ok m) := by
    intro answer more hanswer
    cases hanswer with
    | unreadable hfault => simp [hfault]
    | unresolved hm hcalls => simp [hm, hcalls.calls_ne_nil]
    | resolved hm hcalls => simp [hm, hcalls.calls_ne_nil]
  cases h with
  | cached hget => simp [hget]
  | failed hget hcalls => rw [hlooked hcalls, and_iff_left hget]
  | added hget hcalls => rw [hlooked hcalls, and_iff_left hget]

theorem Resolved.cache_eq {cache cache' : Cache} {symbol : String} {fault : LinkFault}
    {calls : List (Call Q)} (h : Resolved cache symbol (.error fault, cache') calls) :
    cache' = cache := by
  cases h
  rfl

/-- In any run of resolutions from an empty cache, the next answer is what a search without a cache
finds now or at any other time, the runtime is asked exactly if the symbol can be read and is not
in the cache, and a failure leaves the cache as it was. -/
theorem resolve_transparent (h : rt.Shows view steady) {w w' : W} (hw : steady w) {capacity : Nat}
    {earlier : List String} {answers : List (Except LinkFault String)} {cache : Cache}
    (hrun : resolveAll rt earlier (.empty capacity) w = ((answers, cache), w')) (symbol : String) :
    Traced w' (resolve rt.recorded symbol cache) (resolve rt symbol cache)
      fun out (calls : List (Call Q)) =>
        (∀ w'', steady w'' → (lookUp rt symbol w'').1 = out.1) ∧
        (calls ≠ [] ↔ (∃ m, Symbol.demangle symbol = .ok m) ∧ cache.get? symbol = none) ∧
        (∀ fault, out.1 = .error fault → out.2 = cache) := by
  obtain ⟨hagrees, hw'⟩ := resolveAll_keeps h earlier (agrees_empty capacity) w hw
  rw [hrun] at hagrees hw'
  obtain ⟨⟨hanswer, -⟩, -⟩ := resolve_keeps h symbol hagrees w' hw'
  refine (resolve_traced symbol cache).mono fun calls hresolved => ⟨?_, ?_, ?_⟩
  · intro w'' hw''
    rw [hanswer]
    exact (lookUp_keeps h symbol w'' hw'').1
  · exact hresolved.calls_ne_nil_iff
  · intro fault hfault
    rcases hout : (resolve rt symbol cache w').1 with ⟨answer, cache'⟩
    rw [hout] at hresolved hfault
    obtain rfl : answer = .error fault := hfault
    exact hresolved.cache_eq

end Resolution

/-- A world that counts what its runtime leases. -/
structure CountedWorld where
  count : UInt64
  deriving DecidableEq, Repr

namespace CountedWorld

instance : Journal CountedWorld where
  take := fun _ w => w

def view : RuntimeView where
  classes := .ok [⟨7⟩]
  descriptor := fun _ => .ok "La/B;"
  methods := fun _ => .ok [⟨0⟩, ⟨1⟩, ⟨2⟩]
  method := fun ref =>
    if ref.id = 0 then .error ⟨"GetMethodName", "invalid method"⟩
    else .ok (if ref.id = 1 then "m" else "n", "()V")

/-- A runtime that never leases the same allocation again and takes back every other one. -/
def runtime : ManagedRuntime CountedWorld where
  loadedClasses := fun w => (view.classes.map (⟨·, some w.count⟩), ⟨w.count + 1⟩)
  classDescriptor := fun ref w => ((view.descriptor ref).map (⟨·, some w.count⟩), ⟨w.count + 1⟩)
  declaredMethods := fun ref w => ((view.methods ref).map (⟨·, some w.count⟩), ⟨w.count + 1⟩)
  methodSignature := fun ref w =>
    ((view.method ref).map fun m => ⟨⟨m.1, some w.count⟩, ⟨m.2, none⟩⟩, ⟨w.count + 1⟩)
  attachThread := pure (.ok ())
  deallocate := fun allocation w =>
    (if allocation % 2 = 0 then .ok () else .error ⟨"Deallocate", "invalid pointer"⟩, w)

theorem shows_runtime : runtime.Shows view fun _ => True where
  loadedClasses := fun _ _ => ⟨rfl, trivial⟩
  classDescriptor := fun _ _ _ => ⟨rfl, trivial⟩
  declaredMethods := fun _ _ _ => ⟨rfl, trivial⟩
  methodSignature := fun ref w _ => by
    refine ⟨?_, trivial⟩
    change ((view.method ref).map _).map _ = view.method ref
    cases view.method ref with
    | error fault => rfl
    | ok m => rfl
  deallocate := fun _ _ _ => ⟨trivial, trivial⟩
  note := fun _ _ _ => ⟨trivial, trivial⟩

end CountedWorld

namespace Resolution

/-- A cache for one symbol has forgotten the first of two, and the runtime is asked again. -/
theorem resolve_transparent_evicted : ∃ answers cache w',
    resolveAll CountedWorld.runtime ["Java_a_B_m", "Java_a_B_n"] (.empty 1) ⟨0⟩ =
      ((answers, cache), w') ∧
    cache.entries = [("Java_a_B_n", "()V")] ∧
    (resolve CountedWorld.runtime "Java_a_B_m" cache w').1.1 = .ok "()V" ∧
    (resolve (CountedWorld.runtime.recorded (Q := Unit)) "Java_a_B_m" cache ⟨w', []⟩).2.calls ≠
      [] := by
  have hrun : resolveAll CountedWorld.runtime ["Java_a_B_m", "Java_a_B_n"] (.empty 1) ⟨0⟩ =
    ((_, _), _) := rfl
  have hlookUp : (lookUp CountedWorld.runtime "Java_a_B_m" ⟨0⟩).1 = .ok "()V" := by
    decide +kernel
  have hsymbol : Symbol.demangle "Java_a_B_m" = .ok ⟨"a/B", "m", none⟩ := by
    decide +kernel
  obtain ⟨hanswer, hcalls, -⟩ := (resolve_transparent (Q := Unit) CountedWorld.shows_runtime trivial
    hrun "Java_a_B_m").calls
  refine ⟨_, _, _, hrun, ?_, ?_, ?_⟩
  · decide +kernel
  · exact (hanswer ⟨0⟩ trivial).symm.trans hlookUp
  · exact hcalls.mpr ⟨⟨_, hsymbol⟩, by decide +kernel⟩

end Resolution

end NativeBridge
