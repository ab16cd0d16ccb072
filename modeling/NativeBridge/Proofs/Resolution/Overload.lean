import NativeBridge.Proofs.Descriptor.Arguments
import NativeBridge.Proofs.Resolution.Steady
import NativeBridge.Proofs.Symbol.Uniqueness

/-! # Selection of overloads

The outcome of a search is told by what the runtime answered on its way: the first class with the
descriptor is taken, and the first of its methods with the name and with the parameters that the
symbol gives. What cannot be read might as well not have been listed.
-/

namespace NativeBridge

variable {W Q α β ρ : Type}

/-- Whether an element is the first one in a list of which `P` is true. -/
def FirstWhere (P : α → Prop) (l : List α) (a : α) : Prop :=
  P a ∧ ∃ before after, l = before ++ a :: after ∧ ∀ b ∈ before, ¬P b

theorem find?_eq_some_iff_firstWhere {p : α → Bool} {P : α → Prop} (hp : ∀ a, p a = true ↔ P a)
    {l : List α} {a : α} : l.find? p = some a ↔ FirstWhere P l a := by
  simp only [List.find?_eq_some_iff_append, FirstWhere, hp, Bool.not_eq_eq_eq_not, Bool.not_true,
    ← Bool.not_eq_true]

theorem findSome?_eq_some_iff_firstWhere {f : α → Option β} {P : α → β → Prop}
    (hf : ∀ a b, f a = some b ↔ P a b) {l : List α} {b : β} :
    l.findSome? f = some b ↔ ∃ a, FirstWhere (fun a => ∃ b, P a b) l a ∧ P a b := by
  have hnone (a : α) : f a = none ↔ ¬∃ b, P a b := by
    simp only [← hf, ← Option.isSome_iff_exists, Option.not_isSome_iff_eq_none]
  rw [List.findSome?_eq_some_iff]
  constructor
  · rintro ⟨before, a, after, hl, hfound, hbefore⟩
    have ha : P a b := (hf a b).mp hfound
    exact ⟨a, ⟨⟨b, ha⟩, before, after, hl, fun c hc => (hnone c).mp (hbefore c hc)⟩, ha⟩
  · rintro ⟨a, ⟨-, before, after, hl, hbefore⟩, ha⟩
    exact ⟨before, a, after, hl, (hf a b).mpr ha, fun c hc => (hnone c).mpr (hbefore c hc)⟩

theorem findSome?_filter {f : α → Option β} {p : α → Bool} (hp : ∀ a, p a = false → f a = none)
    (l : List α) : (l.filter p).findSome? f = l.findSome? f := by
  induction l with
  | nil => rfl
  | cons a l ih =>
    cases h : p a with
    | true => rw [List.filter_cons_of_pos h, List.findSome?_cons, List.findSome?_cons, ih]
    | false => rw [List.filter_cons_of_neg (by simp [h]), List.findSome?_cons, hp a h, ih]

theorem map_findSome?_filter {ε : Type} {f : α → Option β} {p : α → Bool}
    (hp : ∀ a, p a = false → f a = none) (told : Except ε (List α)) :
    (told.map (·.filter p)).map (·.findSome? f) = told.map (·.findSome? f) := by
  cases told with
  | error fault => rfl
  | ok l => exact congrArg Except.ok (findSome?_filter hp l)

def MethodId.Parenthesized (m : MethodId) : Prop :=
  ∀ parameters ∈ m.parameters, ∃ inner, parameters = String.ofList ('(' :: inner ++ [')'])

theorem Symbol.parenthesized_of_demangle {symbol : String} {m : MethodId}
    (h : demangle symbol = .ok m) : m.Parenthesized := by
  obtain ⟨_, -, -, hread⟩ := exists_body_of_demangle h
  obtain ⟨s, -, hmethod⟩ := Checked.bind_eq_ok_iff.mp hread
  obtain ⟨_, _, -, -, rfl⟩ := Spelled.method_eq_ok_iff.mp hmethod
  intro parameters hparameters
  obtain ⟨inner, -, rfl⟩ := Option.map_eq_some_iff.mp hparameters
  exact ⟨inner, rfl⟩

/-- What a method's descriptor is looked through for is its argument section. -/
theorem Resolution.fits_iff {m : MethodId} (hm : m.Parenthesized) {text : String} {d : Descriptor}
    (hparse : Descriptor.parse text = .ok d) (hd : d.Unparenthesized) (name : String) :
    fits m name text = true ↔ name = m.methodName ∧
      ∀ parameters ∈ m.parameters, Descriptor.arguments? text = some parameters := by
  rw [fits, Bool.and_eq_true, beq_iff_eq, Option.all_eq_true]
  refine and_congr_right fun _ => forall₂_congr fun parameters hparameters => ?_
  obtain ⟨inner, rfl⟩ := hm parameters hparameters
  exact hd.contains_iff hparse inner

namespace RuntimeView

/-- Whether a call of the runtime is answered with what the view tells. -/
def Answers (v : RuntimeView) : Call Q → Prop
  | .runtime (.loadedClasses answer) => answer.map Lease.value = v.classes
  | .runtime (.classDescriptor ref answer) => answer.map Lease.value = v.descriptor ref
  | .runtime (.declaredMethods ref answer) => answer.map Lease.value = v.methods ref
  | .runtime (.methodSignature ref answer) =>
    answer.map (fun m => (m.name.value, m.descriptor.value)) = v.method ref
  | _ => True

/-- Whether a method can be read and has the name and, if there are any, the parameters of `m`. -/
def Declares (v : RuntimeView) (m : MethodId) (ref : MethodRef) (descriptor : String) : Prop :=
  v.method ref = .ok (m.methodName, descriptor) ∧
    ∀ parameters ∈ m.parameters, Descriptor.arguments? descriptor = some parameters

/-- Whether the first class with the descriptor has such a method, the first of which has this
descriptor. -/
def Selects (v : RuntimeView) (m : MethodId) (descriptor : String) : Prop :=
  ∃ classes ref methods method,
    v.classes = .ok classes ∧
    FirstWhere (fun c => v.descriptor c = .ok m.classDescriptor) classes ref ∧
    v.methods ref = .ok methods ∧
    FirstWhere (fun c => ∃ d, v.Declares m c d) methods method ∧
    v.Declares m method descriptor

/-- Whether every method that can be read has a descriptor, whose classes have no parentheses in
their names. -/
def Described (v : RuntimeView) : Prop :=
  ∀ ref name text, v.method ref = .ok (name, text) →
    ∃ d, Descriptor.parse text = .ok d ∧ d.Unparenthesized

def skipping (v : RuntimeView) : RuntimeView where
  classes := v.classes.map (·.filter fun ref => (v.descriptor ref).isOk)
  descriptor := v.descriptor
  methods := fun ref => (v.methods ref).map (·.filter fun ref => (v.method ref).isOk)
  method := v.method

variable {v : RuntimeView}

theorem hasDescriptor_iff {wanted : String} {ref : ClassRef} :
    v.hasDescriptor wanted ref = true ↔ v.descriptor ref = .ok wanted := by
  unfold hasDescriptor
  cases v.descriptor ref <;> simp

theorem findClass_eq_ok_iff {wanted : String} {ref : ClassRef} :
    v.findClass wanted = .ok (some ref) ↔ ∃ classes, v.classes = .ok classes ∧
      FirstWhere (fun c => v.descriptor c = .ok wanted) classes ref := by
  rw [findClass, Checked.map_eq_ok_iff]
  exact exists_congr fun classes => and_congr_right fun _ =>
    find?_eq_some_iff_firstWhere fun _ => hasDescriptor_iff

theorem spelled?_eq_some_iff (hv : v.Described) {m : MethodId} (hm : m.Parenthesized)
    {ref : MethodRef} {descriptor : String} :
    v.spelled? m ref = some descriptor ↔ v.Declares m ref descriptor := by
  unfold spelled? Declares
  cases hread : v.method ref with
  | error fault => simp
  | ok method =>
    obtain ⟨name, text⟩ := method
    obtain ⟨d, hparse, hd⟩ := hv ref name text hread
    have hfits := Resolution.fits_iff hm hparse hd name
    dsimp only
    rw [Option.ite_none_right_eq_some, hfits]
    constructor
    · rintro ⟨⟨rfl, hparameters⟩, hdescriptor⟩
      obtain rfl := Option.some.inj hdescriptor
      exact ⟨rfl, hparameters⟩
    · rintro ⟨hmethod, hparameters⟩
      obtain ⟨rfl, rfl⟩ := Prod.mk.inj (Except.ok.inj hmethod)
      exact ⟨⟨rfl, hparameters⟩, rfl⟩

theorem introspect_eq_ok_iff {m : MethodId} {descriptor : String} :
    v.introspect m = .ok descriptor ↔ ∃ ref, v.findClass m.classDescriptor = .ok (some ref) ∧
      v.findMethod m ref = .ok (some descriptor) := by
  unfold introspect
  cases v.findClass m.classDescriptor with
  | error fault => simp
  | ok ref? =>
    cases ref? with
    | none => simp
    | some ref =>
      simp only [Except.ok.injEq, Option.some.injEq, exists_eq_left']
      cases v.findMethod m ref with
      | error fault => simp
      | ok descriptor? => cases descriptor? <;> simp

theorem introspect_eq_ok_iff_selects (hv : v.Described) {m : MethodId} (hm : m.Parenthesized)
    {descriptor : String} : v.introspect m = .ok descriptor ↔ v.Selects m descriptor := by
  have hmethod (ref : ClassRef) : v.findMethod m ref = .ok (some descriptor) ↔
      ∃ methods, v.methods ref = .ok methods ∧ ∃ method,
        FirstWhere (fun c => ∃ d, v.Declares m c d) methods method ∧
        v.Declares m method descriptor := by
    rw [findMethod, Checked.map_eq_ok_iff]
    exact exists_congr fun methods => and_congr_right fun _ =>
      findSome?_eq_some_iff_firstWhere fun _ _ => spelled?_eq_some_iff hv hm
  simp only [introspect_eq_ok_iff, findClass_eq_ok_iff, hmethod]
  constructor
  · rintro ⟨ref, ⟨classes, hclasses, hclass⟩, methods, hmethods, method, hfirst, hdescriptor⟩
    exact ⟨classes, ref, methods, method, hclasses, hclass, hmethods, hfirst, hdescriptor⟩
  · rintro ⟨classes, ref, methods, method, hclasses, hclass, hmethods, hfirst, hdescriptor⟩
    exact ⟨ref, ⟨classes, hclasses, hclass⟩, methods, hmethods, method, hfirst, hdescriptor⟩

theorem findClass_skipping (wanted : String) :
    v.skipping.findClass wanted = v.findClass wanted := by
  have hskipped (ref : ClassRef) (h : (v.descriptor ref).isOk = false) :
      Option.guard (v.hasDescriptor wanted) ref = none := by
    unfold Option.guard hasDescriptor
    cases hread : v.descriptor ref with
    | error fault => rfl
    | ok descriptor =>
      rw [hread] at h
      cases h
  have hfound := map_findSome?_filter hskipped v.classes
  simp only [List.findSome?_guard] at hfound
  exact hfound

theorem findMethod_skipping (m : MethodId) (ref : ClassRef) :
    v.skipping.findMethod m ref = v.findMethod m ref := by
  have hskipped (ref : MethodRef) (h : (v.method ref).isOk = false) : v.spelled? m ref = none := by
    unfold spelled?
    cases hread : v.method ref with
    | error fault => rfl
    | ok method =>
      rw [hread] at h
      cases h
  exact map_findSome?_filter hskipped (v.methods ref)

theorem lookUp_skipping (symbol : String) : v.skipping.lookUp symbol = v.lookUp symbol := by
  simp only [lookUp, introspect, findClass_skipping, findMethod_skipping]

theorem lookUp_eq_ok_iff {symbol : String} {m : MethodId} (h : Symbol.demangle symbol = .ok m)
    {descriptor : String} : v.lookUp symbol = .ok descriptor ↔ v.introspect m = .ok descriptor := by
  rw [lookUp, h]
  exact Checked.mapError_eq_ok_iff

end RuntimeView

namespace Resolution

variable {v : RuntimeView} {calls : List (Call Q)}

/-- A search finds the first thing that comes out of a reference. -/
theorem Search.found_eq {P : Call Q → Prop} {Visit : ρ → Option β → List (Call Q) → Prop}
    {f : ρ → Option β} {refs : List ρ} {found : Option β}
    (h : Search Visit refs found calls) (hP : ∀ c ∈ calls, P c)
    (hvisit : ∀ ref found calls, Visit ref found calls → (∀ c ∈ calls, P c) → found = f ref) :
    found = refs.findSome? f := by
  induction h with
  | exhausted => rfl
  | found h => rw [List.findSome?_cons, ← hvisit _ _ _ h hP]
  | passed h _ ih =>
    obtain ⟨hhead, htail⟩ := List.forall_mem_append.mp hP
    rw [List.findSome?_cons, ← hvisit _ _ _ h hhead]
    exact ih htail

theorem Listing.outcome_eq {P : Call Q → Prop}
    {list : Except IntrospectionFault (Lease (List ρ)) → RuntimeCall}
    {Visit : ρ → Option β → List (Call Q) → Prop} {f : ρ → Option β}
    {told : Except IntrospectionFault (List ρ)} {outcome : Except IntrospectionFault (Option β)}
    (h : Listing list Visit outcome calls) (hP : ∀ c ∈ calls, P c)
    (hlist : ∀ answer, P (.runtime (list answer)) → answer.map Lease.value = told)
    (hvisit : ∀ ref found calls, Visit ref found calls → (∀ c ∈ calls, P c) → found = f ref) :
    outcome = told.map (·.findSome? f) := by
  cases h with
  | unlisted fault =>
    rw [← hlist _ (hP _ (List.mem_singleton.mpr rfl))]
    rfl
  | listed hsearch hends =>
    obtain ⟨hlisted, hrest⟩ := List.forall_mem_cons.mp hP
    obtain ⟨hcalls, -⟩ := List.forall_mem_append.mp hrest
    rw [← hlist _ hlisted, hsearch.found_eq hcalls hvisit]
    rfl

theorem ClassVisit.found_eq {wanted : String} {ref : ClassRef} {found : Option ClassRef}
    (h : ClassVisit wanted ref found calls) (hv : ∀ c ∈ calls, v.Answers c) :
    found = Option.guard (v.hasDescriptor wanted) ref := by
  unfold Option.guard RuntimeView.hasDescriptor
  cases h with
  | unreadable fault =>
    have hanswer : _ = v.descriptor ref := hv _ List.mem_cons_self
    rw [← hanswer]
    rfl
  | read hends =>
    have hanswer : _ = v.descriptor ref := hv _ List.mem_cons_self
    rw [← hanswer]
    simp [Except.map]

theorem MethodVisit.found_eq {m : MethodId} {ref : MethodRef} {found : Option String}
    (h : MethodVisit m ref found calls) (hv : ∀ c ∈ calls, v.Answers c) :
    found = v.spelled? m ref := by
  unfold RuntimeView.spelled?
  cases h with
  | unreadable fault =>
    have hanswer : _ = v.method ref := hv _ List.mem_cons_self
    rw [← hanswer]
    rfl
  | read hname hdescriptor =>
    have hanswer : _ = v.method ref := hv _ List.mem_cons_self
    rw [← hanswer]
    rfl

theorem classListing_outcome {wanted : String}
    {outcome : Except IntrospectionFault (Option ClassRef)}
    (h : ClassListing wanted outcome calls) (hv : ∀ c ∈ calls, v.Answers c) :
    outcome = v.findClass wanted := by
  rw [h.outcome_eq hv (fun _ hanswer => hanswer) fun _ _ _ hvisit => hvisit.found_eq]
  simp only [List.findSome?_guard]
  rfl

theorem methodListing_outcome {m : MethodId} {ref : ClassRef}
    {outcome : Except IntrospectionFault (Option String)}
    (h : MethodListing m ref outcome calls) (hv : ∀ c ∈ calls, v.Answers c) :
    outcome = v.findMethod m ref :=
  h.outcome_eq hv (fun _ hanswer => hanswer) fun _ _ _ hvisit => hvisit.found_eq

theorem Introspection.outcome_eq {m : MethodId} {outcome : Except ResolutionFault String}
    (h : Introspection m outcome calls) (hv : ∀ c ∈ calls, v.Answers c) :
    outcome = v.introspect m := by
  unfold RuntimeView.introspect
  cases h with
  | noClasses h => rw [← classListing_outcome h hv]
  | noClass h => rw [← classListing_outcome h hv]
  | noMethods h h' =>
    obtain ⟨hclass, hmethod⟩ := List.forall_mem_append.mp hv
    rw [← classListing_outcome h hclass]
    dsimp only
    rw [← methodListing_outcome h' hmethod]
  | noMethod h h' =>
    obtain ⟨hclass, hmethod⟩ := List.forall_mem_append.mp hv
    rw [← classListing_outcome h hclass]
    dsimp only
    rw [← methodListing_outcome h' hmethod]
  | described h h' =>
    obtain ⟨hclass, hmethod⟩ := List.forall_mem_append.mp hv
    rw [← classListing_outcome h hclass]
    dsimp only
    rw [← methodListing_outcome h' hmethod]

theorem LookedUp.outcome_eq {symbol : String} {outcome : Except LinkFault String}
    (h : LookedUp symbol outcome calls) (hv : ∀ c ∈ calls, v.Answers c) :
    outcome = v.lookUp symbol := by
  unfold RuntimeView.lookUp
  cases h with
  | unreadable hsymbol => rw [hsymbol]
  | unresolved hsymbol h =>
    rw [hsymbol]
    dsimp only
    rw [← h.outcome_eq hv]
    rfl
  | resolved hsymbol h =>
    rw [hsymbol]
    dsimp only
    rw [← h.outcome_eq hv]
    rfl

theorem Resolved.outcome_eq {cache : Cache} {symbol : String}
    {out : Except LinkFault String × Cache} (h : Resolved cache symbol out calls)
    (hcache : cache.get? symbol = none) (hv : ∀ c ∈ calls, v.Answers c) :
    out.1 = v.lookUp symbol := by
  cases h with
  | cached hget =>
    rw [hcache] at hget
    cases hget
  | failed _ h => exact h.outcome_eq hv
  | added _ h => exact h.outcome_eq hv

variable [Journal W] {rt : ManagedRuntime W} {w : W}

/-- A symbol that is not in the cache is resolved to the descriptor of the first method with its
name and parameters in the first class with its descriptor. A runtime that does not list what cannot
be read makes no difference. -/
theorem resolve_selects {symbol : String} {m : MethodId} {cache : Cache}
    (hsymbol : Symbol.demangle symbol = .ok m) (hcache : cache.get? symbol = none)
    (hv : v.Described) :
    Traced w (resolve rt.recorded symbol cache) (resolve rt symbol cache)
      fun out (calls : List (Call Q)) => (∀ c ∈ calls, v.Answers c) →
        (∀ descriptor, out.1 = .ok descriptor ↔ v.Selects m descriptor) ∧
        ∀ (rt' : ManagedRuntime W) (w' : W),
          Traced w' (resolve rt'.recorded symbol cache) (resolve rt' symbol cache)
            fun out' (calls' : List (Call Q)) =>
              (∀ c ∈ calls', v.skipping.Answers c) → out'.1 = out.1 := by
  refine (resolve_traced symbol cache).mono fun calls hresolved hanswers => ?_
  have hout := hresolved.outcome_eq hcache hanswers
  refine ⟨fun descriptor => ?_, fun rt' w' => ?_⟩
  · rw [hout, RuntimeView.lookUp_eq_ok_iff hsymbol]
    exact RuntimeView.introspect_eq_ok_iff_selects hv (Symbol.parenthesized_of_demangle hsymbol)
  · refine (resolve_traced symbol cache).mono fun calls' hresolved' hanswers' => ?_
    rw [hout, hresolved'.outcome_eq hcache hanswers', RuntimeView.lookUp_skipping]

end Resolution

namespace RuntimeView

instance (v : RuntimeView) : DecidablePred (v.Answers (Q := Q)) := fun c =>
  match c with
  | .runtime (.loadedClasses answer) =>
    inferInstanceAs (Decidable (answer.map Lease.value = v.classes))
  | .runtime (.classDescriptor ref answer) =>
    inferInstanceAs (Decidable (answer.map Lease.value = v.descriptor ref))
  | .runtime (.declaredMethods ref answer) =>
    inferInstanceAs (Decidable (answer.map Lease.value = v.methods ref))
  | .runtime (.methodSignature ref answer) =>
    inferInstanceAs (Decidable
      (answer.map (fun m => (m.name.value, m.descriptor.value)) = v.method ref))
  | .runtime (.attachThread _) | .runtime (.deallocate _ _) | .platform _ | .emulator _ =>
    inferInstanceAs (Decidable True)

def unleased (v : RuntimeView) : ManagedRuntime CountedWorld where
  loadedClasses := pure (v.classes.map (⟨·, none⟩))
  classDescriptor := fun ref => pure ((v.descriptor ref).map (⟨·, none⟩))
  declaredMethods := fun ref => pure ((v.methods ref).map (⟨·, none⟩))
  methodSignature := fun ref => pure ((v.method ref).map fun m => ⟨⟨m.1, none⟩, ⟨m.2, none⟩⟩)
  attachThread := pure (.ok ())
  deallocate := fun _ => pure (.ok ())

/-- The first class and its first method cannot be read. -/
def overloaded : RuntimeView where
  classes := .ok [⟨0⟩, ⟨1⟩, ⟨2⟩]
  descriptor := fun ref =>
    if ref.id = 0 then .error ⟨"GetClassSignature", "invalid class"⟩ else .ok "La/B;"
  methods := fun _ => .ok [⟨0⟩, ⟨1⟩, ⟨2⟩]
  method := fun ref =>
    if ref.id = 0 then .error ⟨"GetMethodName", "invalid method"⟩
    else .ok ("m", if ref.id = 1 then "(II)V" else "(I)V")

theorem described_overloaded : overloaded.Described := by
  intro ref name text h
  simp only [overloaded] at h
  split at h
  · cases h
  · obtain ⟨-, rfl⟩ := Prod.mk.inj (Except.ok.inj h)
    split
    · refine ⟨⟨[.primitive .int, .primitive .int], none⟩, by decide +kernel, ?_⟩
      simp [Descriptor.Unparenthesized, FieldType.Unparenthesized]
    · refine ⟨⟨[.primitive .int], none⟩, by decide +kernel, ?_⟩
      simp [Descriptor.Unparenthesized, FieldType.Unparenthesized]

end RuntimeView

namespace Resolution

open RuntimeView

theorem resolve_selects_overloaded :
    Symbol.demangle "Java_a_B_m__I" = .ok ⟨"a/B", "m", some "(I)"⟩ ∧
      (Cache.empty 4).get? "Java_a_B_m__I" = none ∧ overloaded.Described ∧
      (∀ c ∈ (resolve (overloaded.unleased.recorded (Q := Unit)) "Java_a_B_m__I" (.empty 4)
        ⟨⟨0⟩, []⟩).2.calls, overloaded.Answers c) ∧
      (resolve overloaded.unleased "Java_a_B_m__I" (.empty 4) ⟨0⟩).1.1 = .ok "(I)V" ∧
      overloaded.Selects ⟨"a/B", "m", some "(I)"⟩ "(I)V" := by
  have hsymbol : Symbol.demangle "Java_a_B_m__I" = .ok ⟨"a/B", "m", some "(I)"⟩ := by
    decide +kernel
  have hanswers : ∀ c ∈ (resolve (overloaded.unleased.recorded (Q := Unit)) "Java_a_B_m__I"
      (.empty 4) ⟨⟨0⟩, []⟩).2.calls, overloaded.Answers c := by
    decide +kernel
  have hout : (resolve overloaded.unleased "Java_a_B_m__I" (.empty 4) ⟨0⟩).1.1 = .ok "(I)V" := by
    decide +kernel
  have hselects := ((resolve_selects hsymbol rfl described_overloaded).calls hanswers).1 "(I)V"
  exact ⟨hsymbol, rfl, described_overloaded, hanswers, hout, hselects.mp hout⟩

end Resolution

end NativeBridge
