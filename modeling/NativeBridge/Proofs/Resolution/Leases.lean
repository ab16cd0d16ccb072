import Mathlib
import NativeBridge.Proofs.Resolution.Search

/-! # Leases of a resolution

Every lease that a resolution is given ends before the resolution does. The leases of classes and
methods end while the list is held from which their references were taken, whichever way the
search leaves it.
-/

namespace NativeBridge

variable {Q ρ β : Type}

/-- An element of a list that the runtime leases. -/
inductive Reference
  | ofClass (ref : ClassRef)
  | ofMethod (ref : MethodRef)
  deriving DecidableEq, Repr

namespace Call

def leased : Call Q → List Allocation
  | .runtime (.loadedClasses (.ok refs)) => refs.allocation?.toList
  | .runtime (.classDescriptor _ (.ok descriptor)) => descriptor.allocation?.toList
  | .runtime (.declaredMethods _ (.ok refs)) => refs.allocation?.toList
  | .runtime (.methodSignature _ (.ok method)) =>
    method.name.allocation?.toList ++ method.descriptor.allocation?.toList
  | _ => []

def released : Call Q → List Allocation
  | .runtime (.deallocate allocation _) => [allocation]
  | _ => []

def list? : Call Q → Option (Lease (List Reference))
  | .runtime (.loadedClasses (.ok refs)) => some ⟨refs.value.map .ofClass, refs.allocation?⟩
  | .runtime (.declaredMethods _ (.ok refs)) => some ⟨refs.value.map .ofMethod, refs.allocation?⟩
  | _ => none

def element? : Call Q → Option Reference
  | .runtime (.classDescriptor ref _) => some (.ofClass ref)
  | .runtime (.methodSignature ref _) => some (.ofMethod ref)
  | _ => none

end Call

/-- Whether the calls hand back what they lease, and nothing more often than it was leased before.
-/
structure Settled (calls : List (Call Q)) : Prop where
  perm : (calls.flatMap Call.released).Perm (calls.flatMap Call.leased)
  subperm : ∀ start, start <+: calls →
    (start.flatMap Call.released).Subperm (start.flatMap Call.leased)

/-- Calls that read some of these elements, and settle the leases that this takes. -/
structure Reading (refs : List Reference) (calls : List (Call Q)) : Prop where
  settled : Settled calls
  not_list : ∀ c ∈ calls, c.list? = none
  elements : ∀ c ∈ calls, ∀ ref, c.element? = some ref → ref ∈ refs

/-- Calls that lease and release nothing outside of lists. The elements of a list are read while
the list is held, and the leases that this takes have ended when the list's own lease ends. -/
inductive Nested : List (Call Q) → Prop
  | nil : Nested []
  | other {c : Call Q} {calls : List (Call Q)} :
    c.list? = none → c.element? = none → c.leased = [] → c.released = [] →
    Nested calls → Nested (c :: calls)
  | list {c : Call Q} {refs : Lease (List Reference)} {inside release calls : List (Call Q)} :
    c.list? = some refs → Reading refs.value inside → Resolution.Ends refs.allocation? release →
    Nested calls → Nested (c :: (inside ++ release) ++ calls)

theorem prefix_append_cases {α : Type} {start before after : List α}
    (h : start <+: before ++ after) :
    start <+: before ∨ ∃ rest, rest <+: after ∧ start = before ++ rest := by
  rcases List.prefix_or_prefix_of_prefix h (List.prefix_append before after) with h' | ⟨rest, rfl⟩
  · exact Or.inl h'
  · exact Or.inr ⟨rest, (List.prefix_append_right_inj before).mp h, rfl⟩

namespace Settled

variable {c : Call Q} {calls calls' inside release : List (Call Q)}

theorem nil : Settled ([] : List (Call Q)) where
  perm := .refl []
  subperm := by
    intro start hstart
    rw [List.prefix_nil.mp hstart]
    exact List.Subperm.refl []

theorem append (h : Settled calls) (h' : Settled calls') : Settled (calls ++ calls') where
  perm := by
    rw [List.flatMap_append, List.flatMap_append]
    exact h.perm.append h'.perm
  subperm := by
    intro start hstart
    rcases prefix_append_cases hstart with hbefore | ⟨rest, hrest, rfl⟩
    · exact h.subperm start hbefore
    · rw [List.flatMap_append, List.flatMap_append]
      exact h.perm.subperm.append (h'.subperm rest hrest)

/-- A call holds what it leases while others lease and release, and hands it back after them. -/
theorem hold (hc : c.released = []) (h : Settled inside)
    (hleased : release.flatMap Call.leased = [])
    (hreleased : release.flatMap Call.released = c.leased) :
    Settled (c :: (inside ++ release)) where
  perm := by
    simp only [List.flatMap_cons, List.flatMap_append, hc, hleased, hreleased, List.nil_append,
      List.append_nil]
    exact (h.perm.append_right _).trans List.perm_append_comm
  subperm := by
    intro start hstart
    rcases List.prefix_cons_iff.mp hstart with rfl | ⟨within, rfl, hwithin⟩
    · exact List.Subperm.refl []
    · rw [List.flatMap_cons, List.flatMap_cons, hc, List.nil_append]
      rcases prefix_append_cases hwithin with hbefore | ⟨rest, hrest, rfl⟩
      · exact (h.subperm within hbefore).trans (List.sublist_append_right _ _).subperm
      · have hback : (rest.flatMap Call.released).Subperm c.leased := by
          rw [← hreleased]
          exact (hrest.sublist.flatMap Call.released).subperm
        have hwhole : (inside.flatMap Call.leased ++ c.leased).Subperm
            (c.leased ++ (inside.flatMap Call.leased ++ rest.flatMap Call.leased)) := by
          rw [← List.append_assoc]
          exact List.perm_append_comm.subperm.trans (List.sublist_append_left _ _).subperm
        rw [List.flatMap_append, List.flatMap_append]
        exact (h.perm.subperm.append hback).trans hwhole

/-- A call that neither leases nor releases. -/
theorem cons (hleased : c.leased = []) (hreleased : c.released = []) (h : Settled calls) :
    Settled (c :: calls) := by
  have hc : Settled [c] := hold hreleased nil rfl hleased.symm
  exact hc.append h

end Settled

namespace Resolution

open Call

variable {allocation? : Option Allocation} {calls release : List (Call Q)}

theorem Ends.leased_eq (h : Ends allocation? release) : release.flatMap leased = [] := by
  cases h with
  | unbacked => rfl
  | backed => rfl

theorem Ends.released_eq (h : Ends allocation? release) :
    release.flatMap released = allocation?.toList := by
  cases h with
  | unbacked => rfl
  | backed => rfl

theorem Ends.apart (h : Ends allocation? release) :
    ∀ c ∈ release, c.list? = none ∧ c.element? = none := by
  cases h with
  | unbacked => exact fun _ hc => absurd hc List.not_mem_nil
  | backed =>
    intro c hc
    rw [List.mem_singleton.mp hc]
    exact ⟨rfl, rfl⟩

end Resolution

namespace Reading

open Resolution

variable {refs refs' : List Reference} {c : Call Q} {calls calls' : List (Call Q)}

theorem nil : Reading (Q := Q) refs [] :=
  ⟨.nil, fun _ h => absurd h List.not_mem_nil, fun _ h => absurd h List.not_mem_nil⟩

theorem append (h : Reading refs calls) (h' : Reading refs calls') :
    Reading refs (calls ++ calls') where
  settled := h.settled.append h'.settled
  not_list := by
    intro c hc
    rcases List.mem_append.mp hc with hc | hc
    · exact h.not_list c hc
    · exact h'.not_list c hc
  elements := by
    intro c hc
    rcases List.mem_append.mp hc with hc | hc
    · exact h.elements c hc
    · exact h'.elements c hc

theorem mono (h : Reading refs calls) (hrefs : refs ⊆ refs') : Reading refs' calls where
  settled := h.settled
  not_list := h.not_list
  elements := fun c hc ref href => hrefs (h.elements c hc ref href)

/-- One element is read, and what is leased with it is released at once. -/
theorem visit {ref : Reference} {releases : List (Call Q)} (hlist : c.list? = none)
    (helement : c.element? = some ref) (hc : c.released = [])
    (hapart : ∀ d ∈ releases, d.list? = none ∧ d.element? = none)
    (hleased : releases.flatMap Call.leased = [])
    (hreleased : releases.flatMap Call.released = c.leased) :
    Reading [ref] (c :: releases) where
  settled := .hold hc .nil hleased hreleased
  not_list := by
    intro d hd
    rcases List.mem_cons.mp hd with rfl | hd
    · exact hlist
    · exact (hapart d hd).1
  elements := by
    intro d hd ref' href
    rcases List.mem_cons.mp hd with rfl | hd
    · rw [helement] at href
      exact List.mem_singleton.mpr (Option.some.inj href).symm
    · rw [(hapart d hd).2] at href
      cases href

theorem of_classVisit {wanted : String} {ref : ClassRef} {found : Option ClassRef}
    (h : ClassVisit wanted ref found calls) : Reading [.ofClass ref] calls := by
  cases h with
  | unreadable fault => exact visit rfl rfl rfl (fun _ hd => absurd hd List.not_mem_nil) rfl rfl
  | read hends => exact visit rfl rfl rfl hends.apart hends.leased_eq hends.released_eq

theorem of_methodVisit {m : MethodId} {ref : MethodRef} {found : Option String}
    (h : MethodVisit m ref found calls) : Reading [.ofMethod ref] calls := by
  cases h with
  | unreadable fault => exact visit rfl rfl rfl (fun _ hd => absurd hd List.not_mem_nil) rfl rfl
  | read hname hdescriptor =>
    refine visit rfl rfl rfl ?_ ?_ ?_
    · intro d hd
      rcases List.mem_append.mp hd with hd | hd
      · exact hname.apart d hd
      · exact hdescriptor.apart d hd
    · rw [List.flatMap_append, hname.leased_eq, hdescriptor.leased_eq]
      rfl
    · rw [List.flatMap_append, hname.released_eq, hdescriptor.released_eq]
      rfl

theorem of_search {reference : ρ → Reference} {Visit : ρ → Option β → List (Call Q) → Prop}
    {elements : List ρ} {found : Option β}
    (hvisit : ∀ ref found calls, Visit ref found calls → Reading [reference ref] calls)
    (h : Search Visit elements found calls) : Reading (elements.map reference) calls := by
  have hhead (ref : ρ) (others : List ρ) : [reference ref] ⊆ (ref :: others).map reference :=
    List.cons_subset.mpr ⟨List.mem_cons_self, List.nil_subset _⟩
  induction h with
  | exhausted => exact nil
  | found h => exact (hvisit _ _ _ h).mono (hhead _ _)
  | passed h _ ih =>
    exact ((hvisit _ _ _ h).mono (hhead _ _)).append (ih.mono (List.subset_cons_self _ _))

end Reading

namespace Nested

open Resolution

variable {c : Call Q} {calls calls' : List (Call Q)}

theorem append (h : Nested calls) (h' : Nested calls') : Nested (calls ++ calls') := by
  induction h with
  | nil => exact h'
  | other hlist helement hleased hreleased _ ih =>
    exact .other hlist helement hleased hreleased ih
  | list hlist hreading hends _ ih =>
    rw [List.append_assoc]
    exact .list hlist hreading hends ih

theorem leased_of_list? {refs : Lease (List Reference)} (h : c.list? = some refs) :
    c.leased = refs.allocation?.toList ∧ c.released = [] := by
  unfold Call.list? at h
  split at h
  · cases h
    exact ⟨rfl, rfl⟩
  · cases h
    exact ⟨rfl, rfl⟩
  · cases h

theorem settled (h : Nested calls) : Settled calls := by
  induction h with
  | nil => exact .nil
  | other _ _ hleased hreleased _ ih => exact .cons hleased hreleased ih
  | list hlist hreading hends _ ih =>
    obtain ⟨hleased, hreleased⟩ := leased_of_list? hlist
    refine Settled.append (.hold hreleased hreading.settled hends.leased_eq ?_) ih
    rw [hends.released_eq, hleased]

theorem of_listing {list : Except IntrospectionFault (Lease (List ρ)) → RuntimeCall}
    {reference : ρ → Reference} {Visit : ρ → Option β → List (Call Q) → Prop}
    {outcome : Except IntrospectionFault (Option β)} (h : Listing list Visit outcome calls)
    (hlist : ∀ refs, (Call.runtime (Q := Q) (list (.ok refs))).list? =
      some ⟨refs.value.map reference, refs.allocation?⟩)
    (hfailed : ∀ fault, Nested [Call.runtime (Q := Q) (list (.error fault))])
    (hvisit : ∀ ref found calls, Visit ref found calls → Reading [reference ref] calls) :
    Nested calls := by
  cases h with
  | unlisted fault => exact hfailed fault
  | listed hsearch hends =>
    have hnested := Nested.list (hlist _) (.of_search hvisit hsearch) hends .nil
    rwa [List.append_nil] at hnested

theorem of_classListing {wanted : String} {outcome : Except IntrospectionFault (Option ClassRef)}
    (h : ClassListing wanted outcome calls) : Nested calls :=
  of_listing h (fun _ => rfl) (fun _ => .other rfl rfl rfl rfl .nil)
    fun _ _ _ => .of_classVisit

theorem of_methodListing {m : MethodId} {ref : ClassRef}
    {outcome : Except IntrospectionFault (Option String)}
    (h : MethodListing m ref outcome calls) : Nested calls :=
  of_listing h (fun _ => rfl) (fun _ => .other rfl rfl rfl rfl .nil)
    fun _ _ _ => .of_methodVisit

theorem of_introspection {m : MethodId} {outcome : Except ResolutionFault String}
    (h : Introspection m outcome calls) : Nested calls := by
  cases h with
  | noClasses h => exact of_classListing h
  | noClass h => exact of_classListing h
  | noMethods h h' => exact (of_classListing h).append (of_methodListing h')
  | noMethod h h' => exact (of_classListing h).append (of_methodListing h')
  | described h h' => exact (of_classListing h).append (of_methodListing h')

theorem of_lookedUp {symbol : String} {outcome : Except LinkFault String}
    (h : LookedUp symbol outcome calls) : Nested calls := by
  cases h with
  | unreadable => exact .nil
  | unresolved _ h => exact of_introspection h
  | resolved _ h => exact of_introspection h

theorem of_resolved {cache : Cache} {symbol : String} {outcome : Except LinkFault String × Cache}
    (h : Resolved cache symbol outcome calls) : Nested calls := by
  cases h with
  | cached => exact .nil
  | failed _ h => exact of_lookedUp h
  | added _ h => exact of_lookedUp h

end Nested

end NativeBridge
