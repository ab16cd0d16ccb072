import NativeBridge.Proofs.Linker.Calls

/-! # Opens in namespaces

Which namespaces a platform is asked for before an open, and in which of them the library is then
opened.
-/

namespace NativeBridge

/-- The names that a platform can be asked for: those without a zero byte. -/
def askable (names : List String) : List String :=
  names.filter fun name => '\x00' ∉ name.toList

theorem askable_cons_of_mem {name : String} {others : List String} (h : '\x00' ∈ name.toList) :
    askable (name :: others) = askable others :=
  List.filter_cons_of_neg (by simpa using h)

theorem askable_cons_of_notMem {name : String} {others : List String} (h : '\x00' ∉ name.toList) :
    askable (name :: others) = name :: askable others :=
  List.filter_cons_of_pos (by simpa using h)

namespace Platform

variable {W Q : Type}

/-- A search for the first of the names whose namespace is exported. -/
inductive NamespacesAsked : List String → Option UInt64 → List (Call Q) → Prop
  | exhausted :
    NamespacesAsked [] none []
  | found {name : String} {others : List String} (libraryNamespace : UInt64) :
    NamespacesAsked (name :: others) (some libraryNamespace)
      [.platform (.exportedNamespace (Text.encode name) (some libraryNamespace))]
  | passed {name : String} {others : List String} {found? : Option UInt64} {calls : List (Call Q)} :
    NamespacesAsked others found? calls →
    NamespacesAsked (name :: others) found?
      (.platform (.exportedNamespace (Text.encode name) none) :: calls)

/-- An open in the first namespace that is exported, or else in namespace zero. -/
inductive OpenedInNamespaces (names : List String) (name : RawName) (flags : Int32)
    (caller : UInt64) : Option UInt64 → List (Call Q) → Prop
  | mk {found? : Option UInt64} {asked : List (Call Q)} (answer : Option UInt64) :
    NamespacesAsked (askable names) found? asked →
    OpenedInNamespaces names name flags caller answer
      (asked ++ [.platform (.openExtended name flags (some (.inNamespace (found?.getD 0))) caller
        answer)])

variable {p : Platform W} {w : W}

theorem firstNamespace_traced (names : List String) :
    Traced w (p.recorded.firstNamespace names) (p.firstNamespace names)
      (NamespacesAsked (Q := Q) (askable names)) := by
  induction names generalizing w with
  | nil => exact .pure .exhausted
  | cons name others ih =>
    unfold firstNamespace
    by_cases hzero : '\x00' ∈ name.toList
    · rw [if_pos hzero, if_pos hzero, askable_cons_of_mem hzero]
      exact ih
    · rw [if_neg hzero, if_neg hzero, askable_cons_of_notMem hzero]
      apply Traced.recording_bind
      cases (p.exportedNamespace (Text.encode name) w).1 with
      | some found => exact .pure (.found found)
      | none => exact ih.mono fun _ => .passed

/-- Without a name to ask for, nothing is asked. -/
theorem firstNamespace_eq_pure {names : List String} (h : askable names = []) :
    p.firstNamespace names = pure none := by
  induction names with
  | nil => rfl
  | cons name others ih =>
    unfold firstNamespace
    by_cases hzero : '\x00' ∈ name.toList
    · rw [askable_cons_of_mem hzero] at h
      rw [if_pos hzero]
      exact ih h
    · rw [askable_cons_of_notMem hzero] at h
      cases h

theorem openInNamespaces_traced [Journal W] (names : List String) (name : RawName) (flags : Int32)
    (caller : UInt64) :
    Traced w (p.recorded.openInNamespaces names name flags caller)
      (p.openInNamespaces names name flags caller)
      (OpenedInNamespaces (Q := Q) names name flags caller) := by
  apply Traced.bind (firstNamespace_traced names)
  intro asked hasked
  cases hfound : (p.firstNamespace names w).1 with
  | some found =>
    rw [hfound] at hasked
    exact .recording (.mk _ hasked)
  | none =>
    rw [hfound] at hasked
    exact .note_bind (.recording (.mk _ hasked))

end Platform

end NativeBridge
