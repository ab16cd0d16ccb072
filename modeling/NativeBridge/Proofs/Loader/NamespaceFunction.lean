import NativeBridge.Loader
import NativeBridge.Proofs.Platform.Namespaces

/-! # The function that tells the namespaces

Vendor opens one after the other through the same entry points. The function that tells the
namespaces is searched when a namespace is first asked for, and not again: what is asked later goes
to the function that was found then, and if none was, nothing is asked and all libraries are
opened in namespace zero.
-/

namespace NativeBridge

/-- The calls of entry points and of what they run in, each with its answer. -/
inductive LoaderCall
  | openLibrary (name? : Option RawName) (flags : Int32) (caller answer : UInt64)
  | findSymbol (handle : UInt64) (name : RawName) (caller answer : UInt64)
  | openExtended (name : RawName) (flags : Int32) (info : Option ExtendedInfo)
      (caller answer : UInt64)
  | callAt (address : UInt64) (name : RawName) (answer : UInt64)
  | hasFile (path : String) (answer : Bool)
  deriving DecidableEq

variable {W : Type}

def Loader.recorded (l : Loader W) : Loader (Recorded W LoaderCall) where
  openLibrary name? flags caller :=
    recording (l.openLibrary name? flags caller) (.openLibrary name? flags caller)
  findSymbol handle name caller :=
    recording (l.findSymbol handle name caller) (.findSymbol handle name caller)
  openExtended name flags info caller :=
    recording (l.openExtended name flags info caller) (.openExtended name flags info caller)

def Surroundings.recorded (s : Surroundings W) : Surroundings (Recorded W LoaderCall) where
  callAt address name := recording (s.callAt address name) (.callAt address name)
  hasFile path := recording (s.hasFile path) (.hasFile path)
  home := s.home

/-- An open among the vendor's libraries. -/
structure VendorOpen where
  /-- The namespaces, in the order in which they are asked for. -/
  names : List String
  name : RawName
  flags : Int32
  caller : UInt64

namespace Platform

variable [Journal W]

def openVendor (p : Platform W) (o : VendorOpen) : StateM W (Option UInt64) :=
  p.openInNamespaces o.names o.name o.flags o.caller

def openAllVendor (p : Platform W) (opens : List VendorOpen) : StateM W (List (Option UInt64)) :=
  opens.mapM p.openVendor

end Platform

namespace Loader

/-- What is asked of the function that tells the namespaces, if there is one, for the first of the
names whose namespace is exported. -/
inductive Queried : Option UInt64 → List String → Option UInt64 → List LoaderCall → Prop
  | nowhere {names : List String} :
    Queried none names none []
  | exhausted {function : UInt64} :
    Queried (some function) [] none []
  | found {function answer : UInt64} {name : String} {others : List String} :
    answer ≠ 0 →
    Queried (some function) (name :: others) (some answer)
      [.callAt function (Text.encode name) answer]
  | passed {function : UInt64} {name : String} {others : List String} {found? : Option UInt64}
      {calls : List LoaderCall} :
    Queried (some function) others found? calls →
    Queried (some function) (name :: others) found?
      (.callAt function (Text.encode name) 0 :: calls)

/-- An open when it is known where the function lies. -/
inductive VendorOpened (function? : Option UInt64) (o : VendorOpen) :
    Option UInt64 → List LoaderCall → Prop
  | mk {found? : Option UInt64} {asked : List LoaderCall} (answer : UInt64) :
    Queried function? (askable o.names) found? asked →
    VendorOpened function? o (found answer)
      (asked ++ [.openExtended o.name o.flags (some (.inNamespace (found?.getD 0))) o.caller
        answer])

def functionSearched (home answer : UInt64) : LoaderCall :=
  .findSymbol everywhere (Text.encode namespaceFunctionName) home answer

/-- Opens one after the other, with what is known of the function before them. -/
inductive VendorOpens (home : UInt64) :
    NamespaceFunction → List VendorOpen → List (Option UInt64) → List LoaderCall → Prop
  | nil {known : NamespaceFunction} :
    VendorOpens home known [] [] []
  | unasked {o : VendorOpen} {others : List VendorOpen} {answer : Option UInt64}
      {answers : List (Option UInt64)} {calls more : List LoaderCall} :
    askable o.names = [] →
    VendorOpened none o answer calls →
    VendorOpens home none others answers more →
    VendorOpens home none (o :: others) (answer :: answers) (calls ++ more)
  | searched {o : VendorOpen} {others : List VendorOpen} {answers : List (Option UInt64)}
      {calls : List LoaderCall} (answer : UInt64) :
    askable o.names ≠ [] →
    VendorOpens home (some (found answer)) (o :: others) answers calls →
    VendorOpens home none (o :: others) answers (functionSearched home answer :: calls)
  | known {function? : Option UInt64} {o : VendorOpen} {others : List VendorOpen}
      {answer : Option UInt64} {answers : List (Option UInt64)} {calls more : List LoaderCall} :
    VendorOpened function? o answer calls →
    VendorOpens home (some function?) others answers more →
    VendorOpens home (some function?) (o :: others) (answer :: answers) (calls ++ more)

theorem Queried.cons_of_some {function? : Option UInt64} {name : String} {others : List String}
    {answer : UInt64} {calls : List LoaderCall} (h : Queried function? [name] (some answer) calls) :
    Queried function? (name :: others) (some answer) calls := by
  cases h with
  | found hanswer => exact .found hanswer
  | passed h => cases h

theorem Queried.cons_of_none {function? : Option UInt64} {name : String} {others : List String}
    {found? : Option UInt64} {calls more : List LoaderCall}
    (h : Queried function? [name] none calls) (hmore : Queried function? others found? more) :
    Queried function? (name :: others) found? (calls ++ more) := by
  cases h with
  | nowhere =>
    cases hmore
    exact .nowhere
  | passed h =>
    cases h
    exact .passed hmore

theorem found_of_ne {answer : UInt64} (h : answer ≠ 0) : found answer = some answer :=
  if_neg h

section Known

variable {l : Loader W} {s : Surroundings W} {v : W × NamespaceFunction}
  {function? : Option UInt64}

/-- What is known of the function stays known. -/
theorem exportedNamespace_known (name : RawName) (hv : v.2 = some function?) :
    ((l.platform s).exportedNamespace name v).2.2 = some function? := by
  obtain ⟨w, known⟩ := v
  obtain rfl : known = some function? := hv
  cases function? with
  | none => rfl
  | some function => rfl

theorem firstNamespace_known (names : List String) (hv : v.2 = some function?) :
    ((l.platform s).firstNamespace names v).2.2 = some function? := by
  induction names generalizing v with
  | nil => exact hv
  | cons name others ih =>
    unfold Platform.firstNamespace
    by_cases hzero : '\x00' ∈ name.toList
    · rw [if_pos hzero]
      exact ih hv
    · rw [if_neg hzero, Action.bind_apply]
      have hknown := exportedNamespace_known (l := l) (s := s) (Text.encode name) hv
      cases ((l.platform s).exportedNamespace (Text.encode name) v).1 with
      | some found => exact hknown
      | none => exact ih hknown

theorem openVendor_known [Journal W] (o : VendorOpen) (hv : v.2 = some function?) :
    ((l.platform s).openVendor o v).2.2 = some function? := by
  unfold Platform.openVendor Platform.openInNamespaces
  rw [Action.bind_apply]
  have hknown := firstNamespace_known (l := l) (s := s) o.names hv
  cases ((l.platform s).firstNamespace o.names v).1 with
  | some found => exact hknown
  | none => exact hknown

theorem exportedNamespace_traced (name : String) (hv : v.2 = some function?) :
    Traced v (joined ((l.recorded.platform s.recorded).exportedNamespace (Text.encode name)))
      ((l.platform s).exportedNamespace (Text.encode name)) (Queried function? [name]) := by
  obtain ⟨w, known⟩ := v
  obtain rfl : known = some function? := hv
  cases function? with
  | none =>
    refine ⟨[], fun earlier => ?_, .nowhere⟩
    rw [List.append_nil]
    rfl
  | some function =>
    refine ⟨[.callAt function (Text.encode name) (s.callAt function (Text.encode name) w).1],
      fun _ => rfl, ?_⟩
    change Queried _ _ (found (s.callAt function (Text.encode name) w).1) _
    by_cases hanswer : (s.callAt function (Text.encode name) w).1 = 0
    · rw [hanswer]
      exact .passed .exhausted
    · rw [found_of_ne hanswer]
      exact .found hanswer

theorem firstNamespace_traced (names : List String) (hv : v.2 = some function?) :
    Traced v (joined ((l.recorded.platform s.recorded).firstNamespace names))
      ((l.platform s).firstNamespace names) (Queried function? (askable names)) := by
  induction names generalizing v with
  | nil =>
    cases function? with
    | none => exact .pure Queried.nowhere
    | some function => exact .pure Queried.exhausted
  | cons name others ih =>
    unfold Platform.firstNamespace
    by_cases hzero : '\x00' ∈ name.toList
    · rw [if_pos hzero, if_pos hzero, askable_cons_of_mem hzero]
      exact ih hv
    · rw [if_neg hzero, if_neg hzero, askable_cons_of_notMem hzero, joined_bind]
      apply Traced.bind (exportedNamespace_traced name hv)
      intro calls hcalls
      have hknown := exportedNamespace_known (l := l) (s := s) (Text.encode name) hv
      cases hanswer : ((l.platform s).exportedNamespace (Text.encode name) v).1 with
      | some found =>
        rw [hanswer] at hcalls
        exact .done hcalls.cons_of_some
      | none =>
        rw [hanswer] at hcalls
        exact (ih hknown).mono fun _ => hcalls.cons_of_none

theorem openVendor_traced [Journal W] (o : VendorOpen) (hv : v.2 = some function?) :
    Traced v (joined ((l.recorded.platform s.recorded).openVendor o))
      ((l.platform s).openVendor o) (VendorOpened function? o) := by
  unfold Platform.openVendor Platform.openInNamespaces
  rw [joined_bind]
  apply Traced.bind (firstNamespace_traced o.names hv)
  intro asked hasked
  cases hfound : ((l.platform s).firstNamespace o.names v).1 with
  | some found =>
    rw [hfound] at hasked
    exact ⟨_, fun _ => rfl, .mk _ hasked⟩
  | none =>
    rw [hfound] at hasked
    exact ⟨_, fun _ => rfl, .mk _ hasked⟩

/-- Once it is known where the function lies, or that it was not found, it is not searched. -/
theorem openAllVendor_traced_known [Journal W] (opens : List VendorOpen)
    (hv : v.2 = some function?) :
    Traced v (joined ((l.recorded.platform s.recorded).openAllVendor opens))
      ((l.platform s).openAllVendor opens) (VendorOpens s.home (some function?) opens) := by
  unfold Platform.openAllVendor
  induction opens generalizing v with
  | nil => exact .pure VendorOpens.nil
  | cons o others ih =>
    rw [List.mapM_cons, List.mapM_cons, joined_bind]
    apply Traced.bind (openVendor_traced o hv)
    intro calls hcalls
    rw [joined_bind]
    apply Traced.bind (ih (openVendor_known o hv))
    intro more hmore
    exact .done (P := fun answers new => VendorOpens _ _ _ answers (calls ++ new))
      (.known hcalls hmore)

end Known

section Unknown

variable (l : Loader W) (s : Surroundings W) {w : W}

theorem exportedNamespace_of_searched (name : RawName) :
    (l.platform s).exportedNamespace name (w, none) =
      (l.platform s).exportedNamespace name (l.namespaceFunction s (w, none)).2 := rfl

/-- An open that asks for a namespace does after a search what it does without one. -/
theorem firstNamespace_of_searched {names : List String} (h : askable names ≠ []) :
    (l.platform s).firstNamespace names (w, none) =
      (l.platform s).firstNamespace names (l.namespaceFunction s (w, none)).2 := by
  induction names with
  | nil => exact absurd rfl h
  | cons name others ih =>
    unfold Platform.firstNamespace
    by_cases hzero : '\x00' ∈ name.toList
    · rw [askable_cons_of_mem hzero] at h
      rw [if_pos hzero]
      exact ih h
    · rw [if_neg hzero, Action.bind_apply, exportedNamespace_of_searched]
      rfl

theorem openAllVendor_of_searched [Journal W] {o : VendorOpen} (h : askable o.names ≠ [])
    (others : List VendorOpen) :
    (l.platform s).openAllVendor (o :: others) (w, none) =
      (l.platform s).openAllVendor (o :: others) (l.namespaceFunction s (w, none)).2 := by
  have hopen : (l.platform s).openVendor o (w, none) =
      (l.platform s).openVendor o (l.namespaceFunction s (w, none)).2 := by
    unfold Platform.openVendor Platform.openInNamespaces
    rw [Action.bind_apply, firstNamespace_of_searched l s h]
    rfl
  unfold Platform.openAllVendor
  rw [List.mapM_cons, Action.bind_apply, hopen]
  rfl

variable {l s} {v : W × NamespaceFunction} [Journal W]

theorem openVendor_known_of_unasked {o : VendorOpen} (h : askable o.names = []) :
    ((l.platform s).openVendor o v).2.2 = v.2 := by
  unfold Platform.openVendor Platform.openInNamespaces
  rw [Platform.firstNamespace_eq_pure h]
  rfl

theorem openVendor_traced_of_unasked {o : VendorOpen} (h : askable o.names = []) :
    Traced v (joined ((l.recorded.platform s.recorded).openVendor o))
      ((l.platform s).openVendor o) (VendorOpened none o) := by
  unfold Platform.openVendor Platform.openInNamespaces
  rw [Platform.firstNamespace_eq_pure h, Platform.firstNamespace_eq_pure h]
  exact ⟨_, fun _ => rfl, .mk _ .nowhere⟩

theorem openAllVendor_traced (opens : List VendorOpen) (hv : v.2 = none) :
    Traced v (joined ((l.recorded.platform s.recorded).openAllVendor opens))
      ((l.platform s).openAllVendor opens) (VendorOpens s.home none opens) := by
  induction opens generalizing v with
  | nil => exact .pure VendorOpens.nil
  | cons o others ih =>
    by_cases hasked : askable o.names = []
    · unfold Platform.openAllVendor
      rw [List.mapM_cons, List.mapM_cons, joined_bind]
      apply Traced.bind (openVendor_traced_of_unasked hasked)
      intro calls hcalls
      rw [joined_bind]
      apply Traced.bind (ih ((openVendor_known_of_unasked hasked).trans hv))
      intro more hmore
      exact .done (P := fun answers new => VendorOpens _ _ _ answers (calls ++ new))
        (.unasked hasked hcalls hmore)
    · obtain ⟨w, known⟩ := v
      obtain rfl : known = none := hv
      let answer := (l.findSymbol everywhere (Text.encode namespaceFunctionName) s.home w).1
      apply Traced.of_call (functionSearched s.home answer)
      · exact openAllVendor_of_searched l s hasked others
      · intro earlier
        unfold joined
        dsimp only
        rw [openAllVendor_of_searched l.recorded s.recorded hasked others]
        rfl
      · apply (openAllVendor_traced_known (o :: others) rfl).mono
        exact fun _ => .searched _ hasked

end Unknown

end Loader

/-- The calls that opens make once it is known where the function lies, or that there is none. -/
inductive LoaderCall.Allowed : Option UInt64 → LoaderCall → Prop
  | query {function : UInt64} (name : RawName) (answer : UInt64) :
    Allowed (some function) (.callAt function name answer)
  | opened {function : UInt64} (name : RawName) (flags : Int32)
      (libraryNamespace caller answer : UInt64) :
    Allowed (some function)
      (.openExtended name flags (some (.inNamespace libraryNamespace)) caller answer)
  | openedInNone (name : RawName) (flags : Int32) (caller answer : UInt64) :
    Allowed none (.openExtended name flags (some (.inNamespace 0)) caller answer)

namespace Loader

/-- Calls among which the function is searched at most once. Before the search, and where there is
none, all opens are in namespace zero. -/
inductive SearchedOnce (home : UInt64) : List LoaderCall → Prop
  | never {calls : List LoaderCall} :
    (∀ c ∈ calls, c.Allowed none) → SearchedOnce home calls
  | once {before after : List LoaderCall} (answer : UInt64) :
    (∀ c ∈ before, c.Allowed none) → (∀ c ∈ after, c.Allowed (found answer)) →
    SearchedOnce home (before ++ functionSearched home answer :: after)

section Searched

variable {home : UInt64} {function? : Option UInt64} {calls : List LoaderCall}

theorem SearchedOnce.append_left {earlier : List LoaderCall}
    (hearlier : ∀ c ∈ earlier, c.Allowed none) (h : SearchedOnce home calls) :
    SearchedOnce home (earlier ++ calls) := by
  cases h with
  | never h => exact .never (List.forall_mem_append.mpr ⟨hearlier, h⟩)
  | once answer h h' =>
    rw [← List.append_assoc]
    exact .once answer (List.forall_mem_append.mpr ⟨hearlier, h⟩) h'

theorem Queried.allowed {names : List String} {found? : Option UInt64}
    (h : Queried function? names found? calls) : ∀ c ∈ calls, c.Allowed function? := by
  induction h with
  | nowhere => exact fun _ h => absurd h List.not_mem_nil
  | exhausted => exact fun _ h => absurd h List.not_mem_nil
  | found => exact List.forall_mem_singleton.mpr (.query _ _)
  | passed _ ih => exact List.forall_mem_cons.mpr ⟨.query _ _, ih⟩

/-- An open after a query is in the namespace that the query found. -/
theorem Queried.allowed_open {names : List String} {found? : Option UInt64}
    (h : Queried function? names found? calls) (name : RawName) (flags : Int32)
    (caller answer : UInt64) : LoaderCall.Allowed function?
      (.openExtended name flags (some (.inNamespace (found?.getD 0))) caller answer) := by
  cases h with
  | nowhere => exact .openedInNone name flags caller answer
  | exhausted => exact .opened name flags _ caller answer
  | found => exact .opened name flags _ caller answer
  | passed => exact .opened name flags _ caller answer

theorem VendorOpened.allowed {o : VendorOpen} {answer : Option UInt64}
    (h : VendorOpened function? o answer calls) : ∀ c ∈ calls, c.Allowed function? := by
  cases h with
  | mk answer h =>
    refine List.forall_mem_append.mpr ⟨h.allowed, ?_⟩
    exact List.forall_mem_singleton.mpr (h.allowed_open _ _ _ answer)

theorem VendorOpens.allowed {opens : List VendorOpen} {answers : List (Option UInt64)}
    (h : VendorOpens home (some function?) opens answers calls) :
    ∀ c ∈ calls, c.Allowed function? := by
  generalize hknown : some function? = known at h
  induction h with
  | nil => exact fun _ h => absurd h List.not_mem_nil
  | unasked => cases hknown
  | searched => cases hknown
  | known hopened _ ih =>
    obtain rfl := Option.some.inj hknown
    exact List.forall_mem_append.mpr ⟨hopened.allowed, ih rfl⟩

theorem VendorOpens.searchedOnce {opens : List VendorOpen} {answers : List (Option UInt64)}
    (h : VendorOpens home none opens answers calls) : SearchedOnce home calls := by
  generalize hknown : (none : NamespaceFunction) = known at h
  induction h with
  | nil => exact .never fun _ h => absurd h List.not_mem_nil
  | unasked _ hopened _ ih => exact (ih rfl).append_left hopened.allowed
  | searched answer _ h =>
    have hbefore : ∀ c ∈ [], LoaderCall.Allowed none c := fun _ h => absurd h List.not_mem_nil
    exact .once answer hbefore h.allowed
  | known => cases hknown

end Searched

/-- An open in namespaces asks for the names that can be asked for, in order, until one is
exported, and is then one open there. Of opens one after the other, the first that asks for a
namespace searches the function that tells them, and none searches it again. -/
theorem vendorOpens_searched_once :
    (∀ {W Q : Type} [Journal W] (p : Platform W) (names : List String) (name : RawName)
      (flags : Int32) (caller : UInt64) (w : W),
      Traced w (p.recorded.openInNamespaces names name flags caller)
        (p.openInNamespaces names name flags caller)
        (Platform.OpenedInNamespaces (Q := Q) names name flags caller)) ∧
    ∀ {W : Type} [Journal W] (l : Loader W) (s : Surroundings W) (opens : List VendorOpen) (w : W),
      Traced (w, none) (joined ((l.recorded.platform s.recorded).openAllVendor opens))
        ((l.platform s).openAllVendor opens) fun answers calls =>
          VendorOpens s.home none opens answers calls ∧ SearchedOnce s.home calls := by
  constructor
  · intro W Q _ p names name flags caller w
    exact Platform.openInNamespaces_traced names name flags caller
  · intro W _ l s opens w
    apply (openAllVendor_traced opens rfl).mono
    exact fun _ h => ⟨h, h.searchedOnce⟩

end Loader

end NativeBridge
