import NativeBridge.Gateway
import NativeBridge.Proofs.Text.Blank
import NativeBridge.Proofs.Text.Count

/-! # Layers of a configuration

The variables of the environment, the fields of the file and the defaults lie over each other, and
each field of a configuration is taken from the uppermost layer that has it. There is a
configuration if every layer that is asked for can be read and the result is usable.
-/

namespace NativeBridge

open Checked

namespace Config

variable {lookup : String → Option String} {read : FileReader} {c : Config}

/-- A variable that is unset, or set to a text that stands for something once it is trimmed. -/
inductive Setting {α : Type} (lookup : String → Option String) (key : String)
    (Stands : String → α → Prop) : Option α → Prop
  | unset : lookup key = none → Setting lookup key Stands none
  | set {text value : String} {a : α} :
    lookup key = some text → Text.IsTrim text value → Stands value a →
    Setting lookup key Stands (some a)

section Setting

variable {α : Type} {key text : String} {Stands : String → α → Prop} {a? : Option α}

theorem setting_iff_of_unset (h : lookup key = none) :
    Setting lookup key Stands a? ↔ a? = none := by
  constructor
  · intro hset
    cases hset with
    | unset => rfl
    | set htext => rw [h] at htext; cases htext
  · rintro rfl
    exact .unset h

theorem setting_iff_of_set (h : lookup key = some text) :
    Setting lookup key Stands a? ↔ ∃ a, Stands (Text.trim text) a ∧ a? = some a := by
  constructor
  · intro hset
    cases hset with
    | unset hunset => rw [h] at hunset; cases hunset
    | set htext htrim hstands =>
      obtain rfl := Option.some.inj (h.symm.trans htext)
      obtain rfl := Text.trim_eq_iff.mpr htrim
      exact ⟨_, hstands, rfl⟩
  · rintro ⟨a, hstands, rfl⟩
    exact .set h (Text.isTrim_trim text) hstands

end Setting

/-- Whether the file at a path can be read and parsed, and gives these fields. -/
def Holds (read : FileReader) (path : String) (draft : ConfigDraft) : Prop :=
  ∃ content, read path = .ok content ∧ ConfigDraft.reader.whole content = .ok draft

/-- What lies over the defaults. -/
structure Layers where
  directory? : Option String
  capacity? : Option UInt64
  file? : Option ConfigDraft

namespace Layers

/-- Whether these are the layers that the environment and the files give. -/
structure Given (lookup : String → Option String) (read : FileReader) (layers : Layers) : Prop where
  directory : Setting lookup directoryVariable Eq layers.directory?
  capacity : Setting lookup capacityVariable Text.Denotes layers.capacity?
  file : Setting lookup fileVariable (Holds read) layers.file?

def ofFile? {α : Type} (layers : Layers) (field : ConfigDraft → Option α) : Option α :=
  layers.file?.bind field

/-- Each field as the uppermost layer has it. -/
def config (layers : Layers) : Config where
  nativeDirectory := (layers.directory?.or (layers.ofFile? (·.nativeDirectory))).getD
    ({} : Config).nativeDirectory
  cacheCapacity := (layers.capacity?.or (layers.ofFile? (·.cacheCapacity))).getD
    ({} : Config).cacheCapacity
  vulkanLoader := (layers.ofFile? (·.vulkanLoader)).getD ({} : Config).vulkanLoader
  vulkanDriverFragment := (layers.ofFile? (·.vulkanDriverFragment)).getD
    ({} : Config).vulkanDriverFragment
  vendorNamespaces := (layers.ofFile? (·.vendorNamespaces)).getD ({} : Config).vendorNamespaces

theorem config_eq (layers : Layers) : layers.config =
    ConfigDraft.completedBy
      { nativeDirectory := layers.directory?, cacheCapacity := layers.capacity? }
      ((layers.file?.getD {}).completedBy {}) := by
  obtain ⟨directory?, capacity?, file?⟩ := layers
  cases directory? <;> cases capacity? <;> cases file? <;> rfl

end Layers

structure Usable (c : Config) : Prop where
  capacity : 1 ≤ c.cacheCapacity
  loader : c.vulkanLoader ≠ ""
  fragment : c.vulkanDriverFragment ≠ ""

theorem validate_eq_ok_iff : c.validate = .ok () ↔ c.Usable := by
  unfold validate
  split
  · next hzero =>
    simp only [reduceCtorEq, false_iff]
    rintro ⟨hcapacity, -, -⟩
    rw [hzero] at hcapacity
    exact absurd hcapacity (by decide)
  · next hzero =>
    split
    · next hempty =>
      simp only [reduceCtorEq, false_iff]
      rintro ⟨-, hloader, hfragment⟩
      simp [hloader, hfragment] at hempty
    · next hempty =>
      simp only [String.isEmpty_iff, not_or] at hempty
      simp only [true_iff]
      exact ⟨UInt64.pos_iff_ne_zero.mpr hzero, hempty.1, hempty.2⟩

def draftAt (read : FileReader) (path : String) : Except ConfigFault ConfigDraft := do
  let content ← (read path).mapError (.unreadable path)
  (ConfigDraft.reader.whole content).mapError (.unparsable path)

def draftVariable (lookup : String → Option String) (read : FileReader) :
    Except ConfigFault (Option ConfigDraft) :=
  match lookup fileVariable with
  | none => .ok none
  | some text => (draftAt read (Text.trim text)).map some

def layers (lookup : String → Option String) (read : FileReader) : Except ConfigFault Layers := do
  let file? ← draftVariable lookup read
  let capacity? ← countVariable lookup capacityVariable
  return ⟨(lookup directoryVariable).map Text.trim, capacity?, file?⟩

theorem ofFile_eq (read : FileReader) (path : String) :
    ofFile read path = (draftAt read path).map (·.completedBy {}) := by
  unfold ofFile ofJson draftAt
  cases read path with
  | error fault => rfl
  | ok content =>
    change Except.mapError _ ((ConfigDraft.reader.whole content).map _) =
      ((ConfigDraft.reader.whole content).mapError _).map _
    cases ConfigDraft.reader.whole content <;> rfl

theorem ofVariables_eq (lookup : String → Option String) (read : FileReader) :
    ofVariables lookup read = do
      let layers ← layers lookup read
      layers.config.validate
      return layers.config := by
  simp only [Layers.config_eq]
  unfold ofVariables layers draftVariable
  cases lookup fileVariable with
  | none => cases countVariable lookup capacityVariable <;> rfl
  | some text =>
    dsimp only
    rw [ofFile_eq]
    cases draftAt read (Text.trim text) with
    | error fault => rfl
    | ok draft => cases countVariable lookup capacityVariable <;> rfl

theorem draftAt_eq_ok_iff {path : String} {draft : ConfigDraft} :
    draftAt read path = .ok draft ↔ Holds read path draft := by
  simp only [draftAt, bind_eq_ok_iff, mapError_eq_ok_iff, Holds]

theorem draftVariable_eq_ok_iff {file? : Option ConfigDraft} :
    draftVariable lookup read = .ok file? ↔ Setting lookup fileVariable (Holds read) file? := by
  unfold draftVariable
  split
  · next hunset => rw [setting_iff_of_unset hunset, Except.ok.injEq, eq_comm]
  · next text htext =>
    rw [setting_iff_of_set htext, map_eq_ok_iff]
    simp only [draftAt_eq_ok_iff, eq_comm (a := file?)]

theorem countVariable_eq_ok_iff {key : String} {count? : Option UInt64} :
    countVariable lookup key = .ok count? ↔ Setting lookup key Text.Denotes count? := by
  unfold countVariable
  split
  · next hunset => rw [setting_iff_of_unset hunset, Except.ok.injEq, eq_comm]
  · next text htext =>
    rw [setting_iff_of_set htext, mapError_eq_ok_iff, map_eq_ok_iff]
    simp only [Text.count_eq_ok_iff, eq_comm (a := count?)]

theorem setting_directory_iff {directory? : Option String} :
    Setting lookup directoryVariable Eq directory? ↔
      (lookup directoryVariable).map Text.trim = directory? := by
  cases hdirectory : lookup directoryVariable with
  | none => rw [setting_iff_of_unset hdirectory, Option.map_none, eq_comm]
  | some text => simp [setting_iff_of_set hdirectory, eq_comm]

theorem layers_eq_ok_iff {given : Layers} :
    layers lookup read = .ok given ↔ given.Given lookup read := by
  obtain ⟨directory?, capacity?, file?⟩ := given
  simp only [layers, bind_eq_ok_iff, draftVariable_eq_ok_iff, countVariable_eq_ok_iff]
  constructor
  · rintro ⟨_, hfile, _, hcapacity, h⟩
    obtain ⟨rfl, rfl, rfl⟩ := Layers.mk.inj (pure_eq_ok_iff.mp h)
    exact ⟨setting_directory_iff.mpr rfl, hcapacity, hfile⟩
  · rintro ⟨hdirectory, hcapacity, hfile⟩
    obtain rfl := setting_directory_iff.mp hdirectory
    exact ⟨_, hfile, _, hcapacity, rfl⟩

theorem ofVariables_eq_ok_iff : ofVariables lookup read = .ok c ↔
    ∃ given : Layers, given.Given lookup read ∧ given.config = c ∧ c.Usable := by
  rw [ofVariables_eq, bind_eq_ok_iff]
  constructor
  · rintro ⟨given, hgiven, h⟩
    obtain ⟨_, hvalid, h⟩ := bind_eq_ok_iff.mp h
    obtain rfl := pure_eq_ok_iff.mp h
    exact ⟨given, layers_eq_ok_iff.mp hgiven, rfl, validate_eq_ok_iff.mp hvalid⟩
  · rintro ⟨given, hgiven, rfl, husable⟩
    refine ⟨given, layers_eq_ok_iff.mpr hgiven, bind_eq_ok_iff.mpr ?_⟩
    exact ⟨(), validate_eq_ok_iff.mpr husable, rfl⟩

/-- Why there is no configuration: the first layer that cannot be read, or what makes the result
unusable. -/
inductive Rejected (lookup : String → Option String) (read : FileReader) : ConfigFault → Prop
  | unreadable {text path reason : String} :
    lookup fileVariable = some text → Text.IsTrim text path → read path = .error reason →
    Rejected lookup read (.unreadable path reason)
  | unparsable {text path : String} {content : List UInt8} {mishap : Json.Mishap} :
    lookup fileVariable = some text → Text.IsTrim text path → read path = .ok content →
    ConfigDraft.reader.whole content = .error mishap →
    Rejected lookup read (.unparsable path mishap)
  | badCount {file? : Option ConfigDraft} {text value : String} {fault : Text.CountFault} :
    Setting lookup fileVariable (Holds read) file? →
    lookup capacityVariable = some text → Text.IsTrim text value →
    Text.count value = .error fault →
    Rejected lookup read (.badCount capacityVariable text fault)
  | zeroCapacity {given : Layers} :
    given.Given lookup read → given.config.cacheCapacity = 0 →
    Rejected lookup read .zeroCapacity
  | emptyVulkanName {given : Layers} :
    given.Given lookup read → given.config.cacheCapacity ≠ 0 →
    given.config.vulkanLoader = "" ∨ given.config.vulkanDriverFragment = "" →
    Rejected lookup read .emptyVulkanName

variable {fault : ConfigFault}

theorem rejected_of_draftVariable (h : draftVariable lookup read = .error fault) :
    Rejected lookup read fault := by
  unfold draftVariable at h
  split at h
  · cases h
  · next text htext =>
    have htrim := Text.isTrim_trim text
    rcases bind_eq_error_iff.mp (map_eq_error_iff.mp h) with h | ⟨content, hread, h⟩
    · obtain ⟨reason, hread, rfl⟩ := mapError_eq_error_iff.mp h
      exact .unreadable htext htrim hread
    · obtain ⟨mishap, hparse, rfl⟩ := mapError_eq_error_iff.mp h
      exact .unparsable htext htrim (mapError_eq_ok_iff.mp hread) hparse

theorem rejected_of_countVariable {file? : Option ConfigDraft}
    (hfile : Setting lookup fileVariable (Holds read) file?)
    (h : countVariable lookup capacityVariable = .error fault) : Rejected lookup read fault := by
  unfold countVariable at h
  split at h
  · cases h
  · next text htext =>
    obtain ⟨cause, hcount, rfl⟩ := mapError_eq_error_iff.mp h
    exact .badCount hfile htext (Text.isTrim_trim text) (map_eq_error_iff.mp hcount)

theorem rejected_of_validate {given : Layers} (hgiven : given.Given lookup read)
    (h : given.config.validate = .error fault) : Rejected lookup read fault := by
  unfold validate at h
  split at h
  · next hzero =>
    obtain rfl := Except.error.inj h
    exact .zeroCapacity hgiven hzero
  · next hzero =>
    split at h
    · next hempty =>
      obtain rfl := Except.error.inj h
      simp only [String.isEmpty_iff] at hempty
      exact .emptyVulkanName hgiven hzero hempty
    · cases h

theorem ofVariables_of_rejected (h : Rejected lookup read fault) :
    ofVariables lookup read = .error fault := by
  rw [ofVariables_eq]
  cases h with
  | unreadable htext htrim hread =>
    obtain rfl := Text.trim_eq_iff.mpr htrim
    rw [layers, draftVariable, htext]
    dsimp only
    rw [draftAt, hread]
    rfl
  | unparsable htext htrim hread hparse =>
    obtain rfl := Text.trim_eq_iff.mpr htrim
    rw [layers, draftVariable, htext]
    dsimp only
    rw [draftAt, hread]
    change Except.bind (Except.bind (Except.map _ (Except.mapError _ _)) _) _ = _
    rw [hparse]
    rfl
  | badCount hfile htext htrim hcount =>
    obtain rfl := Text.trim_eq_iff.mpr htrim
    rw [layers, draftVariable_eq_ok_iff.mpr hfile, countVariable, htext]
    dsimp only
    rw [hcount]
    rfl
  | zeroCapacity hgiven hzero =>
    rw [layers_eq_ok_iff.mpr hgiven]
    change Except.bind (validate _) _ = _
    rw [validate, if_pos hzero]
    rfl
  | emptyVulkanName hgiven hzero hempty =>
    rw [layers_eq_ok_iff.mpr hgiven]
    change Except.bind (validate _) _ = _
    rw [validate, if_neg hzero, if_pos (by simpa only [String.isEmpty_iff] using hempty)]
    rfl

theorem ofVariables_eq_error_iff :
    ofVariables lookup read = .error fault ↔ Rejected lookup read fault := by
  constructor
  · intro h
    rw [ofVariables_eq] at h
    rcases bind_eq_error_iff.mp h with h | ⟨given, hgiven, h⟩
    · rcases bind_eq_error_iff.mp h with h | ⟨file?, hfile, h⟩
      · exact rejected_of_draftVariable h
      · rcases bind_eq_error_iff.mp h with h | ⟨capacity?, -, h⟩
        · exact rejected_of_countVariable (draftVariable_eq_ok_iff.mp hfile) h
        · cases h
    · rcases bind_eq_error_iff.mp h with h | ⟨-, -, h⟩
      · exact rejected_of_validate (layers_eq_ok_iff.mp hgiven) h
      · cases h
  · exact ofVariables_of_rejected

/-- The fields of a file that no variable lies over. -/
def uncovered (lookup : String → Option String) (draft : ConfigDraft) : ConfigDraft :=
  { draft with
    nativeDirectory := if (lookup directoryVariable).isSome then none else draft.nativeDirectory
    cacheCapacity := if (lookup capacityVariable).isSome then none else draft.cacheCapacity }

theorem Setting.isSome_eq {α : Type} {key : String} {Stands : String → α → Prop} {a? : Option α}
    (h : Setting lookup key Stands a?) : (lookup key).isSome = a?.isSome := by
  cases h with
  | unset hunset =>
    rw [hunset]
    rfl
  | set htext =>
    rw [htext]
    rfl

/-- What a file gives for a field that a variable lies over makes no difference. -/
theorem config_eq_of_uncovered_eq {directory? : Option String} {capacity? : Option UInt64}
    {draft draft' : ConfigDraft}
    (hdirectory : (lookup directoryVariable).isSome = directory?.isSome)
    (hcapacity : (lookup capacityVariable).isSome = capacity?.isSome)
    (h : uncovered lookup draft = uncovered lookup draft') :
    Layers.config ⟨directory?, capacity?, some draft⟩ =
      Layers.config ⟨directory?, capacity?, some draft'⟩ := by
  obtain ⟨hdir, hcap, hloader, hfragment, hnamespaces⟩ := ConfigDraft.mk.inj h
  rw [hdirectory] at hdir
  rw [hcapacity] at hcap
  simp only [Layers.config, Layers.ofFile?, Option.bind_some, hloader, hfragment, hnamespaces]
  congr 1
  · cases directory? with
    | none => exact congrArg (Option.getD · _) hdir
    | some directory => rfl
  · cases capacity? with
    | none => exact congrArg (Option.getD · _) hcap
    | some capacity => rfl

theorem ofVariables_congr {read' : FileReader} {draft draft' : ConfigDraft}
    (hfile : Setting lookup fileVariable (Holds read) (some draft))
    (hfile' : Setting lookup fileVariable (Holds read') (some draft'))
    (h : uncovered lookup draft = uncovered lookup draft') :
    ofVariables lookup read = ofVariables lookup read' := by
  rw [ofVariables_eq, ofVariables_eq, layers, layers, draftVariable_eq_ok_iff.mpr hfile,
    draftVariable_eq_ok_iff.mpr hfile']
  cases hcount : countVariable lookup capacityVariable with
  | error fault => rfl
  | ok capacity? =>
    have hcapacity := (countVariable_eq_ok_iff.mp hcount).isSome_eq
    have hdirectory : Setting lookup directoryVariable Eq _ := setting_directory_iff.mpr rfl
    have hconfig := config_eq_of_uncovered_eq hdirectory.isSome_eq hcapacity h
    change (Config.validate (Layers.config _) >>= fun _ => pure (Layers.config _)) =
      (Config.validate (Layers.config _) >>= fun _ => pure (Layers.config _))
    rw [hconfig]

/-- There is a configuration if and only if all layers can be read and lie over each other to a
usable one, which it then is. What a file gives beneath a variable makes no difference. Otherwise
there is a reason, and a linker that is armed is refused for the same one. -/
theorem ofVariables_layered (lookup : String → Option String) (read : FileReader) :
    (∀ c, ofVariables lookup read = .ok c ↔
      ∃ given : Layers, given.Given lookup read ∧ given.config = c ∧ c.Usable) ∧
    (∀ c, ofVariables lookup read = .ok c → c.validate = .ok ()) ∧
    (∀ read' draft draft', Setting lookup fileVariable (Holds read) (some draft) →
      Setting lookup fileVariable (Holds read') (some draft') →
      uncovered lookup draft = uncovered lookup draft' →
      ofVariables lookup read = ofVariables lookup read') ∧
    ∀ fault, (ofVariables lookup read = .error fault ↔ Rejected lookup read fault) ∧
      (ofVariables lookup read = .error fault →
        ∀ {W Q : Type} (g : Gateway W Q) (host : Host W Q) (pageSize : PageSizeAnswer),
          g.armFromEnvironment host ⟨lookup, read, pageSize⟩ =
            .error (.fault (.config fault))) := by
  refine ⟨fun c => ofVariables_eq_ok_iff, fun c h => ?_, fun read' draft draft' => ?_,
    fun fault => ⟨ofVariables_eq_error_iff, fun h W Q g host pageSize => ?_⟩⟩
  · obtain ⟨-, -, -, husable⟩ := ofVariables_eq_ok_iff.mp h
    exact validate_eq_ok_iff.mpr husable
  · exact ofVariables_congr
  · rw [Gateway.armFromEnvironment, Environment.linker, h]
    rfl

/-- A system with one file, which caches nothing and gives the Vulkan loader another name. -/
def cachelessFile : FileReader := fun path =>
  if path = "/etc/jb.json" then
    .ok (Text.encode "\x7b\"signature_cache_capacity\": 0, \"vulkan_loader_name\": \"v.so\"\x7d")
  else .error "No such file or directory (os error 2)"

def cachingEnvironment (key : String) : Option String :=
  if key = fileVariable then some " /etc/jb.json\n"
  else if key = capacityVariable then some "+8 "
  else none

/-- The capacity of the file is unusable, and is not used. -/
theorem ofVariables_layered_cacheless :
    ofVariables cachingEnvironment cachelessFile =
      .ok { cacheCapacity := 8, vulkanLoader := "v.so" } := by
  have hfile : Setting cachingEnvironment fileVariable (Holds cachelessFile)
      (some { cacheCapacity := some 0, vulkanLoader := some "v.so" }) := by
    have htext : cachingEnvironment fileVariable = some " /etc/jb.json\n" := by decide +kernel
    have htrim : Text.trim " /etc/jb.json\n" = "/etc/jb.json" := by decide +kernel
    refine .set htext (Text.trim_eq_iff.mp htrim) ⟨_, rfl, ?_⟩
    decide +kernel
  have hcapacity : Setting cachingEnvironment capacityVariable Text.Denotes (some 8) := by
    have htext : cachingEnvironment capacityVariable = some "+8 " := by decide +kernel
    have htrim : Text.trim "+8 " = "+8" := by decide +kernel
    refine .set htext (Text.trim_eq_iff.mp htrim) ⟨['8'], .inr (by decide +kernel), ?_⟩
    exact ⟨List.cons_ne_nil _ _, List.forall_mem_singleton.mpr rfl, rfl⟩
  have hdirectory : Setting cachingEnvironment directoryVariable Eq none :=
    .unset (by decide +kernel)
  refine ((ofVariables_layered cachingEnvironment cachelessFile).1 _).mpr ?_
  refine ⟨⟨none, some 8, some _⟩, ⟨hdirectory, hcapacity, hfile⟩, by decide +kernel, ?_⟩
  exact ⟨by decide, by decide +kernel, by decide +kernel⟩

end Config

end NativeBridge
