import NativeBridge.Gateway.Request
import NativeBridge.Proofs.Linker.Vulkan

/-! # Steps of the gateway

The requests to the gateway come down to four kinds of steps. Each part of the gateway changes with
one or two of them: the entry points with the first that are handed over, the handles with every
one that is told, and the linker with the first that is armed and then by what is handed on to it.
-/

namespace NativeBridge

variable {W Q : Type}

def Loader.complete? (openLibrary : Option (OpenFunction W))
    (findSymbol : Option (SymbolFunction W)) (openExtended : Option (ExtendedOpenFunction W)) :
    Option (Loader W) :=
  match openLibrary, findSymbol, openExtended with
  | some openLibrary, some findSymbol, some openExtended =>
    some { openLibrary, findSymbol, openExtended }
  | _, _, _ => none

namespace Gateway

/-- What a request to the gateway comes down to. -/
inductive Step (W Q : Type)
  | tell (part : Vulkan) (handle : UInt64)
  /-- A linker is to be armed, if it could be made. -/
  | arm (host : Host W Q) (made : Except SetupFailure Linker)
  /-- Entry points are handed over, if none is missing. -/
  | install (loader? : Option (Loader W))
  /-- A query is put, if it has the name it is about. -/
  | ask (q? : Option Query)

namespace Step

def linker? : Step W Q → Option (Host W Q × Linker)
  | .arm host (.ok l) => some (host, l)
  | _ => none

def loader? : Step W Q → Option (Loader W)
  | .install loader? => loader?
  | _ => none

/-- What a step tells a handle of Vulkan to be. -/
def told? (part : Vulkan) : Step W Q → Option UInt64
  | .tell part' handle => if part' = part then some handle else none
  | _ => none

/-- What a step asks of a linker that is armed. -/
def handedOn? : Step W Q → Option Linker.Request
  | .tell part handle => some (.tell part handle)
  | .ask q? => q?.map .query
  | _ => none

/-- What a step leaves of a linker that is armed. -/
def linkerAfter [Journal W] (step : Step W Q) (host : Host W Q) (l : Linker) (w : W) : Linker :=
  match step.handedOn? with
  | some request => (l.perform host request w).1.2
  | none => l

theorem told?_eq_none {step : Step W Q} {armed : Host W Q × Linker}
    (h : step.linker? = some armed) (part : Vulkan) : step.told? part = none := by
  cases step with
  | tell => cases h
  | arm => rfl
  | install => rfl
  | ask => rfl

theorem vulkan_linkerAfter [Journal W] (step : Step W Q) (host : Host W Q) (l : Linker) (w : W)
    (part : Vulkan) :
    (step.linkerAfter host l w).vulkan part = (step.told? part).getD (l.vulkan part) := by
  cases step with
  | tell part' handle =>
    change (l.perform host (.tell part' handle) w).1.2.vulkan part = _
    rw [Linker.vulkan_perform_tell]
    cases part <;> cases part' <;> rfl
  | arm => rfl
  | install => rfl
  | ask q? =>
    cases q? with
    | none => rfl
    | some q => exact congrFun (Linker.vulkan_perform_query host l q w) part

end Step

def Request.step : Request W Q → Step W Q
  | .setVulkanLoader handle => .tell .loader handle
  | .setVulkanDriver handle => .tell .driver handle
  | .arm host linker => .arm host (.ok linker)
  | .armFromEnvironment host env => .arm host env.linker
  | .installLoader loader => .install (some loader)
  | .setEntryPoints open? symbol? extended? => .install (Loader.complete? open? symbol? extended?)
  | .openLibrary name? flags caller => .ask (some (.openLibrary name? flags caller))
  | .openExtended name? flags info caller => .ask (name?.map (.openExtended · flags info caller))
  | .openVendor name? flags caller => .ask (name?.map (.openVendor · flags caller))
  | .findSymbol handle name? caller => .ask (name?.map (.findSymbol handle · caller))

def vulkan (g : Gateway W Q) : Vulkan → UInt64
  | .loader => g.vulkanLoader
  | .driver => g.vulkanDriver

def tell (g : Gateway W Q) : Vulkan → UInt64 → Gateway W Q
  | .loader, handle => g.setVulkanLoader handle
  | .driver, handle => g.setVulkanDriver handle

theorem vulkan_withHandles {g : Gateway W Q} {l : Linker} {part : Vulkan} (h : l.vulkan part = 0) :
    (g.withHandles l).vulkan part = g.vulkan part := by
  have hkept (own told : UInt64) (hown : own = 0) : (if told = 0 then own else told) = told := by
    split
    · rw [hown, ‹told = 0›]
    · rfl
  cases part with
  | loader => exact hkept _ _ h
  | driver => exact hkept _ _ h

variable [Journal W]

def take (s : Surroundings W) (g : Gateway W Q) : Step W Q → StateM W (Response × Gateway W Q)
  | .tell part handle => return (.done, g.tell part handle)
  | .arm host made => return g.attempt (g.armMade host made)
  | .install (some loader) => return (.done, g.installLoader loader)
  | .install none => do
    note .incompleteLoader
    return (.done, g)
  | .ask (some q) => do
    let (answer, g) ← g.answer s q
    return (.answer answer, g)
  | .ask none => return (.answer .nothing, g)

theorem perform_eq_take (s : Surroundings W) (g : Gateway W Q) (request : Request W Q) :
    g.perform s request = g.take s request.step := by
  cases request with
  | setVulkanLoader => rfl
  | setVulkanDriver => rfl
  | arm => rfl
  | armFromEnvironment => rfl
  | installLoader => rfl
  | setEntryPoints openLibrary findSymbol openExtended =>
    rcases openLibrary with _ | _ <;> rcases findSymbol with _ | _ <;>
      rcases openExtended with _ | _ <;> rfl
  | openLibrary => rfl
  | openExtended name? =>
    cases name? with
    | none => rfl
    | some name => rfl
  | openVendor name? =>
    cases name? with
    | none => rfl
    | some name => rfl
  | findSymbol _ name? =>
    cases name? with
    | none => rfl
    | some name => rfl

variable {s : Surroundings W} {g : Gateway W Q} {w : W}

/-- What an answer leaves of the gateway, whoever gives it. -/
theorem answer_kept (q : Query) :
    (g.answer s q w).1.2.loader?.map Installed.loader = g.loader?.map Installed.loader ∧
    (g.answer s q w).1.2.vulkan = g.vulkan ∧
    (g.answer s q w).1.2.armed? = g.armed?.map fun a =>
      { a with linker := (a.linker.answer a.host q w).1.2 } := by
  obtain ⟨armed?, loader?, vulkanLoader, vulkanDriver⟩ := g
  cases armed? with
  | some a => exact ⟨rfl, rfl, rfl⟩
  | none =>
    cases loader? with
    | some i => exact ⟨rfl, rfl, rfl⟩
    | none => exact ⟨rfl, rfl, rfl⟩

/-- Arming changes nothing if it fails, and otherwise there was no linker before. -/
theorem take_arm_cases (host : Host W Q) (made : Except SetupFailure Linker) :
    (∃ l, made = .ok l ∧ g.armed? = none ∧ g.take s (.arm host made) w =
      ((.done, { g with armed? := some ⟨host, g.withHandles l⟩ }), w)) ∨
    ((g.armed? = none → ∃ failure, made = .error failure) ∧
      ∃ failure, g.take s (.arm host made) w = ((.failed failure, g), w)) := by
  cases made with
  | error failure => exact .inr ⟨fun _ => ⟨failure, rfl⟩, failure, rfl⟩
  | ok l =>
    change (∃ l', _ ∧ _ ∧ (g.attempt ((g.arm host l).mapError _), w) = _) ∨
      _ ∧ ∃ failure, (g.attempt ((g.arm host l).mapError _), w) = _
    unfold arm
    cases harmed : g.armed? with
    | none => exact .inl ⟨l, rfl, rfl, rfl⟩
    | some a => exact .inr ⟨nofun, _, rfl⟩

theorem loader?_take (step : Step W Q) :
    (g.take s step w).1.2.loader?.map Installed.loader =
      (g.loader?.map Installed.loader).or step.loader? := by
  cases step with
  | tell part handle => cases part <;> exact Option.or_none.symm
  | arm host made =>
    rcases take_arm_cases host made with ⟨l, -, -, h⟩ | ⟨-, failure, h⟩
    · rw [h]
      exact Option.or_none.symm
    · rw [h]
      exact Option.or_none.symm
  | install loader? =>
    cases loader? with
    | none => exact Option.or_none.symm
    | some loader =>
      change (g.loader?.or _).map _ = _
      cases g.loader? with
      | none => rfl
      | some i => rfl
  | ask q? =>
    cases q? with
    | none => exact Option.or_none.symm
    | some q => exact (answer_kept q).1.trans Option.or_none.symm

theorem vulkan_take (step : Step W Q) (part : Vulkan) :
    (g.take s step w).1.2.vulkan part = (step.told? part).getD (g.vulkan part) := by
  cases step with
  | tell part' handle => cases part <;> cases part' <;> rfl
  | arm host made =>
    rcases take_arm_cases host made with ⟨l, -, -, h⟩ | ⟨-, failure, h⟩
    · rw [h]
      cases part <;> rfl
    · rw [h]
      rfl
  | install loader? =>
    cases loader? with
    | none => rfl
    | some loader => cases part <;> rfl
  | ask q? =>
    cases q? with
    | none => rfl
    | some q => exact congrFun (answer_kept q).2.1 part

/-- A linker in use stays, and without one a step may install its own. -/
theorem armed?_take (step : Step W Q) :
    (g.take s step w).1.2.armed? =
      (g.armed?.map fun a => ⟨a.host, step.linkerAfter a.host a.linker w⟩).or
        (step.linker?.map fun armed => ⟨armed.1, g.withHandles armed.2⟩) := by
  have kept : g.armed? = (g.armed?.map fun a => ⟨a.host, a.linker⟩).or none := by
    cases g.armed? <;> rfl
  cases step with
  | tell part handle => cases part <;> exact Option.or_none.symm
  | arm host made =>
    rcases take_arm_cases host made with ⟨l, rfl, hnone, htry⟩ | ⟨hmade, failure, htry⟩
    · rw [htry, hnone]
      rfl
    · rw [htry]
      cases hg : g.armed? with
      | none =>
        obtain ⟨failure', rfl⟩ := hmade hg
        rfl
      | some a => rfl
  | install loader? => cases loader? <;> exact kept
  | ask q? =>
    cases q? with
    | none => exact kept
    | some q => exact (answer_kept q).2.2.trans Option.or_none.symm

theorem armed?_take_of_none (h : g.armed? = none) (step : Step W Q) :
    (g.take s step w).1.2.armed? =
      step.linker?.map fun armed => ⟨armed.1, g.withHandles armed.2⟩ := by
  rw [armed?_take, h]
  rfl

theorem armed?_take_of_some {a : Armed W Q} (h : g.armed? = some a) (step : Step W Q) :
    (g.take s step w).1.2.armed? = some ⟨a.host, step.linkerAfter a.host a.linker w⟩ := by
  rw [armed?_take, h]
  rfl

theorem take_failed {step : Step W Q} {failure : SetupFailure}
    (h : (g.take s step w).1.1 = .failed failure) :
    g.take s step w = ((.failed failure, g), w) := by
  cases step with
  | tell => cases h
  | arm host made =>
    rcases take_arm_cases host made with ⟨l, -, -, htry⟩ | ⟨-, failure', htry⟩
    · rw [htry] at h
      cases h
    · rw [htry] at h ⊢
      obtain rfl := Response.failed.inj h
      rfl
  | install loader? =>
    cases loader? with
    | none => cases h
    | some loader => cases h
  | ask q? =>
    cases q? with
    | none => cases h
    | some q => cases h

end Gateway

end NativeBridge
