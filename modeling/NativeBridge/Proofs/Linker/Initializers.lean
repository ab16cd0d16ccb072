import NativeBridge.Linker.Opening
import NativeBridge.Proofs.Action
import NativeBridge.Proofs.Emulator.Queue

/-! # Initializers of a library that is opened

The first open of a library that ends in the emulator loads it, and replays in a scope that begins
only then. The initializers that the load put off are not in the queue that is replayed: they
still wait when the open returns, behind those that waited before.
-/

namespace NativeBridge

variable {W Q I : Type}

/-- Whether what a linker does beside its emulator leaves the queue alone. -/
structure Host.Undisturbed [Journal W] (host : Host W Q) (v : QueueView W Q I) : Prop where
  hasFile : ∀ path w, v.Same w (host.platform.hasFile path w).2
  note : ∀ n w, v.Same w (Journal.take n w)

namespace Linker

variable {host : Host W Q} {v : QueueView W Q I} {w w' : W} {l l' : Linker} {lib : Library}
  {name : String} {flags : Int32} {caller handle : UInt64}

/-- What is known after an open that loaded a library in the world `loading`. -/
structure Loaded (host : Host W Q) (v : QueueView W Q I) (name : String) (flags : Int32)
    (handle : UInt64) (w loading w' : W) (appended : List I) : Prop where
  same : v.Same w loading
  handle : (host.emulator.load name (.ofOpenFlags flags) loading).1 = .ok handle
  loaded : v.waiting (host.emulator.load name (.ofOpenFlags flags) loading).2 =
    v.waiting w ++ appended
  waiting : v.waiting w' = v.waiting w ++ appended
  ran : v.ran w' = v.ran w

theorem Loaded.of_same {appended : List I} {loading w'' : W} (hsame : v.Same w w'')
    (h : Loaded host v name flags handle w'' loading w' appended) :
    Loaded host v name flags handle w loading w' appended where
  same := hsame.trans h.same
  handle := h.handle
  loaded := h.loaded.trans (congrArg (· ++ appended) hsame.1)
  waiting := h.waiting.trans (congrArg (· ++ appended) hsame.1)
  ran := h.ran.trans hsame.2

theorem loaded_of_openEmulated (he : host.emulator.KeepsQueue v) {b : Binding}
    (h : openEmulated host name flags w = (.ok b, w')) :
    ∃ appended, Loaded host v name flags b.handle w w w' appended := by
  obtain ⟨⟨appended, happended⟩, hran⟩ := he.load name (.ofOpenFlags flags) w
  rw [openEmulated, Action.bind_apply] at h
  cases hload : (host.emulator.load name (.ofOpenFlags flags) w).1 with
  | error reason =>
    rw [hload] at h
    cases h
  | ok found =>
    rw [hload] at h
    dsimp only at h
    split at h
    · cases h
    · rw [Action.bind_apply, Action.pure_apply] at h
      obtain ⟨hb, rfl⟩ := Prod.mk.inj h
      obtain rfl := Except.ok.inj hb
      obtain ⟨hwaiting, hkept⟩ :=
        he.same_replayInScope (host.emulator.load name (.ofOpenFlags flags) w).2
      refine ⟨appended, ⟨rfl, rfl⟩, hload, happended.symm, ?_, hkept.trans hran⟩
      rw [hwaiting, happended]

theorem kind_of_openNative {path : String} {b : Binding}
    (h : openNative host path flags caller w = (.ok b, w')) : b.kind = .native := by
  unfold openNative at h
  split at h
  · cases h
  · rw [Action.bind_apply] at h
    cases hopened : (host.platform.openLibrary (some (Text.encode path)) flags caller w).1 with
    | none =>
      rw [hopened] at h
      cases h
    | some found =>
      rw [hopened] at h
      obtain ⟨hb, -⟩ := Prod.mk.inj h
      rw [← Except.ok.inj hb]

variable [Journal W]

theorem loaded_of_bind (he : host.emulator.KeepsQueue v) (hd : host.Undisturbed v)
    {config : Config} {policy : Policy}
    (h : bind host config policy name flags caller w = (.ok ⟨handle, .emulated⟩, w')) :
    ∃ loading appended, Loaded host v name flags handle w loading w' appended := by
  cases policy with
  | alwaysEmulated =>
    obtain ⟨appended, hloaded⟩ := loaded_of_openEmulated he h
    exact ⟨w, appended, hloaded⟩
  | preferNative =>
    have hfile := hd.hasFile (nativePath config name) w
    rw [Linker.bind, Action.bind_apply] at h
    split at h
    · cases kind_of_openNative h
    · rw [Action.bind_apply, Action.note_apply] at h
      obtain ⟨appended, hloaded⟩ := loaded_of_openEmulated he h
      exact ⟨_, appended, hloaded.of_same (hfile.trans (hd.note _ _))⟩

/-- What the first open of a library leaves behind when it ends in the emulator. -/
theorem loaded_of_openKnown (he : host.emulator.KeepsQueue v) (hd : host.Undisturbed v)
    (hfree : (l.slot lib.index).binding? = none)
    (h : openKnown host l lib name flags caller w = ((some handle, l'), w'))
    (hbound : (l'.slot lib.index).binding? = some ⟨handle, .emulated⟩) :
    ∃ loading appended, Loaded host v name flags handle w loading w' appended := by
  rw [openKnown, hfree] at h
  dsimp only at h
  rw [Action.bind_apply] at h
  cases hresult : (bind host l.config lib.policy name flags caller w).1 with
  | error defect =>
    rw [hresult] at h
    cases h
  | ok bound =>
    rw [hresult] at h
    obtain ⟨hanswer, rfl⟩ := Prod.mk.inj h
    obtain ⟨hhandle, rfl⟩ := Prod.mk.inj hanswer
    rw [withBinding, slot_withSlot, if_pos rfl] at hbound
    obtain rfl := Option.some.inj hbound
    exact loaded_of_bind he hd (Prod.ext hresult rfl)

theorem openLibrary_leaves_initializers (he : host.emulator.KeepsQueue v)
    (hd : host.Undisturbed v) {raw : RawName}
    (hlib : Library.forFilename? (Text.decodeLossy raw) = some lib)
    (hfree : (l.slot lib.index).binding? = none)
    (h : openLibrary host l (some raw) flags caller w = ((some handle, l'), w'))
    (hbound : (l'.slot lib.index).binding? = some ⟨handle, .emulated⟩) :
    ∃ loading appended, v.Same w loading ∧
      (host.emulator.load (Text.decodeLossy raw) (.ofOpenFlags flags) loading).1 = .ok handle ∧
      v.waiting (host.emulator.load (Text.decodeLossy raw) (.ofOpenFlags flags) loading).2 =
        v.waiting w ++ appended ∧
      v.ran w' = v.ran w ∧ v.waiting w' = v.waiting w ++ appended ∧
      (v.ran w' = v.ran w ++ appended ∧ v.waiting w' = v.waiting w ↔ appended = []) := by
  rw [openLibrary, hlib] at h
  obtain ⟨loading, appended, hloaded⟩ := loaded_of_openKnown he hd hfree h hbound
  refine ⟨loading, appended, hloaded.same, hloaded.handle, hloaded.loaded, hloaded.ran,
    hloaded.waiting, ?_⟩
  rw [hloaded.ran, hloaded.waiting]
  simp

end Linker

namespace QueueWorld

instance : Journal QueueWorld where
  take := fun _ w => w

def host (appended : List String) : Host QueueWorld (List String) where
  platform := {
    openLibrary := fun _ _ _ => pure none
    findSymbol := fun _ _ _ => pure none
    openExtended := fun _ _ _ _ => pure none
    exportedNamespace := fun _ => pure none
    hasFile := fun _ => pure false }
  emulator := emulator appended
  runtime := {
    loadedClasses := pure (.ok ⟨[], none⟩)
    classDescriptor := fun _ => pure (.ok ⟨"", none⟩)
    declaredMethods := fun _ => pure (.ok ⟨[], none⟩)
    methodSignature := fun _ => pure (.ok ⟨⟨"", none⟩, ⟨"", none⟩⟩)
    attachThread := pure (.ok ())
    deallocate := fun _ => pure (.ok ()) }
  audioDevices := 0

theorem undisturbed_host (appended : List String) : (host appended).Undisturbed view where
  hasFile := fun _ _ => ⟨rfl, rfl⟩
  note := fun _ _ => ⟨rfl, rfl⟩

end QueueWorld

namespace Linker

def fresh : Linker :=
  ⟨{}, .empty 32, .replicate 10 ⟨none, .empty 4096⟩, 0, 0⟩

/-- The initializer of the library just opened waits behind one that waited before. -/
theorem openLibrary_leaves_initializers_bullet : ∃ l l' w', create {} 4096 = .ok l ∧
    openLibrary (QueueWorld.host ["bullet"]) l (some (Text.encode "libPZBullet64.so")) 2 0
      ⟨["other"], []⟩ = ((some 0x5000, l'), w') ∧
    w'.ran = [] ∧ w'.waiting = ["other", "bullet"] := by
  have hlib : Library.forFilename? (Text.decodeLossy (Text.encode "libPZBullet64.so")) =
      some ⟨1, "PZBullet64", .game⟩ := by
    decide +kernel
  have hopen : (openLibrary (QueueWorld.host ["bullet"]) fresh
      (some (Text.encode "libPZBullet64.so")) 2 0 ⟨["other"], []⟩).1.1 = some 0x5000 := by
    decide +kernel
  have hbound : ((openLibrary (QueueWorld.host ["bullet"]) fresh
      (some (Text.encode "libPZBullet64.so")) 2 0 ⟨["other"], []⟩).1.2.slot 1).binding? =
      some ⟨0x5000, .emulated⟩ := by
    decide +kernel
  obtain ⟨loading, appended, ⟨hloading, -⟩, -, hloaded, hran, hwaiting, -⟩ :=
    openLibrary_leaves_initializers (QueueWorld.keepsQueue_emulator ["bullet"])
      (QueueWorld.undisturbed_host ["bullet"]) hlib rfl (Prod.ext (Prod.ext hopen rfl) rfl) hbound
  refine ⟨fresh, _, _, rfl, Prod.ext (Prod.ext hopen rfl) rfl, hran, ?_⟩
  change loading.waiting = ["other"] at hloading
  change loading.waiting ++ ["bullet"] = ["other"] ++ appended at hloaded
  rw [hloading] at hloaded
  obtain rfl := List.append_cancel_left hloaded
  exact hwaiting

end Linker

end NativeBridge
