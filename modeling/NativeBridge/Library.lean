import NativeBridge.Text.Pieces

/-! # Known libraries

The libraries that have a slot of their own, in the order in which filenames are held against
their names. A library's role says how its first open is satisfied.
-/

namespace NativeBridge

inductive Role
  | game
  | audioIntegration
  | testHarness
  deriving DecidableEq, Repr

inductive Policy
  /-- A build for the host's own processor is used where there is one. -/
  | preferNative
  | alwaysEmulated
  deriving DecidableEq, Repr

/-- The native audio build lacks the classes that the game expects. -/
def Role.policy : Role → Policy
  | .audioIntegration => .alwaysEmulated
  | .game | .testHarness => .preferNative

def Role.name : Role → String
  | .game => "game"
  | .audioIntegration => "audio_integration"
  | .testHarness => "test_harness"

abbrev LibraryIndex := Fin 10

structure Library where
  index : LibraryIndex
  name : String
  role : Role
  deriving DecidableEq, Repr

namespace Library

def known : Vector Library 10 := #v[
  ⟨0, "PZClipper64", .game⟩,
  ⟨1, "PZBullet64", .game⟩,
  ⟨2, "PZBulletNoOpenGL64", .game⟩,
  ⟨3, "Lighting64", .game⟩,
  ⟨4, "PZPathFind64", .game⟩,
  ⟨5, "PZPopMan64", .game⟩,
  ⟨6, "fmodintegration64", .audioIntegration⟩,
  ⟨7, "zomdroidtest", .testHarness⟩,
  ⟨8, "RakNet64", .game⟩,
  ⟨9, "ZNetNoSteam", .game⟩]

def policy (l : Library) : Policy := l.role.policy

def byName? (name : String) : Option Library :=
  known.toList.find? (·.name == name)

/-- The first library whose name occurs in the filename. -/
def forFilename? (filename : String) : Option Library :=
  known.toList.find? fun l => Text.contains filename l.name

theorem index_known (i : LibraryIndex) : known[i].index = i := by
  revert i; decide

theorem known_index_of_mem {l : Library} (h : l ∈ known.toList) : known[l.index] = l := by
  revert h; revert l; decide

theorem mem_of_forFilename? {filename : String} {l : Library} (h : forFilename? filename = some l) :
    l ∈ known.toList :=
  List.mem_of_find?_eq_some h

/-- What stands in a symbol that asks for audio devices, which the host answers itself. -/
def audioDevicesFragment : String := "getAudioDevices"

/-- The symbol that creates the audio system. It calls back from the thread that looks it up. -/
def audioCreateSymbol : String := "Java_fmod_javafmodJNI_FMOD_1System_1Create"

end Library

end NativeBridge
