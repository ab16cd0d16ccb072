import NativeBridge.Proofs.Arm64.Decoding
import NativeBridge.Stub

/-! # The addresses in a stub

A stub is the same for all targets but for their addresses, which are the immediates of three
groups of four words. Where the groups stand and what is around them follows from the signature
alone, and so does every reason to refuse it.
-/

namespace NativeBridge

namespace Arm64

def immediateField (word : UInt32) : Nat :=
  bitField word.toNat 5 16

/-- The bits of a word below and above such an immediate. -/
def otherFields (word : UInt32) : Nat × Nat :=
  (bitField word.toNat 0 5, bitField word.toNat 21 11)

/-- The number that the immediates of words make up, the low part first. -/
def spelledBy (words : List UInt32) : Nat :=
  words.foldr (fun word high => immediateField word + 65536 * high) 0

variable (dst : Reg) (part : Fin 4) (bits : UInt16)

/-- The fields of a word that loads one part, whatever its opcode. -/
theorem fields_of_constant (opcode : Nat) (h : opcode % 2 ^ 23 = 0) (hlt : opcode < 2 ^ 32) :
    let word := opcode + part.val <<< 21 + bits.toNat <<< 5 + dst.val
    bitField word 5 16 = bits.toNat ∧ bitField word 0 5 = dst.val ∧
      bitField word 21 11 = opcode / 2 ^ 21 + part.val := by
  have := bits.toNat_lt
  intro word
  refine ⟨?_, ?_, ?_⟩ <;> (simp only [bitField]; omega)

theorem fields_movz : immediateField (Instr.movz dst part bits).word = bits.toNat ∧
    otherFields (Instr.movz dst part bits).word = (dst.val, 0xD2800000 / 2 ^ 21 + part.val) := by
  obtain ⟨himmediate, hlow, hhigh⟩ :=
    fields_of_constant dst part bits 0xD2800000 (by decide) (by decide)
  rw [immediateField, otherFields, Instr.toNat_word]
  exact ⟨himmediate, Prod.ext hlow hhigh⟩

theorem fields_movk : immediateField (Instr.movk dst part bits).word = bits.toNat ∧
    otherFields (Instr.movk dst part bits).word = (dst.val, 0xF2800000 / 2 ^ 21 + part.val) := by
  obtain ⟨himmediate, hlow, hhigh⟩ :=
    fields_of_constant dst part bits 0xF2800000 (by decide) (by decide)
  rw [immediateField, otherFields, Instr.toNat_word]
  exact ⟨himmediate, Prod.ext hlow hhigh⟩

def addressWords (dst : Reg) (address : UInt64) : List UInt32 :=
  (loadFixed dst address).map Instr.word

theorem length_addressWords (address : UInt64) : (addressWords dst address).length = 4 := rfl

theorem spelledBy_addressWords (address : UInt64) :
    spelledBy (addressWords dst address) = address.toNat := by
  have := address.toNat_lt
  simp only [addressWords, loadFixed, parts, List.map_cons, List.map_nil, spelledBy,
    List.foldr_cons, List.foldr_nil, fields_movz, fields_movk]
  simp only [UInt64.toNat_toUInt16, UInt64.toNat_shiftRight, UInt64.reduceToNat, Nat.reduceMod]
  omega

theorem map_otherFields_addressWords (address other : UInt64) :
    (addressWords dst address).map otherFields = (addressWords dst other).map otherFields := by
  simp only [addressWords, loadFixed, parts, List.map_cons, List.map_nil, fields_movz, fields_movk]

end Arm64

namespace Stub

open Arm64 Call

/-- The words of a stub around its three addresses. -/
structure Mould where
  beforeEnv : List UInt32
  beforeFunction : List UInt32
  beforeDispatcher : List UInt32
  after : List UInt32

def Mould.fill (m : Mould) (target : Target) : List UInt32 :=
  m.beforeEnv ++ (addressWords .r0 target.env ++ (m.beforeFunction ++
    (addressWords .r0 target.function ++ (m.beforeDispatcher ++
      (addressWords .ip0 target.dispatcher ++ m.after)))))

def mould (sig : Signature) : Except StubDefect Mould := do
  let p ← plan sig
  let opening ← enter p.frame
  let moves ← p.placements.reverse.mapM (move p.frame.size)
  let tags ← passTags p.frame p.signature.tagString
  let closing ← leave p.frame
  return {
    beforeEnv := opening.map Instr.word
    beforeFunction := moves.flatten.map Instr.word
    beforeDispatcher := tags.map Instr.word
    after := (.blr .ip0 :: (passResult p.signature.ret ++ closing ++ [.ret])).map Instr.word }

theorem assemble_eq_fill (sig : Signature) (target : Target) :
    assemble sig target = ((mould sig).map (·.fill target)).mapError .noStub := by
  unfold assemble instructions mould ofPlan
  cases plan sig with
  | error defect => rfl
  | ok p =>
    simp only [bind, Except.bind]
    cases enter p.frame with
    | error defect => rfl
    | ok opening =>
      cases p.placements.reverse.mapM (move p.frame.size) with
      | error defect => rfl
      | ok moves =>
        cases passTags p.frame p.signature.tagString with
        | error defect => rfl
        | ok tags =>
          cases leave p.frame with
          | error defect => rfl
          | ok closing =>
            simp [pure, Except.pure, Except.map, Except.mapError, Mould.fill, addressWords]

/-- Where the addresses of a stub begin. -/
structure Places where
  env : Nat
  function : Nat
  dispatcher : Nat

namespace Places

/-- Whether the addresses are three groups of four among so many words. -/
structure Within (p : Places) (length : Nat) : Prop where
  function : p.env + 4 ≤ p.function
  dispatcher : p.function + 4 ≤ p.dispatcher
  after : p.dispatcher + 4 ≤ length

/-- Whether a word belongs to an address. -/
def Covers (p : Places) (i : Nat) : Prop :=
  ∃ start ∈ [p.env, p.function, p.dispatcher], start ≤ i ∧ i < start + 4

/-- Whether the addresses in the words are those of a target. -/
structure Spell (p : Places) (words : List UInt32) (target : Target) : Prop where
  env : spelledBy ((words.drop p.env).take 4) = target.env.toNat
  function : spelledBy ((words.drop p.function).take 4) = target.function.toNat
  dispatcher : spelledBy ((words.drop p.dispatcher).take 4) = target.dispatcher.toNat

end Places

theorem spelledBy_at {words : List UInt32} {before after : List UInt32} {dst : Reg}
    {address : UInt64} (h : words = before ++ (addressWords dst address ++ after)) :
    spelledBy ((words.drop before.length).take 4) = address.toNat := by
  rw [h, List.drop_left, List.take_left' (length_addressWords dst address), spelledBy_addressWords]

/-- Beside an address the words are the same if those after it are. -/
theorem getElem?_beside_address {before after after' : List UInt32} {dst : Reg}
    {address address' : UInt64} {i : Nat} (hi : ¬(before.length ≤ i ∧ i < before.length + 4))
    (h : before.length + 4 ≤ i →
      after[i - (before.length + 4)]? = after'[i - (before.length + 4)]?) :
    (before ++ (addressWords dst address ++ after))[i]? =
      (before ++ (addressWords dst address' ++ after'))[i]? := by
  rcases Nat.lt_or_ge i before.length with hlt | hge
  · rw [List.getElem?_append_left hlt, List.getElem?_append_left hlt]
  · have hafter : before.length + 4 ≤ i := by omega
    rw [← List.append_assoc, ← List.append_assoc, List.getElem?_append_right,
      List.getElem?_append_right]
    · simpa [length_addressWords] using h hafter
    · simpa [length_addressWords] using hafter
    · simpa [length_addressWords] using hafter

namespace Mould

variable (m : Mould) (target other : Target)

def places : Places where
  env := m.beforeEnv.length
  function := m.beforeEnv.length + 4 + m.beforeFunction.length
  dispatcher := m.beforeEnv.length + 4 + m.beforeFunction.length + 4 + m.beforeDispatcher.length

theorem length_fill : (m.fill target).length = m.places.dispatcher + 4 + m.after.length := by
  simp only [fill, places, List.length_append, length_addressWords]
  omega

theorem places_within : m.places.Within (m.fill target).length := by
  rw [length_fill]
  constructor <;> simp only [places] <;> omega

theorem places_spell : m.places.Spell (m.fill target) target := by
  constructor
  · exact spelledBy_at rfl
  · have hfill : m.fill target =
        (m.beforeEnv ++ addressWords .r0 target.env ++ m.beforeFunction) ++
          (addressWords .r0 target.function ++ (m.beforeDispatcher ++
            (addressWords .ip0 target.dispatcher ++ m.after))) := by
      simp [fill]
    simpa [places, length_addressWords, Nat.add_assoc] using spelledBy_at hfill
  · have hfill : m.fill target =
        (m.beforeEnv ++ addressWords .r0 target.env ++ m.beforeFunction ++
          addressWords .r0 target.function ++ m.beforeDispatcher) ++
          (addressWords .ip0 target.dispatcher ++ m.after) := by
      simp [fill]
    simpa [places, length_addressWords, Nat.add_assoc] using spelledBy_at hfill

theorem getElem?_fill {i : Nat} (hi : ¬m.places.Covers i) :
    (m.fill target)[i]? = (m.fill other)[i]? := by
  have houtside : ∀ start ∈ [m.places.env, m.places.function, m.places.dispatcher],
      ¬(start ≤ i ∧ i < start + 4) := fun start hstart h => hi ⟨start, hstart, h⟩
  simp only [places, List.forall_mem_cons, List.not_mem_nil, false_implies, implies_true,
    and_true] at houtside
  obtain ⟨henv, hfunction, hdispatcher⟩ := houtside
  -- what follows one address is compared from its own first word on
  apply getElem?_beside_address henv
  intro hpast
  apply getElem?_beside_address (by omega)
  intro hpast'
  apply getElem?_beside_address (by omega)
  intro _
  rfl

theorem map_otherFields_fill :
    (m.fill target).map otherFields = (m.fill other).map otherFields := by
  simp only [fill, List.map_append]
  rw [map_otherFields_addressWords .r0 target.env other.env,
    map_otherFields_addressWords .r0 target.function other.function,
    map_otherFields_addressWords .ip0 target.dispatcher other.dispatcher]

end Mould

/-- Whether the stubs for two targets differ in nothing but their addresses. -/
structure Places.Interchange (p : Places) (target other : Target) (words others : List UInt32) :
    Prop where
  length_eq : words.length = others.length
  within : p.Within words.length
  outside : ∀ i, ¬p.Covers i → words[i]? = others[i]?
  otherFields_eq : words.map otherFields = others.map otherFields
  spell : p.Spell words target
  spell_other : p.Spell others other

/-- For a signature there are three places such that, whatever the targets, either no stub is made
for the same reason or the stubs differ at most in the immediates at these places, and there in
spelling the addresses of their targets. -/
theorem assemble_interchange (sig : Signature) : ∃ places : Places, ∀ target other : Target,
    (∃ fault, assemble sig target = .error fault ∧ assemble sig other = .error fault) ∨
      ∃ words others, assemble sig target = .ok words ∧ assemble sig other = .ok others ∧
        places.Interchange target other words others := by
  simp only [assemble_eq_fill]
  cases mould sig with
  | error defect => exact ⟨⟨0, 0, 0⟩, fun target other => .inl ⟨_, rfl, rfl⟩⟩
  | ok m =>
    refine ⟨m.places, fun target other => .inr ⟨m.fill target, m.fill other, rfl, rfl, ?_⟩⟩
    exact {
      length_eq := by rw [m.length_fill, m.length_fill]
      within := m.places_within target
      outside := fun i hi => m.getElem?_fill target other hi
      otherFields_eq := m.map_otherFields_fill target other
      spell := m.places_spell target
      spell_other := m.places_spell other }

end Stub

end NativeBridge
