import NativeBridge.Descriptor.Canonical
import NativeBridge.Proofs.Descriptor.Grammar

/-! # Canonical descriptors

A canonical descriptor names one class only and has no arrays, so that its signature determines it.
Encoding gives the canonical descriptor of a signature, whose text decodes to the signature, and
every signature that is decoded has one.
-/

namespace NativeBridge

open Checked

namespace FieldType

def IsCanonical : FieldType → Prop
  | primitive _ => True
  | object className => className = Descriptor.objectClass
  | array _ => False

theorem IsCanonical.readable {f : FieldType} (h : f.IsCanonical) : f.Readable := by
  cases f with
  | primitive p => trivial
  | object className =>
    obtain rfl : className = Descriptor.objectClass := h
    constructor <;> decide
  | array element => exact h.elim

/-- The tags of unsigned words and double words belong to no field type. -/
theorem tag_ne_unsigned (f : FieldType) : f.tag ≠ .uint ∧ f.tag ≠ .ulong := by
  cases f with
  | primitive p => cases p <;> simp [tag, Primitive.tag]
  | object => simp [tag]
  | array => simp [tag]

end FieldType

namespace Descriptor

/-- The tags and the canonical field types determine each other. -/
theorem fieldOf_eq_ok_iff {tag : Tag} {f : FieldType} :
    fieldOf tag = .ok f ↔ f.IsCanonical ∧ f.tag = tag := by
  constructor
  · intro h
    refine ⟨?_, tag_of_fieldOf h⟩
    cases tag <;> cases h <;> trivial
  · rintro ⟨hcanonical, rfl⟩
    cases f with
    | primitive p => cases p <;> rfl
    | object className =>
      obtain rfl : className = objectClass := hcanonical
      rfl
    | array element => exact hcanonical.elim

theorem accepted_fieldOf_iff {tag : Tag} :
    Accepted (fieldOf tag) ↔ tag ≠ .void ∧ tag ≠ .uint ∧ tag ≠ .ulong := by
  cases tag <;> simp [fieldOf]

def IsCanonical (d : Descriptor) : Prop :=
  (∀ f ∈ d.parameters, f.IsCanonical) ∧ ∀ f ∈ d.result, f.IsCanonical

variable {sig : Signature} {d : Descriptor} {text : String}

theorem IsCanonical.readable (h : d.IsCanonical) : d.Readable :=
  ⟨fun f hf => (h.1 f hf).readable, fun f hf => (h.2 f hf).readable⟩

theorem mapM_fieldOf_eq_ok_iff {tags : List Tag} {fs : List FieldType} :
    tags.mapM fieldOf = .ok fs ↔ (∀ f ∈ fs, f.IsCanonical) ∧ fs.map FieldType.tag = tags := by
  simp only [mapM_eq_ok_iff, fieldOf_eq_ok_iff]
  constructor
  · intro h
    induction h with
    | nil => simp
    | cons hfirst _ ih =>
      obtain ⟨hcanonical, rfl⟩ := hfirst
      obtain ⟨hothers, rfl⟩ := ih
      exact ⟨List.forall_mem_cons.mpr ⟨hcanonical, hothers⟩, rfl⟩
  · rintro ⟨hcanonical, rfl⟩
    rw [List.forall₂_map_left_iff, List.forall₂_same]
    exact fun f hf => ⟨hcanonical f hf, rfl⟩

def resultOf : Tag → Except Fault (Option FieldType)
  | .void => .ok none
  | ret => (fieldOf ret).map some

def resultTag : Option FieldType → Tag
  | some f => f.tag
  | none => .void

theorem resultOf_of_ne {ret : Tag} (h : ret ≠ .void) : resultOf ret = (fieldOf ret).map some := by
  cases ret with
  | void => exact absurd rfl h
  | _ => rfl

theorem resultOf_eq_ok_iff {ret : Tag} {result : Option FieldType} :
    resultOf ret = .ok result ↔ (∀ f ∈ result, f.IsCanonical) ∧ resultTag result = ret := by
  by_cases hvoid : ret = .void
  · subst hvoid
    cases result with
    | none => simp [resultOf, resultTag]
    | some f => simp [resultOf, resultTag, f.tag_ne_void]
  · rw [resultOf_of_ne hvoid, map_eq_ok_iff]
    simp only [fieldOf_eq_ok_iff]
    cases result with
    | none => simp [resultTag, Ne.symm hvoid]
    | some f => simp [resultTag]

theorem accepted_resultOf_iff {ret : Tag} :
    Accepted (resultOf ret) ↔ ret ≠ .uint ∧ ret ≠ .ulong := by
  cases ret <;> simp [resultOf, accepted_map_iff, accepted_fieldOf_iff]

theorem ofSignature_eq (sig : Signature) : ofSignature sig = do
    let parameters ← sig.args.mapM fieldOf
    let result ← resultOf sig.ret
    return ⟨parameters, result⟩ := by
  obtain ⟨args, ret⟩ := sig
  rw [ofSignature]
  congr 1
  funext parameters
  cases ret <;> rfl

theorem signature_eq (d : Descriptor) :
    d.signature = ⟨d.parameters.map FieldType.tag, resultTag d.result⟩ := by
  unfold signature resultTag
  cases d.result <;> rfl

/-- Encoding gives the canonical descriptor of a signature. -/
theorem ofSignature_eq_ok_iff : ofSignature sig = .ok d ↔ d.IsCanonical ∧ d.signature = sig := by
  obtain ⟨args, ret⟩ := sig
  obtain ⟨parameters, result⟩ := d
  simp only [ofSignature_eq, signature_eq, bind_eq_ok_iff, pure_eq_ok_iff, mapM_fieldOf_eq_ok_iff,
    resultOf_eq_ok_iff, IsCanonical, mk.injEq, Signature.mk.injEq]
  constructor
  · rintro ⟨_, ⟨hparameters, hargs⟩, _, ⟨hresult, hret⟩, rfl, rfl⟩
    exact ⟨⟨hparameters, hresult⟩, hargs, hret⟩
  · rintro ⟨⟨hparameters, hresult⟩, hargs, hret⟩
    exact ⟨_, ⟨hparameters, hargs⟩, _, ⟨hresult, hret⟩, rfl, rfl⟩

theorem encode_eq_ok_iff : encode sig = .ok text ↔
    ∃ d : Descriptor, d.IsCanonical ∧ d.signature = sig ∧ d.text = text := by
  simp only [encode, map_eq_ok_iff, ofSignature_eq_ok_iff, and_assoc]

theorem decode_eq_ok_iff : decode text = .ok sig ↔
    ∃ d : Descriptor, d.Readable ∧ d.text = text ∧ d.signature = sig := by
  simp only [decode, map_eq_ok_iff, parse_eq_ok_iff, and_assoc]

/-- Whether every tag is that of a field type, or void for the result. -/
structure Describable (sig : Signature) : Prop where
  void_not_mem : .void ∉ sig.args
  signed : ∀ tag ∈ sig.ret :: sig.args, tag ≠ .uint ∧ tag ≠ .ulong

theorem describable_signature (d : Descriptor) : Describable d.signature := by
  refine ⟨d.void_not_mem_args, ?_⟩
  rw [signature_eq, List.forall_mem_cons, List.forall_mem_map]
  refine ⟨?_, fun f _ => f.tag_ne_unsigned⟩
  cases d.result with
  | none => simp [resultTag]
  | some f => exact f.tag_ne_unsigned

theorem accepted_encode_iff : Accepted (encode sig) ↔ Describable sig := by
  constructor
  · rintro ⟨text, htext⟩
    obtain ⟨d, -, rfl, -⟩ := encode_eq_ok_iff.mp htext
    exact describable_signature d
  · rintro ⟨hvoid, hsigned⟩
    obtain ⟨hret, hargs⟩ := List.forall_mem_cons.mp hsigned
    rw [encode, accepted_map_iff, ofSignature_eq]
    apply accepted_bind_of_forall
    · rw [accepted_mapM_iff]
      intro tag htag
      exact accepted_fieldOf_iff.mpr ⟨ne_of_mem_of_not_mem htag hvoid, hargs tag htag⟩
    · intro parameters
      exact accepted_bind_of_forall (accepted_resultOf_iff.mpr hret) fun result => accepted_pure _

theorem decode_of_encode (h : encode sig = .ok text) : decode text = .ok sig := by
  obtain ⟨d, hd, hsig, htext⟩ := encode_eq_ok_iff.mp h
  exact decode_eq_ok_iff.mpr ⟨d, hd.readable, htext, hsig⟩

theorem describable_of_decode (h : decode text = .ok sig) : Describable sig := by
  obtain ⟨d, -, -, rfl⟩ := decode_eq_ok_iff.mp h
  exact describable_signature d

/-- The describable signatures are encoded, as texts that decode to them. A signature that is
decoded from any text is encoded as its canonical text, which stays the same from then on. -/
theorem encode_canonical (sig : Signature) :
    ((∃ text, encode sig = .ok text) ↔ Describable sig) ∧
      (∀ text, encode sig = .ok text → decode text = .ok sig) ∧
      ∀ described, decode described = .ok sig → ∃ canonical, encode sig = .ok canonical ∧
        decode canonical = .ok sig ∧ (decode canonical >>= encode) = .ok canonical := by
  refine ⟨accepted_encode_iff, fun text => decode_of_encode, fun described hdecode => ?_⟩
  obtain ⟨canonical, hencode⟩ := accepted_encode_iff.mpr (describable_of_decode hdecode)
  have hback := decode_of_encode hencode
  refine ⟨canonical, hencode, hback, ?_⟩
  rw [hback]
  exact hencode

def collections : Descriptor where
  parameters := [.array (.array (.primitive .long)), .object "[I".toList, .primitive .char,
    .array (.object "java/util/List".toList), .primitive .boolean]
  result := some (.object "é".toList)

def canonicalCollections : String :=
  "(Ljava/lang/Object;Ljava/lang/Object;CLjava/lang/Object;Z)Ljava/lang/Object;"

theorem encode_canonical_collections :
    decode collections.text = .ok collections.signature ∧
      encode collections.signature = .ok canonicalCollections ∧
      (decode canonicalCollections >>= encode) = .ok canonicalCollections := by
  have hreadable : collections.Readable := by
    constructor <;> simp [collections, FieldType.Readable]
  have hdecode : decode collections.text = .ok collections.signature :=
    decode_eq_ok_iff.mpr ⟨collections, hreadable, rfl, rfl⟩
  have hcanonical : encode collections.signature = .ok canonicalCollections := rfl
  obtain ⟨canonical, hencode, -, hagain⟩ :=
    (encode_canonical collections.signature).2.2 collections.text hdecode
  rw [hcanonical] at hencode
  obtain rfl := Except.ok.inj hencode
  exact ⟨hdecode, hcanonical, hagain⟩

end Descriptor

end NativeBridge
