import Mathlib
import NativeBridge.Arm64.Instr

/-! # Memory

A memory holds one byte at each address. Addresses count modulo 2^64, and a span is a run of
consecutive ones. What is written to a span is read back from it, and every byte outside keeps its
value.
-/

namespace NativeBridge.Arm64

abbrev Address := BitVec 64

/-- The bytes of a number, the low byte first, and no more than `count` of them. -/
def lowBytes : Nat → Nat → List UInt8
  | 0, _ => []
  | count + 1, n => UInt8.ofNat n :: lowBytes count (n / 256)

@[simp] theorem length_lowBytes (count n : Nat) : (lowBytes count n).length = count := by
  induction count generalizing n with
  | zero => rfl
  | succ count ih => simp [lowBytes, ih]

theorem littleEndian_cons (b : UInt8) (bytes : List UInt8) :
    littleEndian (b :: bytes) = b.toNat + 256 * littleEndian bytes := rfl

theorem littleEndian_lt (bytes : List UInt8) : littleEndian bytes < 256 ^ bytes.length := by
  induction bytes with
  | nil => decide
  | cons b bytes ih =>
    have := b.toNat_lt
    rw [littleEndian_cons, List.length_cons, Nat.pow_succ]
    omega

theorem littleEndian_lowBytes (count n : Nat) :
    littleEndian (lowBytes count n) = n % 256 ^ count := by
  induction count generalizing n with
  | zero => simp [lowBytes, littleEndian, Nat.mod_one]
  | succ count ih =>
    rw [lowBytes, littleEndian_cons, ih, Nat.pow_succ, Nat.mul_comm _ 256, Nat.mod_mul]
    simp

theorem lowBytes_littleEndian (bytes : List UInt8) :
    lowBytes bytes.length (littleEndian bytes) = bytes := by
  induction bytes with
  | nil => rfl
  | cons b bytes ih =>
    have hb := b.toNat_lt
    have hlow : UInt8.ofNat (b.toNat + 256 * littleEndian bytes) = b := by
      apply UInt8.toNat.inj
      simp only [UInt8.toNat_ofNat']
      omega
    have hhigh : (b.toNat + 256 * littleEndian bytes) / 256 = littleEndian bytes := by omega
    rw [littleEndian_cons, List.length_cons, lowBytes, hlow, hhigh, ih]

def span (a : Address) (count : Nat) : List Address :=
  (List.range count).map fun i => a + BitVec.ofNat 64 i

@[simp] theorem length_span (a : Address) (count : Nat) : (span a count).length = count := by
  simp [span]

theorem add_ofNat_sub (a : Address) {i : Nat} (h : i < 2 ^ 64) :
    (a + BitVec.ofNat 64 i - a).toNat = i := by
  rw [BitVec.add_comm, BitVec.add_sub_cancel, BitVec.toNat_ofNat, Nat.mod_eq_of_lt h]

theorem mem_span {a b : Address} {count : Nat} (h : count ≤ 2 ^ 64) :
    b ∈ span a count ↔ (b - a).toNat < count := by
  simp only [span, List.mem_map, List.mem_range]
  constructor
  · rintro ⟨i, hi, rfl⟩
    rwa [add_ofNat_sub a (by omega)]
  · intro hb
    refine ⟨(b - a).toNat, hb, ?_⟩
    rw [BitVec.ofNat_toNat, BitVec.setWidth_eq, BitVec.add_comm, BitVec.sub_add_cancel]

theorem span_add (a : Address) (first second : Nat) :
    span a (first + second) = span a first ++ span (a + BitVec.ofNat 64 first) second := by
  simp only [span, List.range_add, List.map_append, List.map_map, List.append_cancel_left_eq]
  refine List.map_congr_left fun i _ => ?_
  simp only [Function.comp_apply, BitVec.ofNat_add, BitVec.add_assoc]

/-- The bytes of two registers stored side by side. -/
theorem mem_span_pair {a b : Address} (h : b ∈ span a 8 ∨ b ∈ span (a + 8) 8) : b ∈ span a 16 := by
  rw [span_add a 8 8]
  exact List.mem_append.mpr h

theorem nodup_span (a : Address) {count : Nat} (h : count ≤ 2 ^ 64) : (span a count).Nodup := by
  refine List.Nodup.map_on ?_ List.nodup_range
  intro i hi j hj hij
  rw [List.mem_range] at hi hj
  have := congrArg (fun b => (b - a).toNat) hij
  simpa only [add_ofNat_sub a (show i < 2 ^ 64 by omega),
    add_ofNat_sub a (show j < 2 ^ 64 by omega)] using this

/-- Whether an address stands in a span is decided by its distance from any address before. -/
theorem offset_mem_span (a : Address) {i start count : Nat} (hi : i < 2 ^ 64)
    (h : start + count ≤ 2 ^ 64) :
    a + BitVec.ofNat 64 i ∈ span (a + BitVec.ofNat 64 start) count ↔
      start ≤ i ∧ i < start + count := by
  rw [mem_span (by omega), show a + BitVec.ofNat 64 i - (a + BitVec.ofNat 64 start) =
    BitVec.ofNat 64 i - BitVec.ofNat 64 start by bv_omega, BitVec.toNat_sub, BitVec.toNat_ofNat,
    BitVec.toNat_ofNat]
  omega

/-- Spans counted from one address share no byte when one ends before the other starts. -/
theorem disjoint_span (a : Address) {i j count count' : Nat} (h : i + count ≤ j ∨ j + count' ≤ i)
    (hi : i + count ≤ 2 ^ 64) (hj : j + count' ≤ 2 ^ 64) :
    (span (a + BitVec.ofNat 64 i) count).Disjoint (span (a + BitVec.ofNat 64 j) count') := by
  intro b hb hb'
  obtain ⟨k, hk, rfl⟩ := List.mem_map.mp hb
  rw [List.mem_range] at hk
  rw [BitVec.add_assoc, ← BitVec.ofNat_add, offset_mem_span a (by omega) hj] at hb'
  omega

abbrev Memory := Address → UInt8

namespace Memory

def read (m : Memory) (a : Address) (count : Nat) : List UInt8 :=
  (span a count).map m

def write (m : Memory) (a : Address) (bytes : List UInt8) : Memory :=
  fun b => bytes[(b - a).toNat]?.getD (m b)

@[simp] theorem length_read (m : Memory) (a : Address) (count : Nat) :
    (m.read a count).length = count := by
  simp [read]

theorem write_of_not_mem {m : Memory} {a b : Address} {bytes : List UInt8}
    (h : b ∉ span a bytes.length) (hlen : bytes.length ≤ 2 ^ 64) : m.write a bytes b = m b := by
  rw [mem_span hlen, Nat.not_lt] at h
  rw [write, List.getElem?_eq_none h, Option.getD_none]

theorem read_write_self (m : Memory) (a : Address) (bytes : List UInt8)
    (hlen : bytes.length ≤ 2 ^ 64) : (m.write a bytes).read a bytes.length = bytes := by
  apply List.ext_getElem (by simp)
  intro i hi hi'
  simp only [read, span, write, List.getElem_map, List.getElem_range]
  rw [add_ofNat_sub a (by omega), List.getElem?_eq_getElem hi', Option.getD_some]

theorem read_congr {m m' : Memory} {a : Address} {count : Nat}
    (h : ∀ b ∈ span a count, m' b = m b) : m'.read a count = m.read a count :=
  List.map_congr_left h

theorem read_add (m : Memory) (a : Address) (first second : Nat) :
    m.read a (first + second) = m.read a first ++ m.read (a + BitVec.ofNat 64 first) second := by
  simp only [read, span_add, List.map_append]

def load (m : Memory) (a : Address) (count : Nat) : BitVec 64 :=
  BitVec.ofNat 64 (littleEndian (m.read a count))

def store (m : Memory) (a : Address) (count : Nat) (value : BitVec 64) : Memory :=
  m.write a (lowBytes count value.toNat)

theorem load_congr {m m' : Memory} {a : Address} {count : Nat}
    (h : ∀ b ∈ span a count, m' b = m b) : m'.load a count = m.load a count := by
  rw [load, read_congr h, load]

theorem store_of_not_mem {m : Memory} {a b : Address} {count : Nat} {value : BitVec 64}
    (h : b ∉ span a count) (hcount : count ≤ 2 ^ 64) : m.store a count value b = m b :=
  write_of_not_mem (by simpa using h) (by simpa using hcount)

theorem load_store_self (m : Memory) (a : Address) (value : BitVec 64) :
    (m.store a 8 value).load a 8 = value := by
  have h := read_write_self m a (lowBytes 8 value.toNat) (by simp)
  rw [length_lowBytes] at h
  rw [load, store, h, littleEndian_lowBytes]
  apply BitVec.eq_of_toNat_eq
  have := value.isLt
  rw [BitVec.toNat_ofNat]
  omega

theorem read_store_littleEndian (m : Memory) (a : Address) {bytes : List UInt8}
    (h : bytes.length ≤ 8) :
    (m.store a bytes.length (UInt64.ofNat (littleEndian bytes)).toBitVec).read a bytes.length =
      bytes := by
  have hlt : littleEndian bytes < 2 ^ 64 :=
    Nat.lt_of_lt_of_le (littleEndian_lt bytes) (Nat.pow_le_pow_right (by decide) h)
  have hvalue : (UInt64.ofNat (littleEndian bytes)).toBitVec.toNat = littleEndian bytes :=
    UInt64.toNat_ofNat_of_lt' hlt
  rw [store, hvalue, lowBytes_littleEndian, read_write_self _ _ _ (by omega)]

/-- A short load reads the low half of the slot that it starts in. -/
theorem load_four (m : Memory) (a : Address) :
    m.load a 4 = ((m.load a 8).setWidth 32).setWidth 64 := by
  have split : littleEndian (m.read a 8) =
      littleEndian (m.read a 4) + 256 ^ 4 * littleEndian (m.read (a + BitVec.ofNat 64 4) 4) := by
    rw [m.read_add a 4 4]
    simp only [littleEndian, read, span, List.range_succ, List.range_zero,
      List.nil_append, List.cons_append, List.map_cons, List.map_nil, List.foldr_cons,
      List.foldr_nil]
    omega
  have hlow : littleEndian (m.read a 4) < 256 ^ 4 := by simpa using littleEndian_lt (m.read a 4)
  apply BitVec.eq_of_toNat_eq
  simp only [load, split, BitVec.toNat_ofNat, BitVec.toNat_setWidth]
  omega

end Memory

end NativeBridge.Arm64
