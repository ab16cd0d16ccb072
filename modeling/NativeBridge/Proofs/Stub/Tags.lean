import NativeBridge.Proofs.Arm64.Constants
import NativeBridge.Stub

/-! # The tag string

Bytes are written as the low bytes of constants, eight, four or one at a time. Whether they are
counted from the stack pointer or from register 1, the tag string and its final zero stand above
the frame record, and register 1 points at them.
-/

namespace NativeBridge.Stub

open Arm64

/-- What writing bytes at an address does. -/
structure Written (a : Address) (bytes : List UInt8) (m m' : Machine) (touched : List Touch) :
    Prop where
  x : ∀ r, r ≠ .ip1 → m'.x r = m.x r
  v : m'.v = m.v
  read : m'.memory.read a bytes.length = bytes
  stored : stored touched = span a bytes.length
  loaded : loaded touched = []

theorem width_widest_le {count : Nat} (h : 0 < count) : (widest count).width ≤ count := by
  unfold widest
  split
  · assumption
  · split
    · assumption
    · exact h

theorem perform_widest (m : Machine) (count : Nat) (r : Reg) (a : Address) :
    (widest count).perform m r a = (m.storing a (widest count).width (m.get r),
      (span a (widest count).width).map .store) := by
  unfold widest
  split
  · rfl
  · split <;> rfl

theorem width_le_eight (op : Access) : op.width ≤ 8 := by
  cases op <;> decide

variable (widen : BitVec 32 → BitVec 64) {m n m' : Machine} {base : Reg} {offset : Nat}

/-- One store writes the first bytes. -/
theorem store_written {first : List UInt8} {store : Instr} {count : Nat}
    (hstore : access (widest count) .ip1 base offset = .ok store)
    (hfirst : first.length = (widest count).width) (hb : m.IsBase base) (hbase : base ≠ .ip1) :
    ∃ m' touched, m.performAll widen (load .ip1 (UInt64.ofNat (littleEndian first)) ++ [store]) =
        some (m', touched) ∧
      Written (m.x base + BitVec.ofNat 64 offset) first m m' touched := by
  have hvalue := m.performAll_load widen (by decide : Reg.ip1 ≠ .sp)
    (UInt64.ofNat (littleEndian first))
  have hip1 : (m.set .ip1 (UInt64.ofNat (littleEndian first)).toBitVec).IsBase base := by
    rintro rfl
    exact hb rfl
  have hp := Machine.perform_access widen hstore hip1
  rw [perform_widest, Machine.get_of_ne (by decide), Machine.set_x, Function.update_self,
    Function.update_of_ne hbase, ← hfirst] at hp
  refine ⟨_, _, Machine.performAll_append widen hvalue
    ((Machine.performAll_singleton ..).trans hp), ?_⟩
  have hsmall : first.length ≤ 8 := hfirst ▸ width_le_eight _
  exact {
    x := fun r hr => Function.update_of_ne hr ..
    v := rfl
    read := Memory.read_store_littleEndian _ _ hsmall
    stored := by simp
    loaded := by simp }

theorem Written.append {a : Address} {first rest : List UInt8} {touched touched' : List Touch}
    (h : Written a first m n touched)
    (h' : Written (a + BitVec.ofNat 64 first.length) rest n m' touched')
    (hmem : ∀ b, b ∉ Arm64.stored touched' → m'.memory b = n.memory b)
    (hlen : first.length + rest.length ≤ 2 ^ 64) :
    Written a (first ++ rest) m m' (touched ++ touched') where
  x := fun r hr => (h'.x r hr).trans (h.x r hr)
  v := h'.v.trans h.v
  read := by
    have hkept : m'.memory.read a first.length = n.memory.read a first.length := by
      refine Memory.read_congr fun b hb => hmem b fun hb' => ?_
      rw [h'.stored] at hb'
      have hnodup : (span a first.length ++
          span (a + BitVec.ofNat 64 first.length) rest.length).Nodup := by
        rw [← span_add]
        exact nodup_span a hlen
      exact List.disjoint_of_nodup_append hnodup hb hb'
    rw [List.length_append, Memory.read_add, hkept, h.read, h'.read]
  stored := by rw [stored_append, h.stored, h'.stored, List.length_append, span_add]
  loaded := by rw [loaded_append, h.loaded, h'.loaded, List.append_nil]

theorem storeBytes_eq_ok {bytes : List UInt8} {is : List Instr} (hne : bytes ≠ [])
    (h : storeBytes base offset bytes = .ok is) :
    ∃ store others, access (widest bytes.length) .ip1 base offset = .ok store ∧
      storeBytes base (offset + (widest bytes.length).width)
        (bytes.drop (widest bytes.length).width) = .ok others ∧
      is = load .ip1 (UInt64.ofNat (littleEndian (bytes.take (widest bytes.length).width))) ++
        [store] ++ others := by
  rw [storeBytes, if_neg (by simpa using hne)] at h
  obtain ⟨store, hstore, h⟩ := Checked.bind_eq_ok_iff.mp h
  obtain ⟨others, hothers, h⟩ := Checked.bind_eq_ok_iff.mp h
  obtain rfl := Checked.pure_eq_ok_iff.mp h
  exact ⟨store, others, hstore, hothers, by rw [List.append_assoc]; rfl⟩

theorem storeBytes_written {bytes : List UInt8} {is : List Instr}
    (h : storeBytes base offset bytes = .ok is) (hb : m.IsBase base) (hbase : base ≠ .ip1)
    (hlen : bytes.length ≤ 2 ^ 64) :
    ∃ m' touched, m.performAll widen is = some (m', touched) ∧
      Written (m.x base + BitVec.ofNat 64 offset) bytes m m' touched := by
  -- the bytes that are left shrink with every store
  induction hn : bytes.length using Nat.strongRecOn generalizing bytes offset is m with
  | _ count ih =>
    by_cases hne : bytes = []
    · subst hne
      rw [storeBytes, if_pos List.isEmpty_nil] at h
      obtain rfl := Except.ok.inj h
      exact ⟨m, [], rfl, fun _ _ => rfl, rfl, rfl, rfl, rfl⟩
    · obtain ⟨store, others, hstore, hothers, rfl⟩ := storeBytes_eq_ok hne h
      have hpos := width_widest_pos bytes.length
      have hle := width_widest_le (List.length_pos_iff.mpr hne)
      have htake : (bytes.take (widest bytes.length).width).length =
          (widest bytes.length).width := by
        rw [List.length_take, Nat.min_eq_left hle]
      have hdrop : (bytes.drop (widest bytes.length).width).length =
          bytes.length - (widest bytes.length).width := List.length_drop
      obtain ⟨n, touched, hn', hfirst⟩ := store_written widen hstore htake hb hbase
      have hbn : n.IsBase base := by
        rintro rfl
        rw [hfirst.x .sp hbase]
        exact hb rfl
      obtain ⟨m', touched', hm', hrest⟩ := ih _ (by omega) hothers hbn (by omega) rfl
      rw [hfirst.x base hbase, BitVec.ofNat_add, ← BitVec.add_assoc] at hrest
      rw [← htake] at hrest
      refine ⟨m', touched ++ touched', Machine.performAll_append widen hn' hm', ?_⟩
      have happend := hfirst.append hrest (fun b => Machine.memory_of_performAll hm')
        (by rw [htake]; omega)
      rwa [htake, List.take_append_drop] at happend

open Call

/-- The bytes of the tag string. Every letter takes one. -/
def tagBytes (args : List Tag) : List UInt8 :=
  args.map (·.letter.toUInt8) ++ [0]

@[simp] theorem length_tagBytes (args : List Tag) : (tagBytes args).length = args.length + 1 := by
  simp [tagBytes]

theorem encode_tagString (sig : Signature) :
    Text.encode sig.tagString ++ [0] = tagBytes sig.args := by
  rw [Text.encode, sig.toList_tagString, List.flatMap_map, tagBytes]
  congr 1
  induction sig.args with
  | nil => rfl
  | cons tag args ih =>
    rw [List.flatMap_cons, ih, List.map_cons]
    cases tag <;> rfl

/-- What passing a tag string does. -/
structure TagsPassed (f : Frame) (bytes : List UInt8) (m m' : Machine) (touched : List Touch) :
    Prop where
  pointer : m'.x .r1 = m.x .sp + BitVec.ofNat 64 f.tagsOffset
  x : ∀ r, r ≠ .r1 → r ≠ .ip1 → m'.x r = m.x r
  v : m'.v = m.v
  read : m'.memory.read (m.x .sp + BitVec.ofNat 64 f.tagsOffset) bytes.length = bytes
  stored : stored touched = span (m.x .sp + BitVec.ofNat 64 f.tagsOffset) bytes.length
  loaded : loaded touched = []

theorem passTags_passed {f : Frame} {tags : String} {is : List Instr}
    (h : passTags f tags = .ok is) (hsp : m.IsBase .sp)
    (hlen : (Text.encode tags ++ [0]).length ≤ 2 ^ 64) :
    ∃ m' touched, m.performAll widen is = some (m', touched) ∧
      TagsPassed f (Text.encode tags ++ [0]) m m' touched := by
  unfold passTags at h
  split at h
  · obtain ⟨stores, hstores, h⟩ := Checked.bind_eq_ok_iff.mp h
    obtain ⟨point, hpoint, h⟩ := Checked.bind_eq_ok_iff.mp h
    obtain rfl := Checked.pure_eq_ok_iff.mp h
    obtain ⟨n, touched, hn, hwritten⟩ := storeBytes_written widen hstores hsp
      (by decide) hlen
    refine ⟨_, _, Machine.performAll_append widen hn
      ((Machine.performAll_singleton ..).trans (Machine.perform_add widen hpoint)), ?_⟩
    rw [List.append_nil, hwritten.x .sp (by decide)]
    exact {
      pointer := by rw [Machine.set_x, Function.update_self]
      x := fun r h1 h17 => (Function.update_of_ne h1 ..).trans (hwritten.x r h17)
      v := hwritten.v
      read := hwritten.read
      stored := hwritten.stored
      loaded := hwritten.loaded }
  · obtain ⟨point, hpoint, h⟩ := Checked.bind_eq_ok_iff.mp h
    obtain ⟨stores, hstores, h⟩ := Checked.bind_eq_ok_iff.mp h
    obtain rfl := Checked.pure_eq_ok_iff.mp h
    have hn := Machine.performAll_wide widen (m := m) hpoint
    have hr1 : (m.set .r1 (Arith.add.apply (m.x .sp) (BitVec.ofNat 64 f.tagsOffset))).IsBase .r1 :=
      fun hsp => absurd hsp (by decide)
    obtain ⟨m', touched, hm', hwritten⟩ := storeBytes_written widen hstores hr1
      (by decide) hlen
    rw [Machine.set_x, Function.update_self, BitVec.add_zero] at hwritten
    refine ⟨m', touched, Machine.performAll_append widen hn hm', ?_⟩
    exact {
      pointer := by rw [hwritten.x .r1 (by decide), Machine.set_x, Function.update_self]; rfl
      x := fun r h1 h17 => (hwritten.x r h17).trans (Function.update_of_ne h1 ..)
      v := hwritten.v
      read := hwritten.read
      stored := hwritten.stored
      loaded := hwritten.loaded }

end NativeBridge.Stub
