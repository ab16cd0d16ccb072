import NativeBridge.Proofs.Arm64.Reach
import NativeBridge.Proofs.Call.Planning
import NativeBridge.Proofs.Stub.Tags

/-! # The loads and stores that a stub tries

A move and the writing of the tag string can only be refused for one of their loads and stores,
and which offsets these ask for does not depend on anything that was done before. So both succeed
exactly when all of their offsets are in reach.
-/

namespace NativeBridge.Stub

open Arm64 Call Checked

variable {α β : Type}

/-- Whether a computation tries these loads and stores, in order, and can fail in nothing else. -/
inductive Tries : Except StubDefect α → List (Access × Nat) → Prop
  | ok (a : α) : Tries (.ok a) []
  | access {op : Access} {reg base : Reg} {offset : Nat} {f : Instr → Except StubDefect α}
      {others : List (Access × Nat)} (h : ∀ i, Tries (f i) others) :
      Tries (Arm64.access op reg base offset >>= f) ((op, offset) :: others)

namespace Tries

variable {x : Except StubDefect α} {tried others : List (Access × Nat)}

theorem map (h : Tries x tried) (f : α → β) : Tries (x >>= fun a => pure (f a)) tried := by
  induction h with
  | ok a => exact .ok (f a)
  | access _ ih =>
    rw [bind_assoc]
    exact .access ih

theorem accepted_iff (h : Tries x tried) : Accepted x ↔ ∀ t ∈ tried, t.1.Reaches t.2 := by
  induction h with
  | ok a => simp
  | access _ ih =>
    rw [List.forall_mem_cons, accepted_bind_iff]
    constructor
    · rintro ⟨i, hi, hothers⟩
      exact ⟨accepted_access_iff.mp ⟨i, hi⟩, (ih i).mp hothers⟩
    · rintro ⟨hreach, hothers⟩
      obtain ⟨i, hi⟩ := accepted_access_iff.mpr hreach
      exact ⟨i, hi, (ih i).mpr hothers⟩

theorem refusedOnly (h : Tries x tried) (haligned : ∀ t ∈ tried, t.1.width ∣ t.2) :
    RefusedOnly StubDefect.IsOutOfRange x := by
  induction h with
  | ok a => exact .ok a
  | access _ ih =>
    obtain ⟨hfirst, hothers⟩ := List.forall_mem_cons.mp haligned
    exact (access_refusedOnly hfirst).bind fun i => ih i hothers

end Tries

def loadOf : Tag → Access
  | .float => .ldrS
  | .double => .ldrD
  | tag => if tag.isWide then .ldrX else .ldrW

def storeOf : RegisterClass → Access
  | .integer => .strX
  | .float => .strD

def fetches (size : Nat) (q : Placement) : List (Access × Nat) :=
  match q.source with
  | .stack offset => [(loadOf q.tag, size + offset)]
  | _ => []

def deliveries (q : Placement) : List (Access × Nat) :=
  match q.target with
  | .stack offset => [(storeOf q.tag.registerClass, offset)]
  | _ => []

section

variable {size : Nat} {tag : Tag} {source target : Location}

theorem moveInteger_tries (hf : tag ≠ .float) (hd : tag ≠ .double) (hs : source.Serves .integer)
    (ht : target.Serves .integer) : Tries (moveInteger size ⟨tag, source, target⟩)
      (fetches size ⟨tag, source, target⟩ ++ deliveries ⟨tag, source, target⟩) := by
  have hload : loadOf tag = if tag.isWide then .ldrX else .ldrW := by
    cases tag <;> first | rfl | exact absurd rfl hf | exact absurd rfl hd
  have hstore : storeOf tag.registerClass = .strX := by
    cases tag <;> first | rfl | exact absurd rfl hf | exact absurd rfl hd
  unfold fetches deliveries
  simp only [hload, hstore]
  cases source with
  | intReg s =>
    cases target with
    | intReg t => exact .ok _
    | floatReg t => cases ht
    | stack t => exact .access fun _ => .ok _
  | floatReg s => cases hs
  | stack s =>
    cases target with
    | intReg t => exact .access fun _ => .ok _
    | floatReg t => cases ht
    | stack t => exact .access fun _ => .access fun _ => .ok _

theorem moveFloat_tries (hs : source.Serves .float) (ht : target.Serves .float) :
    Tries (moveFloat size ⟨.float, source, target⟩)
      (fetches size ⟨.float, source, target⟩ ++ deliveries ⟨.float, source, target⟩) := by
  cases source with
  | intReg s => cases hs
  | floatReg s =>
    cases target with
    | intReg t => cases ht
    | floatReg t => exact .ok _
    | stack t => exact .access fun _ => .ok _
  | stack s =>
    cases target with
    | intReg t => cases ht
    | floatReg t => exact .access fun _ => .ok _
    | stack t => exact .access fun _ => .access fun _ => .ok _

theorem moveDouble_tries (hs : source.Serves .float) (ht : target.Serves .float) :
    Tries (moveDouble size ⟨.double, source, target⟩)
      (fetches size ⟨.double, source, target⟩ ++ deliveries ⟨.double, source, target⟩) := by
  cases source with
  | intReg s => cases hs
  | floatReg s =>
    cases target with
    | intReg t => cases ht
    | floatReg t => exact .ok _
    | stack t => exact .access fun _ => .ok _
  | stack s =>
    cases target with
    | intReg t => cases ht
    | floatReg t => exact .access fun _ => .ok _
    | stack t => exact .access fun _ => .access fun _ => .ok _

/-- An argument is moved between locations of its own class, so that no move is impossible. -/
theorem move_tries {q : Placement} (hs : q.source.Serves q.tag.registerClass)
    (ht : q.target.Serves q.tag.registerClass) :
    Tries (move size q) (fetches size q ++ deliveries q) := by
  obtain ⟨tag, source, target⟩ := q
  unfold move
  split
  · next htag =>
    obtain rfl : tag = .float := htag
    exact moveFloat_tries hs ht
  · next htag =>
    obtain rfl : tag = .double := htag
    exact moveDouble_tries hs ht
  · next hf hd =>
    have hclass : tag.registerClass = .integer := by
      cases tag <;> first | rfl | exact absurd rfl hf | exact absurd rfl hd
    exact moveInteger_tries hf hd (hclass ▸ hs) (hclass ▸ ht)

end

theorem width_widest_dvd {n m : Nat} (h : n ≤ m) : (widest n).width ∣ (widest m).width := by
  unfold widest
  split
  · rw [if_pos (by omega)]
  · split
    · split
      · decide
      · rw [if_pos (by omega)]
    · exact Nat.one_dvd _

/-- Stores of widths that fall are aligned when the first one is. -/
theorem storeBytes_tries (base : Reg) {bytes : List UInt8} {offset : Nat}
    (haligned : (widest bytes.length).width ∣ offset) :
    ∃ tried, Tries (storeBytes base offset bytes) tried ∧
      ∀ t ∈ tried, t.1.width ∣ t.2 ∧ t.2 < offset + bytes.length := by
  induction hn : bytes.length using Nat.strongRecOn generalizing bytes offset with
  | _ count ih =>
    rw [storeBytes]
    split
    · exact ⟨[], .ok _, by simp⟩
    · next hne =>
      have hpos := width_widest_pos bytes.length
      have hlen := List.length_pos_iff.mpr (by simpa using hne)
      have hle := width_widest_le hlen
      have hdrop : (bytes.drop (widest bytes.length).width).length =
          bytes.length - (widest bytes.length).width := List.length_drop
      have hnext : (widest (bytes.drop (widest bytes.length).width).length).width ∣
          offset + (widest bytes.length).width := by
        have hdvd := width_widest_dvd (hdrop.le.trans (Nat.sub_le ..))
        exact Nat.dvd_add (hdvd.trans haligned) hdvd
      obtain ⟨others, htries, hothers⟩ := ih _ (by omega) hnext rfl
      refine ⟨(widest bytes.length, offset) :: others, .access fun _ => htries.map _, ?_⟩
      rw [List.forall_mem_cons]
      refine ⟨⟨haligned, by omega⟩, fun t ht => ⟨(hothers t ht).1, ?_⟩⟩
      have := (hothers t ht).2
      omega

end NativeBridge.Stub
