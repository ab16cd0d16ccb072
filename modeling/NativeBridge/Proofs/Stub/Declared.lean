import NativeBridge.Proofs.CodePage
import NativeBridge.Proofs.Descriptor.Grammar
import NativeBridge.Proofs.Stub.Domain
import NativeBridge.Stub.Installed

/-! # Stubs of declared methods

A method declares at most 255 arguments. Whatever these are, its stub has every load within reach
and is at most 4096 bytes long, so that pages of this size or more always take it.
-/

namespace NativeBridge

open Arm64 Call

theorem Descriptor.void_not_mem_of_decode {text : String} {sig : Signature}
    (h : decode text = .ok sig) : .void ∉ sig.args := by
  obtain ⟨d, -, rfl⟩ := Checked.map_eq_ok_iff.mp h
  exact d.void_not_mem_args

namespace Stub

variable {sig : Signature} {target : Target} {words : List UInt32}

/-- Three words for an argument, five for eight letters of the tag string and for each one left
over, and the rest of the stub. -/
theorem length_assemble_le (h : assemble sig target = .ok words) :
    words.length ≤
      3 * sig.args.length + 5 * ((sig.args.length + 1) / 8 + (sig.args.length + 1) % 8) + 28 := by
  obtain ⟨p, opening, moves, tags, closing, -, hp, hs, rfl⟩ := sections_of_assemble h
  rw [List.length_map]
  exact hs.length_le hp target

theorem words_ne_nil (h : assemble sig target = .ok words) : words ≠ [] := by
  obtain ⟨p, opening, moves, tags, closing, -, -, -, rfl⟩ := sections_of_assemble h
  simp

/-- Frame and arguments of so few arguments are small enough for every load. -/
theorem encodable_of_length_le (henvironment : sig.args.head? = some .pointer)
    (hvoid : .void ∉ sig.args) (hlength : sig.args.length ≤ 900) : Encodable sig := by
  refine ⟨henvironment, hvoid, fun earlier tag later offset hargs hs => ?_⟩
  have hslot : offset + 8 ≤ 8 * spilled 0 sig.args := by
    rw [hargs]
    exact (stack_slot later hs).2
  have hsize := frameSize_le sig.args
  have hin := spilled_le 0 sig.args
  have hout := spilled_le reservedInts sig.args
  have hreserved : reservedInts = 2 := rfl
  have hlimit : 16380 ≤ loadLimit tag := by
    unfold loadLimit
    split <;> decide
  omega

/-- A stub that is no longer than a page is placed, whatever the pages hold. -/
theorem exists_install {pages : Pages} (hvoid : .void ∉ sig.args)
    (h : assemble sig target = .ok words) (hfits : (bytesOfWords words).length ≤ pages.pageSize) :
    ∃ place pages', install pages sig target = .ok (place, pages') ∧
      pages.Installed (bytesOfWords words) place pages' := by
  have hne : bytesOfWords words ≠ [] := by
    have hpos := List.length_pos_iff.mpr (words_ne_nil h)
    rw [← List.length_pos_iff, length_bytesOfWords]
    omega
  obtain ⟨place, pages', hinstall, hinstalls⟩ := Pages.exists_installs hne hfits
  refine ⟨place, pages', ?_, hinstalls.installed hfits⟩
  have hsig : Signature.ofTags sig.args sig.ret = .ok sig :=
    Signature.ofTags_eq_ok_iff.mpr ⟨hvoid, rfl⟩
  unfold install
  rw [hsig]
  change (assemble sig target >>= _) = _
  rw [h]
  change Except.mapError _ (pages.install (bytesOfWords words)) = _
  rw [hinstall]
  rfl

/-- The stub of a method that a descriptor declares is assembled, is at most 4096 bytes long and
finds its place. -/
theorem declared_installs {text : String} (hdecode : Descriptor.decode text = .ok sig)
    (hcount : sig.args.length ≤ 255) (target : Target) {pages : Pages}
    (hsize : 4096 ≤ pages.pageSize) :
    ∃ words place pages', assemble sig.native target = .ok words ∧
      (bytesOfWords words).length ≤ 4096 ∧
      install pages sig.native target = .ok (place, pages') ∧
      pages.Installed (bytesOfWords words) place pages' := by
  have hlength : sig.native.args.length = sig.args.length + 2 := rfl
  have hvoid : .void ∉ sig.native.args := by
    simpa [Signature.native] using Descriptor.void_not_mem_of_decode hdecode
  obtain ⟨words, hwords⟩ := (accepted_assemble_iff sig.native target).mpr
    (encodable_of_length_le rfl hvoid (by omega))
  have hbytes : (bytesOfWords words).length ≤ 4096 := by
    have hbound := length_assemble_le hwords
    rw [length_bytesOfWords]
    omega
  obtain ⟨place, pages', hinstall, hinstalled⟩ :=
    exists_install hvoid hwords (hbytes.trans hsize)
  exact ⟨words, place, pages', hwords, hbytes, hinstall, hinstalled⟩

/-- A declaration with as many arguments as there can be, of the kind that takes most words. -/
def floats255 : Descriptor :=
  ⟨.replicate 255 (.primitive .float), some (.primitive .double)⟩

def startedPages : Pages :=
  ⟨4096, [⟨4096, [0xC0, 0x03, 0x5F, 0xD6], false⟩]⟩

theorem declared_installs_floats :
    Descriptor.decode floats255.text = .ok floats255.signature ∧
      floats255.signature.args.length = 255 ∧ startedPages.pageSize = 4096 ∧
      ∃ words place pages', assemble floats255.signature.native ⟨1, 2, 3⟩ = .ok words ∧
        (bytesOfWords words).length ≤ 4096 ∧
        install startedPages floats255.signature.native ⟨1, 2, 3⟩ = .ok (place, pages') := by
  have hreadable : floats255.Readable := by
    constructor
    · intro f hf
      rw [List.eq_of_mem_replicate hf]
      trivial
    · rintro _ ⟨⟩
      trivial
  have hdecode : Descriptor.decode floats255.text = .ok floats255.signature := by
    rw [Descriptor.decode, Descriptor.parse_eq_ok_iff.mpr ⟨hreadable, rfl⟩]
    rfl
  have hcount : floats255.signature.args.length = 255 :=
    (List.length_map _).trans List.length_replicate
  have hsize : startedPages.pageSize = 4096 := rfl
  obtain ⟨words, place, pages', hwords, hbytes, hinstall, -⟩ :=
    declared_installs hdecode hcount.le ⟨1, 2, 3⟩ hsize.ge
  exact ⟨hdecode, hcount, hsize, words, place, pages', hwords, hbytes, hinstall⟩

end Stub

end NativeBridge
