import NativeBridge.Linker
import NativeBridge.Proofs.Json.Number
import NativeBridge.Proofs.Json.Record
import NativeBridge.Snapshot.Reader

/-! # Snapshots read back

A snapshot is printed with all its fields in the order of their declaration, and each of them is
read back into the field of its name. So the text of a snapshot gives the snapshot back, whatever
its texts hold and however many libraries it has.
-/

namespace NativeBridge

open Json

def LibraryDraft.full (s : LibrarySnapshot) : LibraryDraft :=
  ⟨some s.name, some s.role, some s.state, some s.handle, some s.pages, some s.bytes⟩

theorem LibraryDraft.finished?_full (s : LibrarySnapshot) : (full s).finished? = some s := rfl

theorem LibrarySnapshot.reads_print (s : LibrarySnapshot) (depth : Nat) :
    Reads LibrarySnapshot.reader (s.print depth) s := by
  refine reads_record ?_ ?_ (LibraryDraft.finished?_full s) depth
  · apply Steps.cons (reads_member rfl rfl ((reads_text s.name).map _))
    apply Steps.cons (reads_member rfl rfl ((reads_text s.role).map _))
    apply Steps.cons (reads_member rfl rfl ((reads_choice s.state.ofName?_name).map _))
    apply Steps.cons (reads_member rfl rfl ((reads_optionalText s.handle).map _))
    apply Steps.cons (reads_member rfl rfl ((reads_count s.pages).map _))
    apply Steps.cons (reads_member rfl rfl ((reads_count s.bytes).map _))
    exact Steps.nil _
  · rintro _ ⟨⟩
    exact begins_printText _ _

def SnapshotDraft.full (s : Snapshot) : SnapshotDraft :=
  ⟨some s.libraries, some s.cachedSignatures, some s.cacheCapacity, some s.vulkanLoaderInstalled,
    some s.vulkanDriverInstalled⟩

theorem SnapshotDraft.finished?_full (s : Snapshot) : (full s).finished? = some s := rfl

namespace Snapshot

theorem reads_libraries (libraries : List LibrarySnapshot) (depth : Nat) :
    Reads (Reader.list LibrarySnapshot.reader)
      (printBracket '[' ']' depth (libraries.map (LibrarySnapshot.print (depth + 1))))
      libraries := by
  apply reads_list
  · intro s _
    exact s.reads_print (depth + 1)
  · intro s _
    exact begins_printBracket (by decide) _ _

theorem reads_print (s : Snapshot) : Reads Snapshot.reader s.print.toList s := by
  rw [Snapshot.print, String.toList_ofList]
  refine reads_record ?_ ?_ (SnapshotDraft.finished?_full s) 0
  · apply Steps.cons (reads_member rfl rfl ((reads_libraries s.libraries 1).map _))
    apply Steps.cons (reads_member rfl rfl ((reads_count s.cachedSignatures).map _))
    apply Steps.cons (reads_member rfl rfl ((reads_count s.cacheCapacity).map _))
    apply Steps.cons (reads_member rfl rfl ((reads_flag s.vulkanLoaderInstalled).map _))
    apply Steps.cons (reads_member rfl rfl ((reads_flag s.vulkanDriverInstalled).map _))
    exact Steps.nil _
  · rintro _ ⟨⟩
    exact begins_printText _ _

/-- The text of a snapshot is read as this snapshot, and so is the text that a linker gives of
itself, whatever happened to it before. -/
theorem parse_print : (∀ s : Snapshot, parse (Text.encode s.print) = .ok s) ∧
    ∀ l : Linker, parse (Text.encode l.snapshot.print) = .ok l.snapshot :=
  ⟨fun s => s.reads_print.whole, fun l => l.snapshot.reads_print.whole⟩

end Snapshot

end NativeBridge
