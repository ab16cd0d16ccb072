import NativeBridge.CodePage
import NativeBridge.Signature.Letters
import NativeBridge.Stub

/-! # Installed stubs

A stub is assembled for its signature and target, and its bytes are placed on a page.
-/

namespace NativeBridge.Stub

def install (pages : Pages) (sig : Signature) (target : Target) : Except Fault (Place × Pages) := do
  let sig ← Signature.ofTags sig.args sig.ret
  let words ← assemble sig target
  (pages.install (Arm64.bytesOfWords words)).mapError .noStub

end NativeBridge.Stub
