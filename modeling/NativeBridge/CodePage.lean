import NativeBridge.Fault

/-! # Pages of code

Stubs are laid back to back on pages that are filled from front to back. A stub that does not fit
on the last page opens another one, and the page before it is sealed for good.
-/

namespace NativeBridge

structure Page where
  capacity : Nat
  /-- The filled part, from the front. -/
  bytes : List UInt8
  isSealed : Bool
  deriving DecidableEq, Repr

namespace Page

def map (capacity : Nat) : Except StubDefect Page :=
  if capacity = 0 then .error .emptyPage else .ok ⟨capacity, [], false⟩

def used (p : Page) : Nat := p.bytes.length

def remaining (p : Page) : Nat :=
  if p.isSealed then 0 else p.capacity - p.used

def append (p : Page) (code : List UInt8) : Except StubDefect Page :=
  if p.remaining < code.length then .error (.noRoom code.length p.remaining)
  else .ok { p with bytes := p.bytes ++ code }

def close (p : Page) : Page :=
  { p with isSealed := true }

def closeLast (pages : List Page) : List Page :=
  pages.modify (pages.length - 1) close

end Page

/-- Where a stub lies: the number of its page, and bytes from the page's start. -/
structure Place where
  page : Nat
  offset : Nat
  length : Nat
  deriving DecidableEq, Repr

/-- What the system answers to the question for the size of its pages. An answer that is not
positive tells none, and the reason is then the last error. -/
structure PageSizeAnswer where
  size : Int64
  lastError : String
  deriving DecidableEq, Repr

def PageSizeAnswer.pageSize (a : PageSizeAnswer) : Except StubDefect Nat :=
  if a.size ≤ 0 then .error (.noPageSize a.lastError) else .ok a.size.toNatClampNeg

/-- The pages of one owner, of which only the last is still written to. -/
structure Pages where
  pageSize : Nat
  pages : List Page
  deriving DecidableEq, Repr

namespace Pages

def empty (pageSize : Nat) : Pages :=
  ⟨pageSize, []⟩

def count (p : Pages) : Nat := p.pages.length

def bytesUsed (p : Pages) : Nat :=
  (p.pages.flatMap Page.bytes).length

def read (p : Pages) (place : Place) : List UInt8 :=
  match p.pages[place.page]? with
  | some page => (page.bytes.drop place.offset).take place.length
  | none => []

/-- The last page, if it has room for so many bytes. -/
def open? (p : Pages) (length : Nat) : Option Page :=
  p.pages.getLast?.filter (length ≤ ·.remaining)

/-- Places a stub after the others of the last page, or on a page of its own. -/
def install (p : Pages) (code : List UInt8) : Except StubDefect (Place × Pages) :=
  if code.isEmpty then .error .emptyStub
  else if p.pageSize < code.length then .error (.stubTooLong code.length p.pageSize)
  else match p.open? code.length with
    | some last => do
      let filled ← last.append code
      return (⟨p.count - 1, last.used, code.length⟩,
        { p with pages := p.pages.dropLast ++ [filled] })
    | none => do
      let filled ← (← Page.map p.pageSize).append code
      return (⟨p.count, 0, code.length⟩, { p with pages := Page.closeLast p.pages ++ [filled] })

end Pages

end NativeBridge
