import NativeBridge.Descriptor.Canonical
import NativeBridge.Descriptor.Reader
import NativeBridge.Signature.Letters
import NativeBridge.Stub
import NativeBridge.Symbol.Printer
import NativeBridge.Symbol.Reader
import NativeBridge.Text.Blank

/-! # The stub inspector's commands

Each command shows what becomes of one descriptor, symbol name or signature. A signature is given
as a descriptor, or as argument and return letters with a colon between them.
-/

namespace NativeBridge.Inspector

inductive CommandFault
  | noCommand
  | unknownCommand (name : String)
  | missing (argument command : String)
  | noSignature (text : String)
  | badReturn (text : String)
  | refused (fault : Fault)
  deriving DecidableEq, Repr

def CommandFault.message : CommandFault → String
  | noCommand => "missing command"
  | unknownCommand name => s!"unknown command: {name}"
  | missing argument command => s!"missing {argument} for '{command}'"
  | noSignature text => s!"expected '<tags>:<ret>' or a descriptor, got '{text}'"
  | badReturn text => s!"return tag must be one character, got '{text}'"
  | refused fault => fault.message

/-- Addresses for listings, so that they stay the same from run to run. -/
def sampleTarget : Stub.Target where
  env := 0x7F0000001000
  dispatcher := 0x7F0000002000
  function := 0x403000

/-- The signature of a stub. A descriptor is completed by the environment and the receiver, and
letters stand as they are. -/
def signature (text : String) : Except CommandFault Signature :=
  if text.toList.head? = some '(' then
    ((Descriptor.decode text).map Signature.native).mapError .refused
  else match text.toList.dropWhile (· != ':') with
    | [] => .error (.noSignature text)
    | _ :: [ret] =>
      let args := String.ofList (text.toList.takeWhile (· != ':'))
      (Signature.ofLetters args ret).mapError .refused
    | _ :: ret => .error (.badReturn (String.ofList ret))

def column (n : Nat) : String :=
  if n < 10 then s!" {n}" else toString n

def placementLine (p : Call.Placement) (index : Nat) : String :=
  s!"  arg {column index} '{p.tag.letter}': {p.source.text} -> {p.target.text}\n"

def shapeName : Call.FrameShape → String
  | .preIndexed => "PreIndexed"
  | .split => "Split"

def frameLine (f : Call.Frame) : String :=
  s!"frame: size={f.size} shape={shapeName f.shape} outgoing={f.outgoing} "
    ++ s!"record@{f.recordOffset} tags@{f.tagsOffset}"

def planText (p : Call.Plan) : String :=
  s!"signature: {p.signature.text}\n"
    ++ String.join (p.placements.mapIdx fun index placement => placementLine placement index)
    ++ frameLine p.frame

def listing (code : List UInt8) : String :=
  "\n".intercalate ((Arm64.wordsOfBytes code).mapIdx fun index word =>
    Text.hexPadded 4 (4 * index) ++ ": " ++ Text.hexPadded 8 word.toNat)

def decode (descriptor : String) : Except Fault String := do
  let sig ← Descriptor.decode descriptor
  let canonical ← Descriptor.encode sig
  return s!"tags: {sig.text}\ncanonical: {canonical}"

def demangle (symbol : String) : Except Fault String := do
  let id ← Symbol.demangle symbol
  let parameters := id.parameters.getD "-"
  return s!"class: {id.className}\nmethod: {id.methodName}\nshort signature: {parameters}"

def plan (sig : Signature) : Except Fault String :=
  ((Call.plan sig).map planText).mapError .noStub

def assemble (sig : Signature) : Except Fault String :=
  (Stub.assemble sig sampleTarget).map fun words => listing (Arm64.bytesOfWords words)

def argument (command : String) (arguments : List String) (index : Nat) (name : String) :
    Except CommandFault String :=
  match arguments[index]? with
  | some text => .ok text
  | none => .error (.missing name command)

def run : List String → Except CommandFault String
  | [] => .error .noCommand
  | command :: arguments =>
    let argument := argument command arguments
    match command with
    | "decode" => do (decode (← argument 0 "descriptor")).mapError .refused
    | "demangle" => do (demangle (← argument 0 "symbol")).mapError .refused
    | "mangle" => do
      let className ← argument 0 "class"
      let methodName ← argument 1 "method"
      (Symbol.mangle ⟨className, methodName, arguments[2]?⟩).mapError .refused
    | "plan" => do (plan (← signature (← argument 0 "signature"))).mapError .refused
    | "asm" => do (assemble (← signature (← argument 0 "signature"))).mapError .refused
    | name => .error (.unknownCommand name)

end NativeBridge.Inspector
