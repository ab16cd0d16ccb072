import NativeBridge.Inspector
import NativeBridge.Text.Quoted

/-! # Inspector sessions

The inspector runs the one command it is started with, or the commands on the lines that an editor
reads for it, until it is told to stop or there are no more lines.
-/

namespace NativeBridge.Inspector

structure Outcome where
  code : UInt8
  output : String
  complaint : String
  deriving DecidableEq, Repr

def usage : String :=
  "Usage:\n"
    ++ "  jb-tramp                              (defaults to REPL)\n"
    ++ "  jb-tramp decode <descriptor>\n"
    ++ "  jb-tramp demangle <symbol>\n"
    ++ "  jb-tramp mangle <class/Name> <method> [(short-signature)]\n"
    ++ "  jb-tramp plan <descriptor | tags:ret>\n"
    ++ "  jb-tramp asm <descriptor | tags:ret>\n"
    ++ "\n"
    ++ "descriptors get the implicit env/receiver arguments; tag forms are used as-is\n"

def greeting : String :=
  "jb-tramp REPL\nhistory: up/down arrows, commands: .help, .quit\n"

def Outcome.failure (reason : String) : Outcome :=
  ⟨1, "", "Error: Custom \x7b kind: Other, error: " ++ Text.quoted reason ++ " \x7d\n"⟩

def Outcome.after (text : String) (o : Outcome) : Outcome :=
  { o with output := text ++ o.output }

/-- What an attempt to read a line gives. -/
inductive Reading
  | line (text : String)
  | interrupted
  | ended
  | failed (reason : String)
  deriving DecidableEq, Repr

/-- What one line of input does: it prints something, or it ends the session. -/
inductive Reply
  | print (text : String)
  | stop
  deriving DecidableEq, Repr

def reply (line : String) : Reply :=
  let line := Text.trim line
  if line.isEmpty then .print ""
  else if line = ".quit" ∨ line = ".exit" then .stop
  else if line = ".help" then .print usage
  else if line.toList.head? = some '.' then .print s!"unknown command: {line}\n"
  else match run (Text.words line) with
    | .ok text => .print (text ++ "\n")
    | .error fault => .print s!"error: {fault.message}\n"

/-- What comes of the readings, up to the one that stops the session. After the last one the input
has ended. -/
def converse : List Reading → Outcome
  | [] | .interrupted :: _ | .ended :: _ => ⟨0, "bye\n", ""⟩
  | .failed reason :: _ => .failure reason
  | .line text :: others => match reply text with
    | .stop => ⟨0, "", ""⟩
    | .print answer => (converse others).after answer

def session (readings : List Reading) : Outcome :=
  (converse readings).after greeting

def isInteractive (arguments : List String) : Bool :=
  match arguments with
  | [] => true
  | first :: _ => first == "repl" || first == "--repl"

def start (arguments : List String) (readings : List Reading) : Outcome :=
  if isInteractive arguments then session readings
  else if arguments.head? = some "-h" ∨ arguments.head? = some "--help" then ⟨0, usage, ""⟩
  else match run arguments with
    | .ok text => ⟨0, text ++ "\n", ""⟩
    | .error fault => .failure fault.message

end NativeBridge.Inspector
