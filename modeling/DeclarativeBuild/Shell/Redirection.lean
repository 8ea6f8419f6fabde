import DeclarativeBuild.Shell.Files

/-!
# Redirections

Where the streams of a command are taken from, and what remains of commands that run on a copy of
the shell or beside it.
-/

namespace DeclarativeBuild
namespace Shell

def nullDevice : String := "/dev/null"

/-- The descriptor that the name of a device stands for. -/
def deviceNumber? (file : String) : Option Nat :=
  match file with
  | "/dev/stdin" => some 0
  | "/dev/stdout" => some 1
  | "/dev/stderr" => some 2
  | _ =>
    if file.startsWith "/dev/fd/" then (String.ofList (file.toList.drop 8)).toNat? else none

/-- Connects a descriptor to what another one is connected to. -/
def duplicate (s : State) (descriptor source : Nat) (complaint : String) : Except String State :=
  match s.streams.position? source with
  | some position => .ok { s with streams := s.streams.connect descriptor position }
  | none => .error complaint

def attach (s : State) (descriptor : Nat) (stream : Stream) : State :=
  { s with streams := s.streams.attach descriptor stream }

/-- Opens a file for output, which empties it unless it is appended to. -/
def openOutput (s : State) (descriptor : Nat) (file : String) (appends forced : Bool) :
    Except String State :=
  let complaint (why : String) := "cannot create " ++ file ++ ": " ++ why
  if file == nullDevice then .ok (attach s descriptor .nowhere)
  else
    match deviceNumber? file with
    | some source => duplicate s descriptor source (complaint (reason .notFound))
    | none =>
      if s.options.keepsFiles && !appends && !forced && s.world.isFile ⟨file⟩ then
        .error (complaint "File exists")
      else
        match writeFile s file "" appends with
        | .error .notFound => .error (complaint "Directory nonexistent")
        | .error e => .error (complaint (reason e))
        | .ok s =>
          match locate s true file with
          | .ok loc => .ok (attach s descriptor (.file loc 0 appends))
          | .error e => .error (complaint (reason e))

def openInput (s : State) (descriptor : Nat) (file : String) : Except String State :=
  let complaint (why : String) := "cannot open " ++ file ++ ": " ++ why
  if file == nullDevice then .ok (attach s descriptor (.source ""))
  else
    match deviceNumber? file with
    | some source => duplicate s descriptor source (complaint "No such file")
    | none =>
      match s.world.readText ⟨file⟩ with
      | .ok text => .ok (attach s descriptor (.source text))
      | .error .notFound => .error (complaint "No such file")
      | .error .isADirectory => .ok (attach s descriptor (.source ""))
      | .error e => .error (complaint (reason e))

/-- Opens or closes the stream that a redirection is about. -/
def redirectOne (s : State) (r : Redirect) (target : String) : Except String State :=
  match r.kind with
  | .input => openInput s r.descriptor target
  | .document => .ok (attach s r.descriptor (.source target))
  | .output => openOutput s r.descriptor target false false
  | .forcedOutput => openOutput s r.descriptor target false true
  | .append => openOutput s r.descriptor target true false
  | .duplicate =>
    match target.toNat? with
    | some n => duplicate s r.descriptor n (target ++ ": Bad file descriptor")
    | none => .ok { s with streams := s.streams.close r.descriptor }

/-- Whether a redirection can be made to its target at all. -/
def isPossible (r : Redirect) (target : String) : Bool :=
  match r.kind with
  | .duplicate => target == "-" || (target.length == 1 && target.toList.all Char.isDigit)
  | _ => true

/-- Applies redirections, whose targets are expanded, from left to right.  The error is the state
in which one was refused. -/
def redirect (s : State) : List (Redirect × String) → Except State State
  | [] => .ok s
  | (r, target) :: rest =>
    match redirectOne s r target with
    | .ok s => redirect s rest
    | .error why => .error (s.fail 2 why)

/-- Undoes redirections. -/
def undoRedirects (before after : State) (redirects : List (Redirect × String)) : State :=
  let undone (t : Streams) (r : Redirect × String) := t.reattach before.streams r.1.descriptor
  { after with streams := redirects.foldl undone after.streams }

/-- Runs `body` with redirected streams.  A redirection that is refused ends the shell of a special
builtin. -/
def withStreams (s : State) (redirects : List (Redirect × String)) (special : Bool)
    (body : State → State) : State :=
  if s.isLeaving then s
  else
    match redirect s redirects with
    | .ok opened => undoRedirects s (body opened) redirects
    | .error failed =>
      let restored := undoRedirects s failed redirects
      if special then { restored with leaving := some (.exit 2) } else restored

/-- How the end of a process by a signal is told. -/
def signalText? (signal : Nat) : Option String :=
  [(1, "Hangup"), (3, "Quit"), (4, "Illegal instruction"), (5, "Trace/breakpoint trap"),
    (6, "Aborted"), (7, "Bus error"), (8, "Floating point exception"), (9, "Killed"),
    (10, "User defined signal 1"), (11, "Segmentation fault"), (12, "User defined signal 2"),
    (14, "Alarm clock"), (15, "Terminated")].lookup signal

/-- The status that the end of a process counts as. -/
def State.finalStatus (s : State) : Nat :=
  match s.leaving with
  | some (.exit code) => code
  | some (.killed signal) => 128 + signal
  | _ => s.status

/-- What remains of a process that ran beside the shell: its files, its streams and its status. -/
def absorb (s after : State) : State :=
  let streams := { after.streams with descriptors := s.streams.descriptors }
  ({ s.setDisk after.world.disk with streams }).withStatus after.finalStatus

/-- Tells of a signal that has ended a process. -/
def reportEnd (s after : State) : State :=
  match after.leaving with
  | some (.killed signal) =>
    match signalText? signal with
    | some text => s.complain (text ++ "\n")
    | none => s
  | _ => s

/-- A copy of the shell, in which signals that are passed over stay so. -/
def fork (s : State) : State :=
  { s with traps := s.traps.filter (·.2 == ""), pending := [], loops := 0, isCopy := true }

/-- What remains of a copy of the shell; a signal to it is one to the shell. -/
def rejoin (s after : State) : State :=
  let joined := absorb s after
  match after.leaving with
  | some (.killed signal) => { joined with leaving := some (.killed signal) }
  | _ => joined

/-- A shell whose output is kept, and the position of the stream that keeps it. -/
def State.captured (s : State) : State × Nat :=
  (attach s 1 (.sink ""), s.streams.all.size)

end Shell
end DeclarativeBuild
