import DeclarativeBuild.Shell.Redirection

/-!
# Signals

How signals are named and sent, and what a shell does when one comes.  A shell can reach no process
but itself.
-/

namespace DeclarativeBuild
namespace Shell

/-- The names of signals; the first one stands for the end of the shell. -/
def signalNames : List String :=
  ["EXIT", "HUP", "INT", "QUIT", "ILL", "TRAP", "ABRT", "BUS", "FPE", "KILL", "USR1", "SEGV",
    "USR2", "PIPE", "ALRM", "TERM", "STKFLT", "CHLD", "CONT", "STOP", "TSTP", "TTIN", "TTOU",
    "URG", "XCPU", "XFSZ", "VTALRM", "PROF", "WINCH", "IO", "PWR", "SYS", "32", "33", "RTMIN"] ++
  (List.range 15).map (fun n => "RTMIN+" ++ toString (n + 1)) ++
  (List.range 14).map (fun n => "RTMAX-" ++ toString (14 - n)) ++ ["RTMAX"]

/-- The signal that a number or a name in any case stands for. -/
def signal? (word : String) : Option Nat :=
  match word.toNat? with
  | some n => if n < signalNames.length then some n else none
  | none => signalNames.idxOf? (String.ofList (word.toList.map Char.toUpper))

/-- Signals that a process without a trap for them passes over. -/
def harmlessSignals : List Nat :=
  [0, 17, 18, 23, 28]

/-- Receives a signal. -/
def receive (s : State) (signal : Nat) : State :=
  match s.traps.lookup signal with
  | some action => if action == "" then s else { s with pending := s.pending ++ [signal] }
  | none =>
    if harmlessSignals.contains signal then s else { s with leaving := some (.killed signal) }

/-- Names signals by numbers or by the statuses of processes that they ended. -/
def listSignals (s : State) (args : List String) : State :=
  match args with
  | [] => (s.write (String.join (("0" :: signalNames.drop 1).map (· ++ "\n")))).withStatus 0
  | word :: _ =>
    let signal? := word.toNat?.map fun n => if 128 < n then n - 128 else n
    match signal?.bind fun n => if n == 0 then none else signalNames[n]? with
    | some name => (s.write (name ++ "\n")).withStatus 0
    | none =>
      if signal?.isNone then s.fail 2 ("Illegal number: " ++ word)
      else s.fail 2 ("invalid signal number or exit status: " ++ word)

/-- Sends a signal to each of some processes. -/
def sendSignal (s : State) (signal : Nat) (targets : List String) : State :=
  targets.foldl (fun s target =>
    if s.isLeaving then s
    else if target == processId then receive s signal
    else
      match target.toNat? with
      | none => s.fail 2 ("Illegal number: " ++ target)
      | some n =>
        if s.jobs.any (·.1 == n) then s else s.fail 1 "No such process\n") (s.withStatus 0)

def killUsage : String :=
  "Usage: kill [-s sigspec | -signum | -sigspec] [pid | job]... or\nkill -l [exitstatus]"

def kill (s : State) (args : List String) : State :=
  let send (signal : Nat) (targets : List String) : State :=
    if targets.isEmpty then s.fail 2 killUsage else sendSignal s signal targets
  match args with
  | "-s" :: name :: targets =>
    match signal? name with
    | some signal => send signal targets
    | none => s.fail 2 ("invalid signal number or name: " ++ name)
  | "-l" :: rest => listSignals s rest
  | "--" :: targets => send 15 targets
  | word :: targets =>
    if !word.startsWith "-" then send 15 args
    else
      match signal? (String.ofList (word.toList.drop 1)) with
      | some signal => send signal targets
      | none => s.fail 2 ("Illegal option " ++ String.ofList (word.toList.take 2))
  | [] => s.fail 2 killUsage

/-- A text in quotes that the shell reads back as it is. -/
def inQuotes (text : String) : String :=
  let parts := Text.splitString '\'' text
  "'" ++ "'\"'\"'".intercalate parts ++ "'"

/-- Sets what runs for some signals, or lists it. -/
def setTraps (s : State) (args : List String) : State :=
  let args := if args.head? == some "--" then args.drop 1 else args
  match args with
  | [] =>
    let listed := (List.range signalNames.length).filterMap fun n =>
      (s.traps.lookup n).map fun action =>
        "trap -- " ++ inQuotes action ++ " " ++ (signalNames[n]?).getD "" ++ "\n"
    (s.write (String.join listed)).withStatus 0
  | first :: rest =>
    let isReset := rest.isEmpty || (first != "" && first.toList.all Char.isDigit)
    let (action, names) := if isReset then ("-", args) else (first, rest)
    match names.find? fun n => (signal? n).isNone with
    | some name => (s.complain ("trap: " ++ name ++ ": bad trap\n")).withStatus 1
    | none =>
      let numbers := names.filterMap signal?
      let kept := s.traps.filter fun (n, _) => !numbers.contains n
      let added := if action == "-" then [] else numbers.map (·, action)
      { s.withStatus 0 with traps := added ++ kept }

end Shell
end DeclarativeBuild
