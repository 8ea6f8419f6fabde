import DeclarativeBuild.Run.Action

/-!
# Running

A host carries out commands and moves files; `perform` goes through actions on a host up to the
first failure.  Branches of a stage may be taken up in any order: all of them run, and the failure
that comes first in declaration order is the stage's.
-/

namespace DeclarativeBuild

/-- What a run needs of the outside, whose state is a `σ`. -/
structure Host (σ : Type) where
  execute : Invocation → σ → Except Failure Int × σ
  move : Path → Path → σ → Except Failure Unit × σ
  say : String → σ → σ
  log : LogLine → σ → σ

/-- How many compile steps may run at once, and in which order they are taken up. -/
structure Schedule where
  jobs : Nat
  turns : Nat → List Nat
  turns_perm : ∀ n, (turns n).Perm (List.range n)

/-- Steps are taken up in declaration order. -/
def Schedule.inOrder (jobs : Nat) : Schedule :=
  ⟨max jobs 1, List.range, fun _ => .refl _⟩

namespace Host

variable {σ : Type}

/-- Runs a command, which fails if its exit code is not zero. -/
def runChecked (h : Host σ) (command : Invocation) (s : σ) : Except Failure Unit × σ :=
  match h.execute command (h.log ⟨.debug, command.display⟩ s) with
  | (.error failure, s) => (.error failure, s)
  | (.ok code, s) =>
    (if code = 0 then .ok () else .error (.commandFailed command.display code), s)

def act (h : Host σ) (s : σ) : Action → Except Failure Unit × σ
  | .say line => (.ok (), h.say line s)
  | .log line => (.ok (), h.log line s)
  | .run command => h.runChecked command s
  | .move source target => h.move source target s
  | .fail failure => (.error failure, s)

/-- Actions one after the other, up to the first failure. -/
def perform (h : Host σ) (s : σ) : List Action → Except Failure Unit × σ
  | [] => (.ok (), s)
  | a :: rest =>
    match h.act s a with
    | (.error failure, s) => (.error failure, s)
    | (.ok _, s) => perform h s rest

/-- Performs branches in the given order and notes how each of them ended. -/
def performBranches (h : Host σ) (branches : List (List Action)) (s : σ) :
    List Nat → List (Nat × Except Failure Unit) × σ
  | [] => ([], s)
  | turn :: rest =>
    let (result, s) := h.perform s (branches[turn]?.getD [])
    let (results, s) := performBranches h branches s rest
    ((turn, result) :: results, s)

/-- The failure of the first of `n` branches that has one. -/
def firstFailure (results : List (Nat × Except Failure Unit)) (n : Nat) : Except Failure Unit :=
  match (List.range n).findSome? fun turn =>
    match results.lookup turn with
    | some (.error failure) => some failure
    | _ => none with
  | some failure => .error failure
  | none => .ok ()

def performStage (h : Host σ) (schedule : Schedule) (s : σ) :
    Stage → Except Failure Unit × σ
  | .inOrder actions => h.perform s actions
  | .together branches =>
    let (results, s) := h.performBranches branches s (schedule.turns branches.length)
    (firstFailure results branches.length, s)

/-- Stages one after the other, up to the first failure. -/
def performStages (h : Host σ) (schedule : Schedule) (s : σ) :
    List Stage → Except Failure Unit × σ
  | [] => (.ok (), s)
  | stage :: rest =>
    match h.performStage schedule s stage with
    | (.error failure, s) => (.error failure, s)
    | (.ok _, s) => performStages h schedule s rest

end Host

/-- What a user sees: standard output, and log lines on standard error if they are shown. -/
structure Console where
  output : String := ""
  errors : String := ""
  verbosity : Nat := 0

namespace Console

def say (line : String) (c : Console) : Console :=
  { c with output := c.output ++ line ++ "\n" }

def log (line : LogLine) (c : Console) : Console :=
  if line.level.shownAt c.verbosity then { c with errors := c.errors ++ line.render } else c

end Console

/-- A run that only notes what it would do. -/
structure Rehearsal where
  steps : List Step := []
  console : Console := {}

/-- The host on which every command succeeds and nothing happens. -/
def Host.rehearsal : Host Rehearsal where
  execute command r := (.ok 0, { r with steps := r.steps ++ [.run command] })
  move source target r := (.ok (), { r with steps := r.steps ++ [.move source target] })
  say line r := { r with console := r.console.say line }
  log line r := { r with console := r.console.log line }

end DeclarativeBuild
