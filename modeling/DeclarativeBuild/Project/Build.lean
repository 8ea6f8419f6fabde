import DeclarativeBuild.Project.Basic
import DeclarativeBuild.Run.Machine

/-!
# Building targets

A target of a project is run on a machine, or rehearsed to learn its steps.  What a rehearsal shows
on the console is shown for good.
-/

namespace DeclarativeBuild

/-- What a build is asked for; the session says how many jobs there are if the request does not. -/
structure BuildRequest where
  target? : Option String := none
  rehearse : Bool := false
  jobs? : Option Nat := none
deriving DecidableEq, Repr

inductive BuildOutcome where
  | ran (target : String)
  | planned (target : String) (steps : List Step)
deriving DecidableEq, Repr

namespace Project

/-- Runs a target, or the default target, on a host. -/
def run (p : Project) (h : Host σ) (name? : Option String) (jobs : Nat) (s : σ) :
    Except Failure Unit × σ :=
  match p.stages name? jobs with
  | .error failure => (.error failure, s)
  | .ok stages => h.performStages (Schedule.inOrder jobs) s stages

def build (p : Project) (session : Session) (request : BuildRequest) (m : Machine) :
    Except Failure BuildOutcome × Machine :=
  match p.target request.target? with
  | .error failure => (.error failure, m)
  | .ok target =>
    let jobs := request.jobs?.getD session.jobs
    let kind := if request.target?.isSome then "target" else "default target"
    let m := Host.machine.log ⟨.info, "running " ++ kind ++ " `" ++ target.name ++ "`"⟩ m
    if request.rehearse then
      let start : Rehearsal := { console := m.console }
      let (result, r) := p.run Host.rehearsal (some target.name) jobs start
      (result.map fun _ => .planned target.name r.steps, { m with console := r.console })
    else
      let (result, m) := p.run Host.machine (some target.name) jobs m
      (result.map fun _ => .ran target.name, m)

end Project

end DeclarativeBuild
