import Mathlib.Logic.Function.Basic
import Wallermax.Base.PercentEncoding
import Wallermax.Base.Runs
import Wallermax.Manager.Logs

/-!
# The supervised process

`ProcessManager` with any number of calls in it at once. `start` and `stop` hold the lock for
their first section; the boot probe and the waiting run with the lock released, beside other
calls, the reaper threads and the processes themselves. The operating system gives a process a
pid that is free, and a pid is free again once its process was waited for: a signal goes to a
number, and reaches whatever has that number then.
-/

namespace Wallermax.Manager.Processes

open Wallermax.Base

def READY_MARKER : Text := "wallermax-server listening".toList

/-- In bytes. -/
def PROBE_OUTPUT_MAX : ℕ := 8 * 1024

/-- The lines of a page the probe asks for. -/
def probePage : ℕ := 128

structure BootProbe : Type where
  booted : Bool
  exit_code : Option ℤ
  output : Text

structure StartReport : Type where
  pid : ℕ
  probe : BootProbe

inductive ServerState : Type where
  | stopped
  | running
  | exited
deriving DecidableEq

structure ProcessStatus : Type where
  state : ServerState
  pid : Option ℕ
  started_at_unix : Option ℕ
  exit_code : Option ℤ
deriving DecidableEq

structure SpawnSpec : Type where
  program : String
  args : List String
  cwd : String

/-- How a process ended: no code where a signal ended it. -/
structure ExitInfo : Type where
  code : Option ℤ
deriving DecidableEq

/-- A process that was started, and what is shared about it. -/
structure Run : Type where
  pid : ℕ
  started_at_unix : ℕ
  /-- how the process ended, once it has -/
  ended : Option ExitInfo
  /-- `try_wait` has returned how -/
  reaped : Bool
  /-- what the reaper recorded -/
  exit : Option ExitInfo
  logs : LogBuffer

def Run.isAlive (run : Run) : Bool := run.exit.isNone

inductive Platform : Type where
  | unix
  | windows

inductive Signal : Type where
  | term
  | kill

/-- Where a call is once it has released the lock. -/
inductive Phase : Type where
  /-- `probe_boot`, in front of a page of the log -/
  | reading (run cursor : ℕ) (output : Text)
  /-- `probe_boot`, in front of the exit -/
  | looking (run cursor : ℕ) (output : Text)
  /-- `probe_boot` of a process that has died, in front of its last page -/
  | draining (run cursor : ℕ) (code : Option ℤ) (output : Text)
  /-- `stop`, in front of the first signal -/
  | stopping (run : ℕ)
  /-- `wait_until_dead`, `last` where no signal follows -/
  | waiting (run : ℕ) (last : Bool)
  | killing (run : ℕ)
  /-- `taskkill` has refused -/
  | refused (run : ℕ) (problem : String)

def Phase.run : Phase → ℕ
  | reading run _ _ | looking run _ _ | draining run _ _ _ => run
  | stopping run | waiting run _ | killing run | refused run _ => run

/-- Whether a signal of the call may still be sent. -/
def Phase.signals : Phase → Bool
  | stopping _ | killing _ | waiting _ false => true
  | _ => false

inductive Answer : Type where
  /-- `start`, refused -/
  | refused (error : String)
  | started (run : ℕ) (report : StartReport)
  /-- `stop`, and how many starts there were before the call -/
  | stopped (starts : ℕ)
  | unstopped (run : ℕ) (error : String)
  | status (status : ProcessStatus)

/-- What can have a pid. -/
inductive Process : Type where
  | run (run : ℕ)
  | stranger (pid : ℕ)
deriving DecidableEq

structure Delivery : Type where
  target : ℕ
  signal : Signal
  reached : List Process

/-- The manager, its calls and the processes. Beside them: what the processes printed, where
the signals went, and the answers. -/
structure State : Type where
  runs : List Run
  slot : Option ℕ
  calls : ℕ → Option Phase
  strangers : List ℕ
  printed : List (ℕ × Text)
  signals : List Delivery
  answered : List (ℕ × Answer)

namespace State

def init : State := ⟨[], none, fun _ => none, [], [], [], []⟩

/-- The run of the slot. -/
def managed (s : State) : Option Run := s.slot.bind fun r => s.runs[r]?

def status (s : State) : ProcessStatus :=
  match s.managed with
  | none => ⟨.stopped, none, none, none⟩
  | some managed =>
    if managed.isAlive then ⟨.running, some managed.pid, some managed.started_at_unix, none⟩
    else ⟨.exited, some managed.pid, some managed.started_at_unix, managed.exit.bind ExitInfo.code⟩

/-- What has the pid: the runs not waited for, and the processes that are not the manager's. -/
def holders (s : State) (pid : ℕ) : List Process :=
  ((List.range s.runs.length).filter fun r =>
      (s.runs[r]?).any fun run => !run.reaped && run.pid == pid).map Process.run ++
    (s.strangers.filter (· == pid)).map Process.stranger

def answer (s : State) (call : ℕ) (answer : Answer) : State :=
  { s with calls := Function.update s.calls call none, answered := s.answered ++ [(call, answer)] }

def go (s : State) (call : ℕ) (phase : Phase) : State :=
  { s with calls := Function.update s.calls call (some phase) }

def deliver (s : State) (run pid : ℕ) (signal : Signal) : State :=
  { s with signals := s.signals ++ [⟨run, signal, s.holders pid⟩] }

def modifyRun (s : State) (r : ℕ) (f : Run → Run) : State :=
  { s with runs := s.runs.modify r f }

/-- A new process, in the slot. -/
def spawn (s : State) (pid started_at_unix : ℕ) : State :=
  { s with
    runs := s.runs ++
      [⟨pid, started_at_unix, none, false, none, LogBuffer.withCapacity logCapacity⟩]
    slot := some s.runs.length }

end State

/-! ## The calls -/

/-- `start` up to the probe, with what the system says to it. -/
def start (s : State) (call : ℕ) (spec : SpawnSpec) (isDir : Bool) (spawned : Except String ℕ)
    (now_unix : ℕ) : Option State :=
  if (s.calls call).isSome then none
  else if isDir = false then
    some (s.answer call (.refused ("the working directory `" ++ spec.cwd ++ "` does not exist")))
  else
    match s.managed.filter Run.isAlive with
    | some previous =>
      some (s.answer call (.refused ("the server is already running (pid " ++
        toString previous.pid ++ "); stop it first")))
    | none =>
      match spawned with
      | .error error =>
        some (s.answer call (.refused ("could not start `" ++ spec.program ++ "`: " ++ error)))
      | .ok pid =>
        if s.holders pid = [] then
          some ((s.spawn pid now_unix).go call (.reading s.runs.length 0 []))
        else none

/-- `stop` under the lock. -/
def stop (s : State) (call : ℕ) : Option State :=
  if (s.calls call).isSome then none
  else
    match s.slot, s.managed.filter Run.isAlive with
    | some r, some _ => some (s.go call (.stopping r))
    | _, _ => some (s.answer call (.stopped s.runs.length))

/-- A line of the probe's output. -/
def keepLine (output : Text) (text : Text) : Text :=
  if (octets output).length < PROBE_OUTPUT_MAX then output ++ text ++ ['\n'] else output

/-- The lines of a page, up to the marker. -/
def gather : Text → List Text → Text × Bool
  | output, [] => (output, false)
  | output, text :: texts =>
    if READY_MARKER <:+: text then (keepLine output text, true)
    else gather (keepLine output text) texts

def survived (platform : Platform) (pid : ℕ) : String :=
  "the server (pid " ++ toString pid ++ ") did not exit after " ++
    match platform with
    | .unix => "SIGKILL"
    | .windows => "taskkill"

/-- A call goes on: `late` says that its deadline has passed, `taskkill` what the tool says. -/
def advance (platform : Platform) (s : State) (call : ℕ) (run : Run) (late : Bool)
    (taskkill : Except String Unit) : Phase → State
  | .reading r cursor output =>
    let page := run.logs.page cursor probePage
    match gather output (page.lines.map LogLine.text) with
    | (output, true) => s.answer call (.started r ⟨run.pid, ⟨true, none, output⟩⟩)
    | (output, false) => s.go call (.looking r (max page.next_seq cursor) output)
  | .looking r cursor output =>
    match run.exit with
    | some info => s.go call (.draining r cursor info.code output)
    | none =>
      if late then s.answer call (.started r ⟨run.pid, ⟨true, none, output⟩⟩)
      else s.go call (.reading r cursor output)
  | .draining r cursor code output =>
    s.answer call (.started r ⟨run.pid, ⟨false, code,
      ((run.logs.page cursor probePage).lines.map LogLine.text).foldl keepLine output⟩⟩)
  | .stopping r =>
    match platform, taskkill with
    | .unix, _ => (s.deliver r run.pid .term).go call (.waiting r false)
    | .windows, .ok _ => (s.deliver r run.pid .kill).go call (.waiting r true)
    -- what a tool that fails has done before is not known
    | .windows, .error problem => (s.deliver r run.pid .kill).go call (.refused r problem)
  | .waiting r last =>
    if run.exit.isSome then s.answer call (.stopped (r + 1))
    else if late then
      if last then s.answer call (.unstopped r (survived platform run.pid))
      else s.go call (.killing r)
    else s.go call (.waiting r last)
  | .killing r => (s.deliver r run.pid .kill).go call (.waiting r true)
  | .refused r problem =>
    if run.exit.isSome then s.answer call (.stopped (r + 1))
    else s.answer call (.unstopped r problem)

/-! ## The system -/

inductive Event : Type where
  | start (call : ℕ) (spec : SpawnSpec) (isDir : Bool) (spawned : Except String ℕ) (now_unix : ℕ)
  | stop (call : ℕ)
  | status (call : ℕ)
  | advance (call : ℕ) (late : Bool) (taskkill : Except String Unit)
  /-- The process ends. -/
  | ends (run : ℕ) (info : ExitInfo)
  /-- `try_wait` returns how. -/
  | reaps (run : ℕ)
  | records (run : ℕ)
  /-- `try_wait` fails. -/
  | waitFails (run : ℕ)
  | prints (run : ℕ) (stream : LogStream) (text : Text)
  /-- A process that is not the manager's, with the pid it gets. -/
  | comes (pid : ℕ)
  | leaves (pid : ℕ)

/-- What an event does to a run, where it can happen to it. -/
def onRun (run : Run) : Event → Option Run
  | .ends _ info => if run.ended = none then some { run with ended := some info } else none
  | .reaps _ =>
    if run.ended.isSome ∧ run.reaped = false ∧ run.exit = none then
      some { run with reaped := true }
    else none
  | .records _ =>
    if run.reaped = true ∧ run.exit = none then some { run with exit := run.ended } else none
  | .waitFails _ =>
    if run.reaped = false ∧ run.exit = none then some { run with exit := some ⟨none⟩ } else none
  | .prints _ stream text => some { run with logs := run.logs.push stream text }
  | _ => none

def atRun (s : State) (r : ℕ) (event : Event) : Option State :=
  (s.runs[r]?).bind fun run => (onRun run event).map fun run => s.modifyRun r fun _ => run

def step (platform : Platform) (s : State) : Event → Option State
  | .start call spec isDir spawned now_unix => start s call spec isDir spawned now_unix
  | .stop call => stop s call
  | .status call => if (s.calls call).isSome then none else some (s.answer call (.status s.status))
  | .advance call late taskkill =>
    (s.calls call).bind fun phase => (s.runs[phase.run]?).map fun run =>
      advance platform s call run late taskkill phase
  | .ends r info => atRun s r (.ends r info)
  | .reaps r => atRun s r (.reaps r)
  | .records r => atRun s r (.records r)
  | .waitFails r => atRun s r (.waitFails r)
  | .prints r stream text =>
    (atRun s r (.prints r stream text)).map fun t =>
      { t with printed := t.printed ++ [(r, LogBuffer.cut text)] }
  | .comes pid =>
    if s.holders pid = [] then some { s with strangers := pid :: s.strangers } else none
  | .leaves pid => some { s with strangers := s.strangers.filter (· != pid) }

end Wallermax.Manager.Processes
