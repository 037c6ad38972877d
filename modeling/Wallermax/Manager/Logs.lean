import Wallermax.Base.RingLog
import Wallermax.Base.Runs
import Wallermax.Base.Uri

/-!
# The manager's log pages

The supervised process writes its lines into a ring of its run, and a start puts a new
ring in the slot. A poller starts at zero and passes on the `next_seq` of the page it
got. `next_seq` is the number of lines written, not of the lines returned, and it goes
with the run: a page that is cut at its limit skips what it cut, and after a restart the
cursor is one of the run before.
-/

namespace Wallermax.Manager

open Wallermax.Base

/-! ## The buffer -/

inductive LogStream : Type where
  | out
  | err
deriving DecidableEq

structure LogLine : Type where
  seq : ℕ
  stream : LogStream
  text : Text
deriving DecidableEq

structure LogPage : Type where
  lines : List LogLine
  next_seq : ℕ
deriving DecidableEq

def logCapacity : ℕ := 10000

def logLineMax : ℕ := 8 * 1024

abbrev LogBuffer : Type := RingLog LogLine

namespace LogBuffer

def withCapacity (capacity : ℕ) : LogBuffer := RingLog.empty capacity

/-- A line is cut on a character boundary. -/
def cut (text : Text) : Text :=
  if text.length > logLineMax then text.take logLineMax ++ ['…'] else text

def push (buffer : LogBuffer) (stream : LogStream) (text : Text) : LogBuffer :=
  RingLog.push buffer fun seq => ⟨seq, stream, cut text⟩

def page (buffer : LogBuffer) (since limit : ℕ) : LogPage where
  lines := (RingLog.since LogLine.seq buffer since).take limit
  next_seq := buffer.written

end LogBuffer

/-! ## The manager and a poller -/

/-- The supervised process, `run` the number of its start. -/
structure Managed : Type where
  run : ℕ
  alive : Bool
  logs : LogBuffer

/-- The manager's slot and one poller of `logs`. Beside them, the lines the poller was
given and every line that went into the slot's buffer, each with its run. -/
structure LogState : Type where
  slot : Option Managed
  runs : ℕ
  cursor : ℕ
  received : List (ℕ × LogLine)
  pushed : List (ℕ × LogLine)

namespace LogState

def init : LogState := ⟨none, 0, 0, [], []⟩

/-- `ProcessManager::logs`. -/
def logs (s : LogState) (since limit : ℕ) : LogPage :=
  match s.slot with
  | some managed => managed.logs.page since limit
  | none => ⟨[], since⟩

/-- `ProcessManager::start`, refused while the process of the slot is alive. -/
def start (s : LogState) : LogState :=
  if s.slot.any Managed.alive then s
  else { s with
    slot := some ⟨s.runs, true, LogBuffer.withCapacity logCapacity⟩
    runs := s.runs + 1 }

/-- The reaper records the exit; the buffer stays. -/
def exit (s : LogState) : LogState :=
  { s with slot := s.slot.map fun managed => { managed with alive := false } }

/-- A reader thread of a run has a line. It holds the buffer of its own run, which nobody
reads once another run is in the slot. -/
def push (s : LogState) (run : ℕ) (stream : LogStream) (text : Text) : LogState :=
  match s.slot with
  | some managed =>
    if managed.run = run then
      { s with
        slot := some { managed with logs := managed.logs.push stream text }
        pushed := s.pushed ++ [(run, ⟨managed.logs.written, stream, LogBuffer.cut text⟩)] }
    else s
  | none => s

/-- The poller asks for the next page. -/
def poll (s : LogState) (limit : ℕ) : LogState :=
  let page := s.logs s.cursor limit
  { s with
    cursor := page.next_seq
    received := s.received ++
      page.lines.map fun line => ((s.slot.map Managed.run).getD 0, line) }

end LogState

inductive LogEvent : Type where
  | start
  | exit
  | push (run : ℕ) (stream : LogStream) (text : Text)
  | poll (limit : ℕ)

def logStep (s : LogState) : LogEvent → Option LogState
  | .start => some s.start
  | .exit => some s.exit
  | .push run stream text => some (s.push run stream text)
  | .poll limit => some (s.poll limit)

/-! ## What is asked -/

/-- The lines of the slot's buffer that the cursor has not passed, with their run. -/
def owed (s : LogState) : List (ℕ × LogLine) :=
  match s.slot with
  | some managed => (managed.logs.since LogLine.seq s.cursor).map fun line => (managed.run, line)
  | none => []

/-- The lines of the slot's buffer: the ones that can still be returned. -/
def kept (s : LogState) : List (ℕ × LogLine) :=
  match s.slot with
  | some managed => managed.logs.lines.map fun line => (managed.run, line)
  | none => []

/-- What the poller was given are pushed lines, once each and in push order, and it has
passed no line that is neither evicted nor dropped with its run. -/
structure Delivered (s : LogState) : Prop where
  inOrder : s.received.Sublist s.pushed
  once : s.received.Nodup
  noGap : ∀ line ∈ kept s, line ∈ s.received ∨ line ∈ owed s

/-- A page is not cut at its limit, and a line of the slot's run is not numbered below the
cursor. -/
def Unskipped (s : LogState) : LogEvent → Prop
  | .poll limit => (owed s).length ≤ limit
  | .push run _ _ => ∀ managed ∈ s.slot, managed.run = run → s.cursor ≤ managed.logs.written
  | _ => True

end Wallermax.Manager
