import Mathlib.Data.List.Induction
import Wallermax.Manager.Processes

/-!
# What the manager knows of its process

However the calls, the reapers and the processes take their turns, a process that is running is
the newest of the runs, is in the slot and is what `status` says: exactly while `try_wait` fails
on no process that is running.
-/

namespace Wallermax.Manager.Processes

open Wallermax.Base

variable {platform : Platform} {s t : State} {a : Event} {call r pid : ℕ}

/-! ## What a step can do -/

namespace State

@[simp] theorem runs_answer (answer : Answer) : (s.answer call answer).runs = s.runs := rfl

@[simp] theorem runs_go (phase : Phase) : (s.go call phase).runs = s.runs := rfl

theorem calls_answer {c : ℕ} {answer : Answer} {next : Phase}
    (h : (s.answer c answer).calls call = some next) : s.calls call = some next := by
  simp only [State.answer, Function.update_apply] at h
  split_ifs at h
  exact h

theorem calls_go {c : ℕ} {phase next : Phase} (h : (s.go c phase).calls call = some next) :
    s.calls call = some next ∨ next = phase := by
  simp only [State.go, Function.update_apply] at h
  split_ifs at h
  · exact .inr (Option.some.inj h).symm
  · exact .inl h

theorem mem_holders {p : Process} :
    p ∈ s.holders pid ↔
      (∃ r run, p = .run r ∧ s.runs[r]? = some run ∧ run.reaped = false ∧ run.pid = pid) ∨
        (p = .stranger pid ∧ pid ∈ s.strangers) := by
  unfold holders
  rw [List.mem_append, List.mem_map, List.mem_map]
  constructor
  · rintro (⟨r, hr, rfl⟩ | ⟨q, hq, rfl⟩)
    · obtain ⟨-, hany⟩ := List.mem_filter.mp hr
      cases hrun : s.runs[r]? with
      | none =>
          rw [hrun] at hany
          cases hany
      | some run =>
          rw [hrun] at hany
          simp only [Option.any_some, Bool.and_eq_true, Bool.not_eq_true', beq_iff_eq] at hany
          exact .inl ⟨r, run, rfl, hrun, hany⟩
    · obtain ⟨hmem, heq⟩ := List.mem_filter.mp hq
      obtain rfl := beq_iff_eq.mp heq
      exact .inr ⟨rfl, hmem⟩
  · rintro (⟨r, run, rfl, hrun, hreaped, hpid⟩ | ⟨rfl, hmem⟩)
    · refine .inl ⟨r, List.mem_filter.mpr ⟨?_, ?_⟩, rfl⟩
      · exact List.mem_range.mpr (List.getElem?_eq_some_iff.mp hrun).1
      · rw [hrun]
        simp [hreaped, hpid]
    · exact .inr ⟨pid, List.mem_filter.mpr ⟨hmem, beq_self_eq_true pid⟩, rfl⟩

end State

/-- What a call does to go on with. -/
inductive Moves (run : Run) : Phase → Phase → Prop
  | read (r cursor : ℕ) (output : Text) :
      Moves run (.reading r cursor output) (.looking r
        (max (run.logs.page cursor probePage).next_seq cursor)
        (((run.logs.page cursor probePage).lines.map LogLine.text).foldl keepLine output))
  | died (r cursor : ℕ) (output : Text) {info : ExitInfo} (h : run.exit = some info) :
      Moves run (.looking r cursor output) (.draining r cursor info.code output)
  | again (r cursor : ℕ) (output : Text) :
      Moves run (.looking r cursor output) (.reading r cursor output)
  | waits (r : ℕ) (last : Bool) : Moves run (.waiting r last) (.waiting r last)
  | kills (r : ℕ) : Moves run (.waiting r false) (.killing r)

/-- With what a call ends. -/
inductive Ends (run : Run) : Phase → Answer → Prop
  | ready (r cursor : ℕ) (output : Text) {texts : List Text}
      (hpage : texts <+: (run.logs.page cursor probePage).lines.map LogLine.text)
      (hready : ∃ text ∈ texts, READY_MARKER <:+: text) :
      Ends run (.reading r cursor output)
        (.started r ⟨run.pid, ⟨true, none, texts.foldl keepLine output⟩⟩)
  | window (r cursor : ℕ) (output : Text) (h : run.exit = none) :
      Ends run (.looking r cursor output) (.started r ⟨run.pid, ⟨true, none, output⟩⟩)
  | died (r cursor : ℕ) (code : Option ℤ) (output : Text) :
      Ends run (.draining r cursor code output) (.started r ⟨run.pid, ⟨false, code,
        ((run.logs.page cursor probePage).lines.map LogLine.text).foldl keepLine output⟩⟩)
  | dead (phase : Phase) (h : run.exit.isSome = true) : Ends run phase (.stopped (phase.run + 1))
  | survived (phase : Phase) (error : String) : Ends run phase (.unstopped phase.run error)

/-- Which phase follows a signal. -/
inductive Signals : Phase → Phase → Prop
  | first (r : ℕ) (last : Bool) : Signals (.stopping r) (.waiting r last)
  | refused (r : ℕ) (problem : String) : Signals (.stopping r) (.refused r problem)
  | second (r : ℕ) : Signals (.killing r) (.waiting r true)

theorem gather_spec (output : Text) (texts : List Text) :
    ∃ seen, seen <+: texts ∧ (gather output texts).1 = seen.foldl keepLine output ∧
      ((gather output texts).2 = true → ∃ text ∈ seen, READY_MARKER <:+: text) ∧
      ((gather output texts).2 = false → seen = texts) := by
  induction texts generalizing output with
  | nil => exact ⟨[], List.prefix_refl _, rfl, fun h => absurd h Bool.false_ne_true, fun _ => rfl⟩
  | cons text texts ih =>
      rw [gather]
      by_cases hready : READY_MARKER <:+: text
      · rw [if_pos hready]
        exact ⟨[text], ⟨texts, rfl⟩, rfl, fun _ => ⟨text, List.mem_singleton_self _, hready⟩,
          fun h => absurd h.symm Bool.false_ne_true⟩
      · rw [if_neg hready]
        obtain ⟨seen, hseen, hout, hmarked, hall⟩ := ih (keepLine output text)
        refine ⟨text :: seen, List.cons_prefix_cons.mpr ⟨rfl, hseen⟩, hout, fun h => ?_,
          fun h => by rw [hall h]⟩
        obtain ⟨found, hfound, hmark⟩ := hmarked h
        exact ⟨found, List.mem_cons_of_mem _ hfound, hmark⟩

theorem advance_cases (s : State) (call : ℕ) (run : Run) (late : Bool)
    (taskkill : Except String Unit) (phase : Phase) :
    (∃ answer, Ends run phase answer ∧
      advance platform s call run late taskkill phase = s.answer call answer) ∨
    (∃ next, Moves run phase next ∧
      advance platform s call run late taskkill phase = s.go call next) ∨
    (∃ signal next, Signals phase next ∧
      advance platform s call run late taskkill phase =
        (s.deliver phase.run run.pid signal).go call next) := by
  cases phase with
  | reading r cursor output =>
      obtain ⟨seen, hseen, hout, hready, hall⟩ :=
        gather_spec output ((run.logs.page cursor probePage).lines.map LogLine.text)
      simp only [advance]
      cases hgather : gather output ((run.logs.page cursor probePage).lines.map LogLine.text) with
      | mk found marked =>
          rw [hgather] at hout hready hall
          obtain rfl : found = seen.foldl keepLine output := hout
          cases marked with
          | true => exact .inl ⟨_, .ready r cursor output hseen (hready rfl), rfl⟩
          | false =>
              rw [hall rfl]
              exact .inr (.inl ⟨_, .read r cursor output, rfl⟩)
  | looking r cursor output =>
      simp only [advance]
      cases hexit : run.exit with
      | some info => exact .inr (.inl ⟨_, .died r cursor output hexit, rfl⟩)
      | none =>
          cases late with
          | true => exact .inl ⟨_, .window r cursor output hexit, rfl⟩
          | false => exact .inr (.inl ⟨_, .again r cursor output, rfl⟩)
  | draining r cursor code output => exact .inl ⟨_, .died r cursor code output, rfl⟩
  | stopping r =>
      cases platform with
      | unix => exact .inr (.inr ⟨_, _, .first r false, rfl⟩)
      | windows =>
          cases taskkill with
          | ok _ => exact .inr (.inr ⟨_, _, .first r true, rfl⟩)
          | error problem => exact .inr (.inr ⟨_, _, .refused r problem, rfl⟩)
  | waiting r last =>
      simp only [advance]
      split_ifs with hexit hlate hlast
      · exact .inl ⟨_, .dead (.waiting r last) hexit, rfl⟩
      · exact .inl ⟨_, .survived (.waiting r last) _, rfl⟩
      · obtain rfl : last = false := eq_false_of_ne_true hlast
        exact .inr (.inl ⟨_, .kills r, rfl⟩)
      · exact .inr (.inl ⟨_, .waits r last, rfl⟩)
  | killing r => exact .inr (.inr ⟨_, _, .second r, rfl⟩)
  | refused r problem =>
      simp only [advance]
      split_ifs with hexit
      · exact .inl ⟨_, .dead (.refused r problem) hexit, rfl⟩
      · exact .inl ⟨_, .survived (.refused r problem) _, rfl⟩

/-- What an answer says when it is given. -/
inductive Tells (s : State) : Answer → Prop
  | refused (error : String) : Tells s (.refused error)
  | nothing (h : s.managed.filter Run.isAlive = none) : Tells s (.stopped s.runs.length)
  | status : Tells s (.status s.status)
  | ends {call : ℕ} {phase : Phase} {run : Run} {answer : Answer}
      (hphase : s.calls call = some phase) (hrun : s.runs[phase.run]? = some run)
      (h : Ends run phase answer) : Tells s answer

/-- The run an event is about. -/
def Event.run? : Event → Option ℕ
  | .ends r _ | .reaps r | .records r | .waitFails r | .prints r _ _ => some r
  | _ => none

def Event.lines : Event → List (ℕ × Text)
  | .prints r _ text => [(r, LogBuffer.cut text)]
  | _ => []

/-- Everything a step can do. -/
inductive Effect (s : State) (a : Event) : State → Prop
  | answers (call : ℕ) {answer : Answer} (h : Tells s answer) : Effect s a (s.answer call answer)
  | moves {call : ℕ} {phase next : Phase} {run : Run} (hphase : s.calls call = some phase)
      (hrun : s.runs[phase.run]? = some run) (h : Moves run phase next) :
      Effect s a (s.go call next)
  | sends {call : ℕ} {phase next : Phase} {run : Run} (signal : Signal)
      (hphase : s.calls call = some phase) (hrun : s.runs[phase.run]? = some run)
      (h : Signals phase next) : Effect s a ((s.deliver phase.run run.pid signal).go call next)
  | stops (call : ℕ) {r : ℕ} {run : Run} (hrun : s.runs[r]? = some run) (h : run.exit = none) :
      Effect s a (s.go call (.stopping r))
  | starts {call pid now_unix : ℕ} {spec : SpawnSpec} {isDir : Bool}
      (ha : a = .start call spec isDir (.ok pid) now_unix)
      (hdead : s.managed.filter Run.isAlive = none) (hfree : s.holders pid = []) :
      Effect s a ((s.spawn pid now_unix).go call (.reading s.runs.length 0 []))
  | touches {r : ℕ} {run run' : Run} (hr : a.run? = some r) (hrun : s.runs[r]? = some run)
      (h : onRun run a = some run') :
      Effect s a { s.modifyRun r (fun _ => run') with printed := s.printed ++ a.lines }
  | elsewhere (strangers : List ℕ) (h : ∀ pid ∈ strangers, pid ∈ s.strangers ∨ a = .comes pid) :
      Effect s a { s with strangers := strangers }

theorem effect_of_atRun {u : State} (hr : a.run? = some r) (h : atRun s r a = some u) :
    Effect s a { u with printed := s.printed ++ a.lines } := by
  obtain ⟨run, hrun, h⟩ := Option.bind_eq_some_iff.mp h
  obtain ⟨run', hon, rfl⟩ := Option.map_eq_some_iff.mp h
  exact .touches hr hrun hon

theorem step_effect (h : step platform s a = some t) : Effect s a t := by
  cases a with
  | start call spec isDir spawned now =>
      simp only [step, start] at h
      split_ifs at h with hbusy hdir
      · cases h
        exact .answers call (.refused _)
      · cases hmanaged : s.managed.filter Run.isAlive with
        | some previous =>
            rw [hmanaged] at h
            cases h
            exact .answers call (.refused _)
        | none =>
            rw [hmanaged] at h
            cases spawned with
            | error error =>
                cases h
                exact .answers call (.refused _)
            | ok pid =>
                dsimp only at h
                split_ifs at h with hfree
                cases h
                exact .starts rfl hmanaged hfree
  | stop call =>
      simp only [step, stop] at h
      split_ifs at h
      cases hmanaged : s.managed.filter Run.isAlive with
      | some run =>
          obtain ⟨hslotted, halive⟩ := Option.filter_eq_some_iff.mp hmanaged
          obtain ⟨r, hslot, hrun⟩ := Option.bind_eq_some_iff.mp hslotted
          rw [hslot, hmanaged] at h
          cases h
          exact .stops call hrun (Option.isNone_iff_eq_none.mp halive)
      | none =>
          rw [hmanaged] at h
          split at h
          · rename_i hsome
            cases hsome
          · cases h
            exact .answers call (.nothing hmanaged)
  | status call =>
      simp only [step] at h
      split_ifs at h
      cases h
      exact .answers call .status
  | advance call late taskkill =>
      obtain ⟨phase, hphase, h⟩ := Option.bind_eq_some_iff.mp h
      obtain ⟨run, hrun, rfl⟩ := Option.map_eq_some_iff.mp h
      rcases @advance_cases platform s call run late taskkill phase with
        ⟨answer, hends, h⟩ | ⟨next, hmoves, h⟩ | ⟨signal, next, hsignals, h⟩
      · rw [h]
        exact .answers call (.ends hphase hrun hends)
      · rw [h]
        exact .moves hphase hrun hmoves
      · rw [h]
        exact .sends signal hphase hrun hsignals
  | prints r stream text =>
      obtain ⟨u, hu, rfl⟩ := Option.map_eq_some_iff.mp h
      have hprinted : u.printed = s.printed := by
        obtain ⟨run, -, hu⟩ := Option.bind_eq_some_iff.mp hu
        obtain ⟨run', -, rfl⟩ := Option.map_eq_some_iff.mp hu
        rfl
      rw [hprinted]
      exact effect_of_atRun rfl hu
  | ends r info | reaps r | records r | waitFails r =>
      have hprinted : { t with printed := s.printed ++ [] } = t := by
        obtain ⟨run, -, hu⟩ := Option.bind_eq_some_iff.mp h
        obtain ⟨run', -, rfl⟩ := Option.map_eq_some_iff.mp hu
        rw [List.append_nil]
        rfl
      rw [← hprinted]
      exact effect_of_atRun rfl h
  | comes pid =>
      simp only [step] at h
      split_ifs at h
      cases h
      refine .elsewhere _ fun q hq => ?_
      rcases List.mem_cons.mp hq with rfl | hold
      · exact .inr rfl
      · exact .inl hold
  | leaves pid =>
      cases h
      exact .elsewhere _ fun q hq => .inl (List.mem_filter.mp hq).1

/-! ## One run -/

/-- What stays of a run as it goes on. -/
structure Later (run run' : Run) : Prop where
  pid : run'.pid = run.pid
  started : run'.started_at_unix = run.started_at_unix
  ended : ∀ info, run.ended = some info → run'.ended = some info
  reaped : run.reaped = true → run'.reaped = true
  exit : ∀ info, run.exit = some info → run'.exit = some info

/-- Only a process that has ended is waited for, and a code that is recorded is its code. -/
def Run.Sane (run : Run) : Prop :=
  (run.reaped = true → run.ended.isSome = true) ∧
    ∀ info, run.exit = some info → info.code = none ∨ run.ended = some info

/-- What is recorded to have ended has. -/
def Run.Truthful (run : Run) : Prop := run.exit.isSome = true → run.ended.isSome = true

variable {run run' : Run}

theorem Later.refl (run : Run) : Later run run :=
  ⟨rfl, rfl, fun _ h => h, fun h => h, fun _ h => h⟩

theorem onRun_later (h : onRun run a = some run') : Later run run' := by
  cases a with
  | ends r info =>
      simp only [onRun] at h
      split_ifs at h with hended
      cases h
      exact ⟨rfl, rfl, fun _ hinfo => by (rw [hended] at hinfo; cases hinfo), fun h => h,
        fun _ h => h⟩
  | reaps r =>
      simp only [onRun] at h
      split_ifs at h
      cases h
      exact ⟨rfl, rfl, fun _ h => h, fun _ => rfl, fun _ h => h⟩
  | records r | waitFails r =>
      simp only [onRun] at h
      split_ifs at h with hopen
      cases h
      exact ⟨rfl, rfl, fun _ h => h, fun h => h,
        fun _ hinfo => by (rw [hopen.2] at hinfo; cases hinfo)⟩
  | prints r stream text =>
      cases h
      exact ⟨rfl, rfl, fun _ h => h, fun h => h, fun _ h => h⟩
  | _ => cases h

theorem onRun_sane (hsane : run.Sane) (h : onRun run a = some run') : run'.Sane := by
  cases a with
  | ends r info =>
      simp only [onRun] at h
      split_ifs at h with hended
      cases h
      refine ⟨fun _ => rfl, fun found hfound => ?_⟩
      rcases hsane.2 found hfound with hcode | hfound
      · exact .inl hcode
      · rw [hended] at hfound
        cases hfound
  | reaps r =>
      simp only [onRun] at h
      split_ifs at h with hopen
      cases h
      exact ⟨fun _ => hopen.1, hsane.2⟩
  | records r =>
      simp only [onRun] at h
      split_ifs at h with hopen
      cases h
      exact ⟨hsane.1, fun _ hinfo => .inr hinfo⟩
  | waitFails r =>
      simp only [onRun] at h
      split_ifs at h with hopen
      cases h
      exact ⟨hsane.1, fun info hinfo => .inl (by rw [← Option.some.inj hinfo])⟩
  | prints r stream text =>
      cases h
      exact hsane
  | _ => cases h

/-- A record is wrong exactly where the wait fails on a process that is running. -/
theorem onRun_truthful_iff (hsane : run.Sane) (htrue : run.Truthful)
    (h : onRun run a = some run') :
    run'.Truthful ↔ ∀ r, a = .waitFails r → run.ended.isSome = true := by
  cases a with
  | waitFails r =>
      simp only [onRun] at h
      split_ifs at h with hopen
      cases h
      exact ⟨fun h _ _ => h rfl, fun h _ => h r rfl⟩
  | ends r info =>
      simp only [onRun] at h
      split_ifs at h
      cases h
      exact ⟨fun _ _ hr => Event.noConfusion hr, fun _ _ => rfl⟩
  | reaps r =>
      simp only [onRun] at h
      split_ifs at h
      cases h
      exact ⟨fun _ _ hr => Event.noConfusion hr, fun _ => htrue⟩
  | records r =>
      simp only [onRun] at h
      split_ifs at h with hopen
      cases h
      exact ⟨fun _ _ hr => Event.noConfusion hr, fun _ _ => hsane.1 hopen.1⟩
  | prints r stream text =>
      cases h
      exact ⟨fun _ _ hr => Event.noConfusion hr, fun _ => htrue⟩
  | _ => cases h

/-! ## All runs -/

/-- The fields that no event has touched yet. -/
structure Run.Fresh (run : Run) : Prop where
  ended : run.ended = none
  reaped : run.reaped = false
  exit : run.exit = none
  logs : run.logs = LogBuffer.withCapacity logCapacity

theorem length_runs (h : step platform s a = some t) : s.runs.length ≤ t.runs.length := by
  cases step_effect h with
  | starts _ _ _ => simp [State.spawn]
  | touches _ _ _ => simp [State.modifyRun]
  | _ => exact Nat.le_refl _

/-- A run of the next state is a run of this one, after the event, or the start's. -/
theorem runs_of_step (h : step platform s a = some t) (hrun' : t.runs[r]? = some run') :
    (∃ run, s.runs[r]? = some run ∧
      (run' = run ∨ (a.run? = some r ∧ onRun run a = some run'))) ∨
    (r = s.runs.length ∧ t.runs.length = s.runs.length + 1 ∧ t.slot = some r ∧ run'.Fresh ∧
      s.managed.filter Run.isAlive = none ∧ s.holders run'.pid = []) := by
  cases step_effect h with
  | starts _ hdead hfree =>
      simp only [State.runs_go, State.spawn] at hrun'
      rcases Nat.lt_trichotomy r s.runs.length with hlt | rfl | hgt
      · rw [List.getElem?_append_left hlt] at hrun'
        exact .inl ⟨run', hrun', .inl rfl⟩
      · rw [List.getElem?_append_right (Nat.le_refl _), Nat.sub_self] at hrun'
        obtain rfl := Option.some.inj hrun'
        exact .inr ⟨rfl, by simp [State.spawn], rfl, ⟨rfl, rfl, rfl, rfl⟩, hdead, hfree⟩
      · rw [List.getElem?_eq_none (by simp; omega)] at hrun'
        cases hrun'
  | @touches q run next hq hrun hon =>
      simp only [State.modifyRun] at hrun'
      by_cases hr : q = r
      · subst hr
        rw [List.getElem?_modify_eq, hrun] at hrun'
        obtain rfl := Option.some.inj hrun'
        exact .inl ⟨run, hrun, .inr ⟨hq, hon⟩⟩
      · rw [List.getElem?_modify_ne _ _ hr] at hrun'
        exact .inl ⟨run', hrun', .inl rfl⟩
  | _ => exact .inl ⟨run', hrun', .inl rfl⟩

/-- No run is lost. -/
theorem run_later (h : step platform s a = some t) (hrun : s.runs[r]? = some run) :
    ∃ run', t.runs[r]? = some run' ∧ Later run run' := by
  have hlt := (List.getElem?_eq_some_iff.mp hrun).1
  obtain ⟨run', hrun'⟩ : ∃ run', t.runs[r]? = some run' :=
    ⟨_, List.getElem?_eq_getElem (Nat.lt_of_lt_of_le hlt (length_runs h))⟩
  refine ⟨run', hrun', ?_⟩
  rcases runs_of_step h hrun' with ⟨before, hbefore, hcase⟩ | ⟨heq, -⟩
  · rw [hrun] at hbefore
    obtain rfl := Option.some.inj hbefore
    rcases hcase with rfl | ⟨-, hon⟩
    · exact Later.refl run'
    · exact onRun_later hon
  · omega

theorem recorded_stays (h : step platform s a = some t) (hrun : s.runs[r]? = some run)
    (hexit : run.exit.isSome = true) (hrun' : t.runs[r]? = some run') :
    run'.exit.isSome = true := by
  obtain ⟨later, hlater, hstays⟩ := run_later h hrun
  rw [hrun'] at hlater
  obtain rfl := Option.some.inj hlater
  obtain ⟨info, hinfo⟩ := Option.isSome_iff_exists.mp hexit
  rw [hstays.exit info hinfo]
  rfl

/-- The slot has the newest run, the others are recorded to have ended, and no record is made
up. -/
structure RunsInv (s : State) : Prop where
  slot : ∀ r, s.slot = some r ↔ r + 1 = s.runs.length
  older : ∀ r run, s.runs[r]? = some run → r + 1 < s.runs.length → run.exit.isSome = true
  sane : ∀ (r : ℕ) (run : Run), s.runs[r]? = some run → run.Sane

theorem runsInv_init : RunsInv .init where
  slot := fun r => ⟨fun h => absurd h (Option.some_ne_none r).symm, fun h => by cases h⟩
  older := fun _ _ h => by cases h
  sane := fun _ _ h => by cases h

/-- Where nothing in the slot is alive, every run is recorded to have ended. -/
theorem RunsInv.all_recorded (hI : RunsInv s) (hdead : s.managed.filter Run.isAlive = none)
    (hrun : s.runs[r]? = some run) : run.exit.isSome = true := by
  have hlt := (List.getElem?_eq_some_iff.mp hrun).1
  rcases Nat.lt_or_eq_of_le (Nat.succ_le_of_lt hlt) with hold | hlast
  · exact hI.older r run hrun hold
  · have hmanaged : s.managed = some run := by
      unfold State.managed
      rw [(hI.slot r).mpr hlast]
      exact hrun
    rw [hmanaged] at hdead
    cases hexit : run.exit with
    | some info => rfl
    | none => simp [Option.filter, Run.isAlive, hexit] at hdead

theorem RunsInv.step (hI : RunsInv s) (h : step platform s a = some t) : RunsInv t where
  slot := by
    cases step_effect h with
    | starts _ _ _ =>
        intro r
        simp only [State.go, State.spawn, List.length_append, List.length_singleton,
          Option.some.injEq]
        omega
    | touches _ _ _ => simpa only [State.modifyRun, List.length_modify] using hI.slot
    | _ => exact hI.slot
  older := by
    intro r run' hrun' hlt
    rcases runs_of_step h hrun' with ⟨run, hrun, hcase⟩ | ⟨rfl, hlength, -⟩
    · have hrecorded : run.exit.isSome = true := by
        cases step_effect h with
        | starts _ hdead _ => exact hI.all_recorded hdead hrun
        | touches _ _ _ => exact hI.older r run hrun (by simpa [State.modifyRun] using hlt)
        | _ => exact hI.older r run hrun hlt
      exact recorded_stays h hrun hrecorded hrun'
    · omega
  sane := by
    intro r run' hrun'
    rcases runs_of_step h hrun' with ⟨run, hrun, rfl | ⟨-, hon⟩⟩ | ⟨-, -, -, hfresh, -⟩
    · exact hI.sane r run' hrun
    · exact onRun_sane (hI.sane r run hrun) hon
    · exact ⟨fun h => absurd (hfresh.reaped.symm.trans h) Bool.false_ne_true,
        fun info hinfo => by (rw [hfresh.exit] at hinfo; cases hinfo)⟩

/-! ## Supervision -/

/-- The process of the run has not ended. -/
def State.Alive (s : State) (r : ℕ) : Prop := ∃ run, s.runs[r]? = some run ∧ run.ended = none

/-- There is one process at most; it is the one in the slot, and `status` says so. Where
`status` says that it has exited it has, with that code if one is given. -/
structure Supervised (s : State) : Prop where
  alone : ∀ r r', s.Alive r → s.Alive r' → r = r'
  running : ∀ r run, s.runs[r]? = some run → run.ended = none →
    s.slot = some r ∧ s.status = ⟨.running, some run.pid, some run.started_at_unix, none⟩
  exited : s.status.state = .exited → ∃ r run info, s.slot = some r ∧ s.runs[r]? = some run ∧
    s.status.pid = some run.pid ∧ run.ended = some info ∧
      (s.status.exit_code = info.code ∨ s.status.exit_code = none)
  stopped : s.status.state = .stopped → s.runs = []

/-- `try_wait` fails on no process that is running. -/
def WaitsTruly (s : State) (a : Event) : Prop :=
  ∀ r run, a = .waitFails r → s.runs[r]? = some run → run.ended.isSome = true

theorem status_of_managed (hmanaged : s.managed = some run) :
    s.status = if run.isAlive then
      ⟨.running, some run.pid, some run.started_at_unix, none⟩
    else ⟨.exited, some run.pid, some run.started_at_unix, run.exit.bind ExitInfo.code⟩ := by
  unfold State.status
  rw [hmanaged]

theorem RunsInv.managed_eq (hI : RunsInv s) (hrun : s.runs[r]? = some run)
    (hlast : r + 1 = s.runs.length) : s.managed = some run := by
  unfold State.managed
  rw [(hI.slot r).mpr hlast]
  exact hrun

/-- What is told is right where no record is wrong. -/
theorem supervised_iff (hI : RunsInv s) :
    Supervised s ↔ ∀ (r : ℕ) (run : Run), s.runs[r]? = some run → run.Truthful := by
  constructor
  · intro hsupervised r run hrun hexit
    by_contra hended
    have halive : run.ended = none := Option.not_isSome_iff_eq_none.mp hended
    obtain ⟨hslot, hstatus⟩ := hsupervised.running r run hrun halive
    rw [status_of_managed (hI.managed_eq hrun ((hI.slot r).mp hslot)),
      if_neg (by simp [Run.isAlive, Option.isNone_iff_eq_none, Option.isSome_iff_ne_none.mp hexit])]
      at hstatus
    cases hstatus
  · intro htrue
    have hopen : ∀ r run, s.runs[r]? = some run → run.ended = none →
        run.isAlive = true ∧ r + 1 = s.runs.length := by
      intro r run hrun hended
      have hexit : run.exit = none := by
        by_contra hne
        have := htrue r run hrun (Option.isSome_iff_ne_none.mpr hne)
        rw [hended] at this
        cases this
      refine ⟨by rw [Run.isAlive, hexit]; rfl, ?_⟩
      by_contra hlast
      have hlt := (List.getElem?_eq_some_iff.mp hrun).1
      have := hI.older r run hrun (by omega)
      rw [hexit] at this
      cases this
    refine ⟨?_, ?_, ?_, ?_⟩
    · rintro r r' ⟨run, hrun, hended⟩ ⟨run', hrun', hended'⟩
      have := (hopen r run hrun hended).2
      have := (hopen r' run' hrun' hended').2
      omega
    · intro r run hrun hended
      obtain ⟨halive, hlast⟩ := hopen r run hrun hended
      refine ⟨(hI.slot r).mpr hlast, ?_⟩
      rw [status_of_managed (hI.managed_eq hrun hlast), if_pos halive]
    · intro hexited
      cases hmanaged : s.managed with
      | none =>
          simp [State.status, hmanaged] at hexited
      | some run =>
          obtain ⟨r, hslot, hrun⟩ := Option.bind_eq_some_iff.mp hmanaged
          rw [status_of_managed hmanaged] at hexited ⊢
          cases halive : run.isAlive with
          | true => simp [halive] at hexited
          | false =>
              obtain ⟨info, hinfo⟩ : ∃ info, run.exit = some info := by
                cases hexit : run.exit with
                | none => simp [Run.isAlive, hexit] at halive
                | some info => exact ⟨info, rfl⟩
              obtain ⟨how, hhow⟩ := Option.isSome_iff_exists.mp
                (htrue r run hrun (by rw [hinfo]; rfl))
              refine ⟨r, run, how, hslot, hrun, by simp, hhow, ?_⟩
              rcases (hI.sane r run hrun).2 info hinfo with hnone | hended
              · exact .inr (by simp [hinfo, hnone])
              · rw [hhow] at hended
                obtain rfl := Option.some.inj hended
                exact .inl (by simp [hinfo])
    · intro hstopped
      cases hmanaged : s.managed with
      | some run =>
          rw [status_of_managed hmanaged] at hstopped
          split at hstopped
          all_goals cases hstopped
      | none =>
          by_contra hne
          have hlast := (hI.slot (s.runs.length - 1)).mpr
            (Nat.sub_add_cancel (List.length_pos_iff.mpr hne))
          have hlt : s.runs.length - 1 < s.runs.length :=
            Nat.sub_lt (List.length_pos_iff.mpr hne) Nat.one_pos
          rw [State.managed, hlast, Option.bind_some, List.getElem?_eq_none_iff] at hmanaged
          exact Nat.not_lt.mpr hmanaged hlt

theorem supervised_init : Supervised .init :=
  (supervised_iff runsInv_init).mpr fun _ _ h => by cases h

theorem Supervised.step_iff (hI : RunsInv s) (hs : Supervised s)
    (h : step platform s a = some t) : Supervised t ↔ WaitsTruly s a := by
  have htrue := (supervised_iff hI).mp hs
  rw [supervised_iff (hI.step h)]
  constructor
  · intro hthen r run ha hrun
    subst ha
    obtain ⟨found, hfound, hmap⟩ := Option.bind_eq_some_iff.mp h
    rw [hrun] at hfound
    obtain rfl := Option.some.inj hfound
    obtain ⟨run', hon, rfl⟩ := Option.map_eq_some_iff.mp hmap
    have hrun' : (s.modifyRun r fun _ => run').runs[r]? = some run' := by
      simp only [State.modifyRun]
      rw [List.getElem?_modify_eq, hrun]
      rfl
    exact (onRun_truthful_iff (hI.sane r run hrun) (htrue r run hrun) hon).mp
      (hthen r run' hrun') r rfl
  · intro hwaits r run' hrun'
    rcases runs_of_step h hrun' with ⟨run, hrun, rfl | ⟨hr, hon⟩⟩ | ⟨-, -, -, hfresh, -⟩
    · exact htrue r run' hrun
    · refine (onRun_truthful_iff (hI.sane r run hrun) (htrue r run hrun) hon).mpr fun q ha => ?_
      subst ha
      obtain rfl := Option.some.inj hr
      exact hwaits q run rfl hrun
    · intro hexit
      rw [hfresh.exit] at hexit
      cases hexit

/-- **The manager knows its process**, in every interleaving, exactly while no wait fails on a
process that is running. -/
theorem supervised_throughout_iff (platform : Platform) (as : List Event) :
    Throughout (step platform) Supervised .init as ↔
      EachStep (step platform) WaitsTruly .init as :=
  throughout_iff_eachStep (step platform) (fun _ _ _ hI _ h => hI.step h)
    (fun _ _ _ hI hs h => hs.step_iff hI h) runsInv_init supervised_init

end Wallermax.Manager.Processes
