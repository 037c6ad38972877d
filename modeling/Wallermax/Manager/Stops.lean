import Wallermax.Manager.Supervision

/-!
# Stopping the process

A `stop` remembers a pid under the lock and signals it later. What it says of the process is
right in every interleaving; its signals reach nothing else as long as nobody is given a pid
that the manager may still mean.
-/

namespace Wallermax.Manager.Processes

open Wallermax.Base

variable {platform : Platform} {s t : State} {a : Event} {r pid : ℕ} {run run' : Run}

/-- The manager may still mean the run by its pid: the reaper has not recorded its end, or a
call that has not sent its last signal is about it. -/
def State.Held (s : State) (r : ℕ) : Prop :=
  (∃ run, s.runs[r]? = some run ∧ run.exit = none) ∨
    ∃ call phase, s.calls call = some phase ∧ phase.run = r ∧ phase.signals = true

/-- Nobody gets a pid that the manager may still mean. -/
def KeepsPids (platform : Platform) (s : State) (a : Event) : Prop :=
  ∀ t r run, step platform s a = some t → s.Held r → s.runs[r]? = some run →
    ∀ p ∈ t.holders run.pid, p ∈ s.holders run.pid

/-- A signal reaches no process but its target, and behind a `stop` that succeeded nothing runs
of what had been started before the call. -/
structure StopsRight (s : State) : Prop where
  aimed : ∀ d ∈ s.signals, ∀ p ∈ d.reached, p = .run d.target
  stopped : ∀ call starts, (call, Answer.stopped starts) ∈ s.answered →
    ∀ r, r < starts → ¬s.Alive r

theorem Moves.aims {phase next : Phase} (h : Moves run phase next) :
    next.run = phase.run ∧ (next.signals = true → phase.signals = true) := by
  cases h <;> exact ⟨rfl, fun h => h⟩

theorem Signals.aims {phase next : Phase} (h : Signals phase next) :
    next.run = phase.run ∧ phase.signals = true := by
  cases h <;> exact ⟨rfl, rfl⟩

/-- A run that is held was so before, or is new. -/
theorem held_of_step (h : step platform s a = some t) (hheld : t.Held r)
    (hr : r < s.runs.length) : s.Held r := by
  rcases hheld with ⟨run', hrun', hexit⟩ | ⟨call, next, hnext, hrun, hsignals⟩
  · have hbefore := List.getElem?_eq_getElem hr
    obtain ⟨later, hlater, hstays⟩ := run_later h hbefore
    rw [hrun'] at hlater
    obtain rfl := Option.some.inj hlater
    refine .inl ⟨_, hbefore, ?_⟩
    cases hopen : (s.runs[r]).exit with
    | none => rfl
    | some info =>
        rw [hstays.exit info hopen] at hexit
        cases hexit
  · cases step_effect h with
    | answers c _ => exact .inr ⟨call, next, State.calls_answer hnext, hrun, hsignals⟩
    | moves hphase _ hmoves =>
        rcases State.calls_go hnext with hold | rfl
        · exact .inr ⟨call, next, hold, hrun, hsignals⟩
        · obtain ⟨hsame, hbefore⟩ := hmoves.aims
          exact .inr ⟨_, _, hphase, hsame.symm.trans hrun, hbefore hsignals⟩
    | sends _ hphase _ hsent =>
        rcases State.calls_go hnext with hold | rfl
        · exact .inr ⟨call, next, hold, hrun, hsignals⟩
        · exact .inr ⟨_, _, hphase, hsent.aims.1.symm.trans hrun, hsent.aims.2⟩
    | stops c hfound hopen =>
        rcases State.calls_go hnext with hold | rfl
        · exact .inr ⟨call, next, hold, hrun, hsignals⟩
        · obtain rfl := hrun
          exact .inl ⟨_, hfound, hopen⟩
    | starts _ _ _ =>
        rcases State.calls_go hnext with hold | rfl
        · exact .inr ⟨call, next, hold, hrun, hsignals⟩
        · cases hsignals
    | touches _ _ _ | elsewhere _ _ => exact .inr ⟨call, next, hnext, hrun, hsignals⟩

/-- The pid of a run that is held belongs to that run or to nobody; and of what was to be
stopped, the end is recorded. -/
structure StopsInv (s : State) : Prop where
  runs : RunsInv s
  mine : ∀ r run, s.Held r → s.runs[r]? = some run → ∀ p ∈ s.holders run.pid, p = .run r
  aimed : ∀ d ∈ s.signals, ∀ p ∈ d.reached, p = .run d.target
  stopped : ∀ call starts, (call, Answer.stopped starts) ∈ s.answered → starts ≤ s.runs.length ∧
    ∀ r run, r < starts → s.runs[r]? = some run → run.exit.isSome = true

theorem stopsInv_init : StopsInv .init where
  runs := runsInv_init
  mine := fun _ _ _ h => by cases h
  aimed := fun _ h => absurd h List.not_mem_nil
  stopped := fun _ _ h => absurd h List.not_mem_nil

/-- A run that is not waited for had its pid before, or is new. -/
theorem unreaped_before {q : ℕ} (h : step platform s a = some t) (hrun' : t.runs[q]? = some run')
    (hreaped : run'.reaped = false) :
    (∃ run, s.runs[q]? = some run ∧ run.reaped = false ∧ run.pid = run'.pid) ∨
      (q = s.runs.length ∧ s.runs.length < t.runs.length) := by
  rcases runs_of_step h hrun' with ⟨run, hrun, rfl | ⟨-, hon⟩⟩ | ⟨rfl, hlength, -⟩
  · exact .inl ⟨run', hrun, hreaped, rfl⟩
  · have hlater := onRun_later hon
    refine .inl ⟨run, hrun, eq_false_of_ne_true fun htrue => ?_, hlater.pid.symm⟩
    rw [hlater.reaped htrue] at hreaped
    cases hreaped
  · exact .inr ⟨rfl, by omega⟩

/-- A start, where there is a run more. -/
theorem starts_of_length (h : step platform s a = some t) (hlength : s.runs.length < t.runs.length) :
    t.strangers = s.strangers ∧
      ∃ call spec isDir spawned now, a = .start call spec isDir spawned now := by
  cases step_effect h with
  | starts ha _ _ => exact ⟨rfl, _, _, _, _, _, ha⟩
  | touches _ _ _ => simp [State.modifyRun] at hlength
  | _ => exact absurd hlength (Nat.lt_irrefl _)

/-- A process that has just been started is alone with its pid. -/
theorem holders_of_start (h : step platform s a = some t)
    (hlength : s.runs.length < t.runs.length) (hfree : s.holders pid = []) :
    ∀ p ∈ t.holders pid, p = .run s.runs.length := by
  intro p hp
  rcases State.mem_holders.mp hp with ⟨q, run', rfl, hrun', hreaped, rfl⟩ | ⟨rfl, hstranger⟩
  · rcases unreaped_before h hrun' hreaped with ⟨run, hrun, hsame⟩ | ⟨rfl, -⟩
    · have hheld := (State.mem_holders (s := s)).mpr (.inl ⟨q, run, rfl, hrun, hsame⟩)
      rw [hfree] at hheld
      cases hheld
    · rfl
  · rw [(starts_of_length h hlength).1] at hstranger
    have hheld := (State.mem_holders (s := s)).mpr (.inr ⟨rfl, hstranger⟩)
    rw [hfree] at hheld
    cases hheld

/-- **What a stop does**: one step. -/
theorem StopsInv.step (hI : StopsInv s) (hpids : KeepsPids platform s a)
    (h : step platform s a = some t) : StopsInv t where
  runs := hI.runs.step h
  mine := by
    intro r run' hheld hrun' p hp
    rcases runs_of_step h hrun' with ⟨run, hrun, hcase⟩ | ⟨rfl, hlength, -, -, -, hfree⟩
    · have hsame : run'.pid = run.pid := by
        rcases hcase with rfl | ⟨-, hon⟩
        · rfl
        · exact (onRun_later hon).pid
      have hbefore := held_of_step h hheld (List.getElem?_eq_some_iff.mp hrun).1
      rw [hsame] at hp
      exact hI.mine r run hbefore hrun p (hpids t r run h hbefore hrun p hp)
    · exact holders_of_start h (by omega) hfree p hp
  aimed := by
    cases step_effect h with
    | @sends c phase next target signal hphase hrun hsent =>
        intro d hd
        rcases List.mem_append.mp hd with hold | hnew
        · exact hI.aimed d hold
        · obtain rfl := List.mem_singleton.mp hnew
          exact hI.mine phase.run target (.inr ⟨c, phase, hphase, rfl, hsent.aims.2⟩) hrun
    | _ => exact hI.aimed
  stopped := by
    have hkeeps : ∀ starts, (starts ≤ s.runs.length ∧ ∀ r run, r < starts →
        s.runs[r]? = some run → run.exit.isSome = true) → starts ≤ t.runs.length ∧
          ∀ r run', r < starts → t.runs[r]? = some run' → run'.exit.isSome = true := by
      rintro starts ⟨hle, hexit⟩
      refine ⟨hle.trans (length_runs h), fun r run' hr hrun' => ?_⟩
      rcases runs_of_step h hrun' with ⟨run, hrun, -⟩ | ⟨rfl, -⟩
      · exact recorded_stays h hrun (hexit r run hr hrun) hrun'
      · omega
    intro c starts hmem
    cases step_effect h with
    | answers c' htells =>
        rcases List.mem_append.mp hmem with hold | hnew
        · exact hkeeps starts (hI.stopped c starts hold)
        · obtain ⟨-, rfl⟩ := Prod.mk.inj (List.mem_singleton.mp hnew)
          cases htells with
          | nothing hdead =>
              exact ⟨Nat.le_refl _, fun r run _ hrun => hI.runs.all_recorded hdead hrun⟩
          | @ends _ phase run _ hphase hrun hends =>
              cases hends with
              | dead _ hexit =>
                  refine ⟨Nat.succ_le_of_lt (List.getElem?_eq_some_iff.mp hrun).1,
                    fun r other hr hother => ?_⟩
                  rcases Nat.lt_or_eq_of_le (Nat.le_of_lt_succ hr) with hlt | rfl
                  · have := (List.getElem?_eq_some_iff.mp hrun).1
                    exact hI.runs.older r other hother (by omega)
                  · rw [State.runs_answer, hrun] at hother
                    obtain rfl := Option.some.inj hother
                    exact hexit
    | _ => exact hkeeps starts (hI.stopped c starts hmem)

theorem stopsRight_of_inv (hI : StopsInv s) (hs : Supervised s) : StopsRight s where
  aimed := hI.aimed
  stopped := by
    rintro call starts hmem r hr ⟨run, hrun, hended⟩
    have hexit := (hI.stopped call starts hmem).2 r run hr hrun
    have hdone := (supervised_iff hI.runs).mp hs r run hrun hexit
    rw [hended] at hdone
    cases hdone

/-- Only a new process takes a pid. -/
theorem holders_subset (h : step platform s a = some t)
    (hstart : ∀ call spec isDir spawned now, a ≠ .start call spec isDir spawned now)
    (hcomes : ∀ q, a ≠ .comes q) : ∀ p ∈ t.holders pid, p ∈ s.holders pid := by
  intro p hp
  rcases State.mem_holders.mp hp with ⟨q, run', rfl, hrun', hreaped, rfl⟩ | ⟨rfl, hstranger⟩
  · rcases unreaped_before h hrun' hreaped with ⟨run, hrun, hsame⟩ | ⟨rfl, hlength⟩
    · exact State.mem_holders.mpr (.inl ⟨q, run, rfl, hrun, hsame⟩)
    · obtain ⟨-, call, spec, isDir, spawned, now, ha⟩ := starts_of_length h hlength
      exact absurd ha (hstart call spec isDir spawned now)
  · refine State.mem_holders.mpr (.inr ⟨rfl, ?_⟩)
    cases step_effect h with
    | elsewhere strangers hold =>
        rcases hold pid hstranger with hsame | hnew
        · exact hsame
        · exact absurd hnew (hcomes pid)
    | _ => exact hstranger

/-- A start where there is no run yet, and no process beside the manager's. -/
def firstStart (s : State) : Event → Bool
  | .start _ _ _ _ _ => s.runs.isEmpty
  | .comes _ | .waitFails _ => false
  | _ => true

theorem firstStart_keeps (h : firstStart s a = true) : WaitsTruly s a ∧ KeepsPids platform s a := by
  cases a with
  | start call spec isDir spawned now =>
      refine ⟨fun _ _ ha => (by cases ha), fun t r run _ _ hrun => ?_⟩
      rw [List.isEmpty_iff.mp h] at hrun
      cases hrun
  | comes q | waitFails r => cases h
  | _ =>
      exact ⟨fun _ _ ha => (by cases ha), fun t r run hstep _ _ =>
        holders_subset hstep (fun _ _ _ _ _ ha => (by cases ha)) (fun _ ha => (by cases ha))⟩

/-- A server is started and stopped: `SIGTERM`, its end, the reaper, the answer. -/
def startedAndStopped : List Event :=
  [.start 0 ⟨"server", [], "/srv"⟩ true (.ok 7) 0, .stop 1, .advance 1 false (.ok ()),
    .ends 0 ⟨none⟩, .reaps 0, .records 0, .advance 1 false (.ok ())]

end Wallermax.Manager.Processes
