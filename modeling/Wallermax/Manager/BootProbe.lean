import Wallermax.Manager.Supervision

/-!
# The boot probe

What a `start` reports, with everything else going on beside the probe: the pid and the output
are those of the process that was started, its lines in the order it printed them; a process
that is said to have died has, with that code; and one that is said to be up has printed the
marker, or was not known to have ended when the report was given.
-/

namespace Wallermax.Manager.Processes

open Wallermax.Base

variable {platform : Platform} {s t : State} {a : Event} {call r : ℕ} {run run' : Run}
  {report : StartReport}

/-- The lines that the process of the run has printed. -/
def State.linesOf (s : State) (r : ℕ) : List Text :=
  (s.printed.filter fun line => line.1 == r).map Prod.snd

/-- The output is made of some of the lines, in their order. -/
def MadeOf (output : Text) (lines : List Text) : Prop :=
  ∃ texts : List Text, texts.Sublist lines ∧ output = texts.foldl keepLine []

structure Reported (s : State) (r : ℕ) (report : StartReport) : Prop where
  process : ∃ run, s.runs[r]? = some run ∧ report.pid = run.pid
  died : report.probe.booted = false → ∃ run info, s.runs[r]? = some run ∧
    run.exit = some info ∧ report.probe.exit_code = info.code
  booted : report.probe.booted = true → report.probe.exit_code = none
  output : MadeOf report.probe.output (s.linesOf r)

/-- The process has printed its marker. -/
def State.Ready (s : State) (r : ℕ) : Prop := ∃ text ∈ s.linesOf r, READY_MARKER <:+: text

/-- The step gives the report, and the process has said that it is up, or is not known to have
ended. -/
def Vouched (platform : Platform) (s : State) (a : Event) (call r : ℕ) (report : StartReport) :
    Prop :=
  ∃ t, step platform s a = some t ∧ t.answered = s.answered ++ [(call, .started r report)] ∧
    (report.probe.booted = true → s.Ready r ∨ ∃ run, s.runs[r]? = some run ∧ run.exit = none)

/-! ## Lines and their buffer -/

theorem MadeOf.mono {output : Text} {lines lines' : List Text} (h : MadeOf output lines)
    (hsub : lines.Sublist lines') : MadeOf output lines' := by
  obtain ⟨texts, htexts, rfl⟩ := h
  exact ⟨texts, htexts.trans hsub, rfl⟩

theorem MadeOf.append {output : Text} {lines more texts : List Text} (h : MadeOf output lines)
    (hsub : texts.Sublist more) : MadeOf (texts.foldl keepLine output) (lines ++ more) := by
  obtain ⟨before, hbefore, rfl⟩ := h
  exact ⟨before ++ texts, hbefore.append hsub, by rw [List.foldl_append]⟩

/-- What is in the buffer behind a number are printed lines behind it. -/
def Run.Buffered (run : Run) (lines : List Text) : Prop :=
  run.logs.written = lines.length ∧
    ∀ cursor, ((run.logs.since LogLine.seq cursor).map LogLine.text).Sublist (lines.drop cursor)

theorem Run.Buffered.push {lines : List Text} (h : run.Buffered lines) (stream : LogStream)
    (text : Text) :
    Run.Buffered { run with logs := run.logs.push stream text }
      (lines ++ [LogBuffer.cut text]) := by
  refine ⟨by simp [LogBuffer.push, RingLog.push, h.1], fun cursor => ?_⟩
  have hpush := @RingLog.since_push_sublist _ LogLine.seq run.logs
    (fun seq => ⟨seq, stream, LogBuffer.cut text⟩) cursor
  by_cases hcursor : cursor ≤ lines.length
  · rw [List.drop_append_of_le_length hcursor]
    refine (hpush.map LogLine.text).trans ?_
    rw [List.map_append]
    exact (h.2 cursor).append (List.Sublist.refl _)
  · have hnone : run.logs.since LogLine.seq cursor = [] := by
      have hold := h.2 cursor
      rw [List.drop_eq_nil_of_le (by omega), List.sublist_nil, List.map_eq_nil_iff] at hold
      exact hold
    have hempty : RingLog.since LogLine.seq (run.logs.push stream text) cursor = [] := by
      rw [List.eq_nil_iff_forall_not_mem]
      intro line hline
      have hseq : cursor ≤ line.seq := by
        simpa using (List.mem_filter.mp hline).2
      rcases RingLog.mem_push (List.mem_filter.mp hline).1 with hold | rfl
      · have hmem : line ∈ run.logs.since LogLine.seq cursor :=
          List.mem_filter.mpr ⟨hold, by simpa using hseq⟩
        rw [hnone] at hmem
        cases hmem
      · have hwritten := h.1
        dsimp only at hseq
        omega
    rw [show LogBuffer.push run.logs stream text = run.logs.push stream text from rfl, hempty]
    exact List.nil_sublist _

theorem Run.Buffered.page {lines : List Text} (h : run.Buffered lines) (cursor limit : ℕ) :
    ((run.logs.page cursor limit).lines.map LogLine.text).Sublist (lines.drop cursor) :=
  ((List.take_sublist limit _).map LogLine.text).trans (h.2 cursor)

theorem Run.Fresh.buffered (h : run.Fresh) : run.Buffered [] := by
  unfold Run.Buffered
  rw [h.logs]
  exact ⟨rfl, fun _ => List.nil_sublist _⟩

/-- The event prints a line of the run it is about, and no other one. -/
theorem lines_of_event (r : ℕ) :
    (a.lines.filter fun line => line.1 == r).map Prod.snd =
      if a.run? = some r then a.lines.map Prod.snd else [] := by
  cases a with
  | prints q stream text =>
      by_cases hq : q = r
      · simp [Event.lines, Event.run?, hq]
      · simp [Event.lines, Event.run?, hq]
  | _ => simp [Event.lines]

/-- The buffer of a run goes along with its lines. -/
theorem onRun_buffered {lines : List Text} (hbuffered : run.Buffered lines)
    (h : onRun run a = some run') : run'.Buffered (lines ++ a.lines.map Prod.snd) := by
  cases a with
  | prints r stream text =>
      cases h
      exact hbuffered.push stream text
  | ends r info | reaps r | records r | waitFails r =>
      simp only [onRun] at h
      split_ifs at h
      cases h
      show Run.Buffered _ (lines ++ [])
      rw [List.append_nil]
      exact hbuffered
  | _ => cases h

theorem linesOf_step (h : step platform s a = some t) (r : ℕ) :
    ∃ more, t.linesOf r = s.linesOf r ++ more := by
  cases step_effect h with
  | touches _ _ _ => exact ⟨_, by unfold State.linesOf; rw [List.filter_append, List.map_append]⟩
  | _ => exact ⟨[], (List.append_nil _).symm⟩

/-! ## The invariant -/

/-- The output of a probe is made of lines in front of its cursor, and a process it takes for
dead is recorded to have ended. -/
def Phase.Fits (s : State) : Phase → Prop
  | .reading r cursor output | .looking r cursor output =>
    cursor ≤ (s.linesOf r).length ∧ MadeOf output ((s.linesOf r).take cursor)
  | .draining r cursor code output =>
    (cursor ≤ (s.linesOf r).length ∧ MadeOf output ((s.linesOf r).take cursor)) ∧
      ∃ run info, s.runs[r]? = some run ∧ run.exit = some info ∧ info.code = code
  | _ => True

structure ReportInv (s : State) : Prop where
  printed : ∀ line ∈ s.printed, line.1 < s.runs.length
  buffered : ∀ (r : ℕ) (run : Run), s.runs[r]? = some run → run.Buffered (s.linesOf r)
  phases : ∀ (call : ℕ) (phase : Phase), s.calls call = some phase → phase.Fits s
  reported : ∀ call r report, (call, Answer.started r report) ∈ s.answered → Reported s r report

theorem reportInv_init : ReportInv .init where
  printed := fun _ h => absurd h List.not_mem_nil
  buffered := fun _ _ h => by cases h
  phases := fun _ _ h => by cases h
  reported := fun _ _ _ h => absurd h List.not_mem_nil

/-- What is known of an end stays known. -/
theorem exit_stays (h : step platform s a = some t) {info : ExitInfo}
    (hexit : ∃ run, s.runs[r]? = some run ∧ run.exit = some info) :
    ∃ run, t.runs[r]? = some run ∧ run.exit = some info := by
  obtain ⟨run, hrun, hinfo⟩ := hexit
  obtain ⟨later, hlater, hstays⟩ := run_later h hrun
  exact ⟨later, hlater, hstays.exit info hinfo⟩

theorem front_stays (h : step platform s a = some t) {cursor : ℕ} {output : Text}
    (hfits : cursor ≤ (s.linesOf r).length ∧ MadeOf output ((s.linesOf r).take cursor)) :
    cursor ≤ (t.linesOf r).length ∧ MadeOf output ((t.linesOf r).take cursor) := by
  obtain ⟨more, hmore⟩ := linesOf_step h r
  rw [hmore, List.take_append_of_le_length hfits.1, List.length_append]
  exact ⟨by omega, hfits.2⟩

theorem Phase.Fits.stays (h : step platform s a = some t) {phase : Phase} (hfits : phase.Fits s) :
    phase.Fits t := by
  cases phase with
  | reading r cursor output | looking r cursor output => exact front_stays h hfits
  | draining r cursor code output =>
      obtain ⟨hfront, run, info, hrun, hexit, hcode⟩ := hfits
      obtain ⟨later, hlater, hinfo⟩ := exit_stays h ⟨run, hrun, hexit⟩
      exact ⟨front_stays h hfront, later, info, hlater, hinfo, hcode⟩
  | _ => exact trivial

theorem Reported.stays (h : step platform s a = some t) (hreported : Reported s r report) :
    Reported t r report where
  process := by
    obtain ⟨run, hrun, hpid⟩ := hreported.process
    obtain ⟨later, hlater, hstays⟩ := run_later h hrun
    exact ⟨later, hlater, hpid.trans hstays.pid.symm⟩
  died := by
    intro hdied
    obtain ⟨run, info, hrun, hexit, hcode⟩ := hreported.died hdied
    obtain ⟨later, hlater, hinfo⟩ := exit_stays h ⟨run, hrun, hexit⟩
    exact ⟨later, info, hlater, hinfo, hcode⟩
  booted := hreported.booted
  output := by
    obtain ⟨more, hmore⟩ := linesOf_step h r
    rw [hmore]
    exact hreported.output.mono (List.sublist_append_left _ more)

/-- The page behind the cursor goes on with the output. -/
theorem MadeOf.page {output : Text} {lines : List Text} {cursor : ℕ} (hbuffered : run.Buffered lines)
    (hmade : MadeOf output (lines.take cursor)) {texts : List Text}
    (htexts : texts.Sublist ((run.logs.page cursor probePage).lines.map LogLine.text)) :
    MadeOf (texts.foldl keepLine output) lines := by
  have hall := hmade.append (htexts.trans (hbuffered.page cursor probePage))
  rwa [List.take_append_drop] at hall

/-- What a call goes on with fits what it has read. -/
theorem Moves.fits (hI : ReportInv s) {phase next : Phase} (hfits : phase.Fits s)
    (hrun : s.runs[phase.run]? = some run) (h : Moves run phase next) : next.Fits s := by
  cases h with
  | read r cursor output =>
      have hbuffered := hI.buffered r run hrun
      have hwritten : max (run.logs.page cursor probePage).next_seq cursor =
          (s.linesOf r).length := by
        rw [← hbuffered.1]
        exact max_eq_left (hfits.1.trans_eq hbuffered.1.symm)
      refine ⟨le_of_eq hwritten, ?_⟩
      rw [hwritten, List.take_length]
      exact MadeOf.page hbuffered hfits.2 (List.Sublist.refl _)
  | died r cursor output hexit => exact ⟨hfits, run, _, hrun, hexit, rfl⟩
  | again r cursor output => exact hfits
  | waits r last | kills r => exact trivial

/-- What a call says of its process. -/
theorem Ends.reported (hI : ReportInv s) {phase : Phase} (hfits : phase.Fits s)
    (hrun : s.runs[phase.run]? = some run) (h : Ends run phase (.started r report)) :
    Reported s r report := by
  cases h with
  | ready _ cursor output hpage hready =>
      exact
        { process := ⟨run, hrun, rfl⟩
          died := fun hdied => absurd hdied.symm Bool.false_ne_true
          booted := fun _ => rfl
          output := MadeOf.page (hI.buffered r run hrun) hfits.2 hpage.sublist }
  | window _ cursor output hexit =>
      exact
        { process := ⟨run, hrun, rfl⟩
          died := fun hdied => absurd hdied.symm Bool.false_ne_true
          booted := fun _ => rfl
          output := hfits.2.mono (List.take_sublist _ _) }
  | died _ cursor code output =>
      obtain ⟨hfront, found, info, hfound, hexit, hcode⟩ := hfits
      exact
        { process := ⟨run, hrun, rfl⟩
          died := fun _ => ⟨found, info, hfound, hexit, hcode.symm⟩
          booted := fun hbooted => absurd hbooted Bool.false_ne_true
          output := MadeOf.page (hI.buffered r run hrun) hfront.2 (List.Sublist.refl _) }

/-- **One step of the probes.** -/
theorem ReportInv.step (hI : ReportInv s) (h : step platform s a = some t) : ReportInv t where
  printed := by
    have hlength := length_runs h
    cases step_effect h with
    | @touches q run run' hq hrun hon =>
        intro line hline
        rcases List.mem_append.mp hline with hold | hnew
        · exact Nat.lt_of_lt_of_le (hI.printed line hold) hlength
        · have hlt := (List.getElem?_eq_some_iff.mp hrun).1
          cases a with
          | prints r stream text =>
              obtain rfl := Option.some.inj hq
              obtain rfl := List.mem_singleton.mp hnew
              exact Nat.lt_of_lt_of_le hlt hlength
          | _ => cases hnew
    | _ => exact fun line hline => Nat.lt_of_lt_of_le (hI.printed line hline) hlength
  buffered := by
    intro r run' hrun'
    cases step_effect h with
    | @touches q run next hq hrun hon =>
        have hlines : (s.printed ++ a.lines |>.filter fun line => line.1 == r).map Prod.snd =
            s.linesOf r ++ if q = r then a.lines.map Prod.snd else [] := by
          rw [List.filter_append, List.map_append, lines_of_event, hq]
          simp [State.linesOf]
        unfold State.linesOf
        rw [hlines]
        simp only [State.modifyRun] at hrun'
        by_cases hr : q = r
        · subst hr
          rw [List.getElem?_modify_eq, hrun] at hrun'
          obtain rfl := Option.some.inj hrun'
          rw [if_pos rfl]
          exact onRun_buffered (hI.buffered q run hrun) hon
        · rw [List.getElem?_modify_ne _ _ hr] at hrun'
          rw [if_neg hr, List.append_nil]
          exact hI.buffered r run' hrun'
    | starts ha _ _ =>
        rcases runs_of_step h hrun' with ⟨run, hrun, rfl | ⟨hr, -⟩⟩ | ⟨rfl, -, -, hfresh, -⟩
        · exact hI.buffered r run' hrun
        · rw [ha] at hr
          cases hr
        · have hnone : s.linesOf s.runs.length = [] := by
            unfold State.linesOf
            rw [List.filter_eq_nil_iff.mpr, List.map_nil]
            intro line hline heq
            exact absurd (hI.printed line hline) (by simp at heq; omega)
          exact hnone ▸ hfresh.buffered
    | _ => exact hI.buffered r run' hrun'
  phases := by
    intro call next hnext
    cases step_effect h with
    | answers c _ => exact (hI.phases call next (State.calls_answer hnext)).stays h
    | @moves c phase after run hphase hrun hmoves =>
        rcases State.calls_go hnext with hold | rfl
        · exact (hI.phases call next hold).stays h
        · exact (hmoves.fits hI (hI.phases c phase hphase) hrun).stays h
    | @sends c phase after run signal hphase hrun hsent =>
        rcases State.calls_go hnext with hold | rfl
        · exact (hI.phases call next hold).stays h
        · cases hsent <;> exact trivial
    | stops c hfound hopen =>
        rcases State.calls_go hnext with hold | rfl
        · exact (hI.phases call next hold).stays h
        · exact trivial
    | starts _ _ _ =>
        rcases State.calls_go hnext with hold | rfl
        · exact (hI.phases call next hold).stays h
        · exact ⟨Nat.zero_le _, [], List.nil_sublist _, rfl⟩
    | touches _ _ _ | elsewhere _ _ => exact (hI.phases call next hnext).stays h
  reported := by
    intro call r report hmem
    cases step_effect h with
    | answers c htells =>
        rcases List.mem_append.mp hmem with hold | hnew
        · exact (hI.reported call r report hold).stays h
        · obtain ⟨-, rfl⟩ := Prod.mk.inj (List.mem_singleton.mp hnew)
          cases htells with
          | @ends c' phase run _ hphase hrun hends =>
              exact (hends.reported hI (hI.phases c' phase hphase) hrun).stays h
    | _ => exact (hI.reported call r report hmem).stays h

/-! ## The report -/

/-- An answer that a process is up is given with the marker printed, or with no end known. -/
theorem vouched_of_step (hI : ReportInv s) (h : step platform s a = some t)
    (hmem : (call, Answer.started r report) ∈ t.answered) :
    (call, Answer.started r report) ∈ s.answered ∨ Vouched platform s a call r report := by
  have hgiven := h
  cases step_effect h with
  | answers c htells =>
      rcases List.mem_append.mp hmem with hold | hnew
      · exact .inl hold
      · obtain ⟨rfl, rfl⟩ := Prod.mk.inj (List.mem_singleton.mp hnew)
        refine .inr ⟨_, hgiven, rfl, fun hbooted => ?_⟩
        cases htells with
        | @ends c phase run _ hphase hrun hends =>
            cases hends with
            | ready _ cursor output hpage hready =>
                obtain ⟨text, htext, hmarked⟩ := hready
                have hpages := (hI.buffered r run hrun).page cursor probePage
                exact .inl ⟨text, List.mem_of_mem_drop (hpages.subset (hpage.subset htext)),
                  hmarked⟩
            | window _ cursor output hexit => exact .inr ⟨run, hrun, hexit⟩
            | died _ cursor code output => cases hbooted
  | _ => exact .inl hmem

/-- A server prints its marker and is told to be up. -/
def bootEvents : List Event :=
  [.start 0 ⟨"server", [], "/srv"⟩ true (.ok 7) 0, .prints 0 .out READY_MARKER,
    .advance 0 false (.ok ())]

def bootReport : StartReport := ⟨7, ⟨true, none, READY_MARKER ++ ['\n']⟩⟩

end Wallermax.Manager.Processes
