import Mathlib.Data.List.Nodup
import Wallermax.Manager.Logs

/-!
# When a poller misses no line

What was received and what is owed are, one after the other, a sublist of what was
pushed: every step keeps that, so no line comes twice or out of order. A line is missed
exactly at a page that is cut, and at a line numbered below the cursor.
-/

namespace Wallermax.Manager

open Wallermax.Base

structure LogInv (s : LogState) : Prop where
  written : ∀ managed ∈ s.slot, RingLog.Written LogLine.seq managed.logs
  capacity : ∀ managed ∈ s.slot, managed.logs.capacity = logCapacity
  started : ∀ managed ∈ s.slot, managed.run < s.runs
  pushed_run : ∀ line ∈ s.pushed, line.1 < s.runs
  /-- the next line of the slot's run was not pushed before -/
  pushed_seq : ∀ line ∈ s.pushed, ∀ managed ∈ s.slot, line.1 = managed.run →
    line.2.seq < managed.logs.written
  pushed_nodup : s.pushed.Nodup
  sublist : (s.received ++ owed s).Sublist s.pushed

theorem logInv_init : LogInv .init where
  written := fun _ h => absurd h (Option.some_ne_none _).symm
  capacity := fun _ h => absurd h (Option.some_ne_none _).symm
  started := fun _ h => absurd h (Option.some_ne_none _).symm
  pushed_run := fun _ h => absurd h List.not_mem_nil
  pushed_seq := fun _ h => absurd h List.not_mem_nil
  pushed_nodup := List.nodup_nil
  sublist := List.Sublist.refl _

/-- Only a gap can be wrong. -/
theorem LogInv.delivered_iff {s : LogState} (hI : LogInv s) :
    Delivered s ↔ ∀ line ∈ kept s, line ∈ s.received ∨ line ∈ owed s := by
  have hsub : s.received.Sublist s.pushed :=
    (List.sublist_append_left s.received (owed s)).trans hI.sublist
  exact ⟨Delivered.noGap, fun h => ⟨hsub, hsub.nodup hI.pushed_nodup, h⟩⟩

theorem mem_kept_of_owed {s : LogState} {line : ℕ × LogLine} (h : line ∈ owed s) :
    line ∈ kept s := by
  unfold owed at h
  unfold kept
  cases hslot : s.slot with
  | none =>
      rw [hslot] at h
      exact h
  | some managed =>
      rw [hslot] at h
      exact (List.filter_sublist.map _).subset h

/-! ## Start and exit -/

theorem LogState.start_cases (s : LogState) :
    s.start = s ∨ s.start =
      { s with
        slot := some ⟨s.runs, true, LogBuffer.withCapacity logCapacity⟩
        runs := s.runs + 1 } := by
  unfold LogState.start
  split
  · exact Or.inl rfl
  · exact Or.inr rfl

theorem LogInv.start {s : LogState} (hI : LogInv s) : LogInv s.start := by
  rcases s.start_cases with h | h
  · rw [h]
    exact hI
  · rw [h]
    exact
      { written := fun _ hm => by
          obtain rfl := Option.some_inj.mp hm
          exact RingLog.written_empty logCapacity
        capacity := fun _ hm => by
          obtain rfl := Option.some_inj.mp hm
          rfl
        started := fun _ hm => by
          obtain rfl := Option.some_inj.mp hm
          exact Nat.lt_succ_self _
        pushed_run := fun line hline => Nat.lt_succ_of_lt (hI.pushed_run line hline)
        pushed_seq := fun line hline _ hm hrun => by
          -- the run is new
          obtain rfl := Option.some_inj.mp hm
          exact absurd hrun (Nat.ne_of_lt (hI.pushed_run line hline))
        pushed_nodup := hI.pushed_nodup
        sublist := by
          show (s.received ++ []).Sublist s.pushed
          rw [List.append_nil]
          exact (List.sublist_append_left s.received (owed s)).trans hI.sublist }

theorem Delivered.start {s : LogState} (hI : LogInv s) (hD : Delivered s) :
    Delivered s.start := by
  rw [hI.start.delivered_iff]
  rcases s.start_cases with h | h
  · rw [h]
    exact hD.noGap
  · rw [h]
    exact fun line hline => absurd hline List.not_mem_nil

theorem LogState.owed_exit (s : LogState) : owed s.exit = owed s := by
  unfold owed LogState.exit
  cases s.slot <;> rfl

theorem LogState.kept_exit (s : LogState) : kept s.exit = kept s := by
  unfold kept LogState.exit
  cases s.slot <;> rfl

/-- The reaper changes nothing that the lines depend on. -/
theorem LogState.mem_slot_exit {s : LogState} {managed : Managed} (h : managed ∈ s.exit.slot) :
    ∃ before ∈ s.slot, before.run = managed.run ∧ before.logs = managed.logs := by
  obtain ⟨before, hbefore, rfl⟩ := Option.map_eq_some_iff.mp h
  exact ⟨before, hbefore, rfl, rfl⟩

theorem LogInv.exit {s : LogState} (hI : LogInv s) : LogInv s.exit where
  written := fun managed h => by
    obtain ⟨before, hbefore, -, hlogs⟩ := LogState.mem_slot_exit h
    rw [← hlogs]
    exact hI.written before hbefore
  capacity := fun managed h => by
    obtain ⟨before, hbefore, -, hlogs⟩ := LogState.mem_slot_exit h
    rw [← hlogs]
    exact hI.capacity before hbefore
  started := fun managed h => by
    obtain ⟨before, hbefore, hrun, -⟩ := LogState.mem_slot_exit h
    rw [← hrun]
    exact hI.started before hbefore
  pushed_run := hI.pushed_run
  pushed_seq := fun line hline managed h hsame => by
    obtain ⟨before, hbefore, hrun, hlogs⟩ := LogState.mem_slot_exit h
    rw [← hlogs]
    exact hI.pushed_seq line hline before hbefore (hsame.trans hrun.symm)
  pushed_nodup := hI.pushed_nodup
  sublist := by
    rw [LogState.owed_exit]
    exact hI.sublist

theorem Delivered.exit {s : LogState} (hD : Delivered s) : Delivered s.exit where
  inOrder := hD.inOrder
  once := hD.once
  noGap := by
    rw [LogState.owed_exit, LogState.kept_exit]
    exact hD.noGap

/-! ## A page -/

theorem LogState.poll_received (s : LogState) (limit : ℕ) :
    (s.poll limit).received = s.received ++ (owed s).take limit := by
  unfold LogState.poll LogState.logs owed
  cases s.slot with
  | none => simp
  | some managed => simp [LogBuffer.page, List.map_take]

theorem LogInv.owed_poll {s : LogState} (hI : LogInv s) (limit : ℕ) :
    owed (s.poll limit) = [] := by
  have hpolled : (s.poll limit).slot = s.slot := rfl
  unfold owed
  rw [hpolled]
  cases hslot : s.slot with
  | none => rfl
  | some managed =>
      have hcursor : (s.poll limit).cursor = managed.logs.written := by
        unfold LogState.poll LogState.logs
        rw [hslot]
        rfl
      rw [hcursor]
      show (managed.logs.since LogLine.seq managed.logs.written).map _ = []
      rw [(hI.written managed hslot).since_written, List.map_nil]

theorem LogInv.poll {s : LogState} (hI : LogInv s) (limit : ℕ) : LogInv (s.poll limit) where
  written := hI.written
  capacity := hI.capacity
  started := hI.started
  pushed_run := hI.pushed_run
  pushed_seq := hI.pushed_seq
  pushed_nodup := hI.pushed_nodup
  sublist := by
    rw [hI.owed_poll, List.append_nil, LogState.poll_received]
    exact (List.Sublist.append (List.Sublist.refl _) (List.take_sublist _ _)).trans hI.sublist

/-- **A page misses what it cut off.** -/
theorem delivered_poll_iff {s : LogState} (hI : LogInv s) (hD : Delivered s) (limit : ℕ) :
    Delivered (s.poll limit) ↔ (owed s).length ≤ limit := by
  have hnodup : (s.received ++ owed s).Nodup := hI.sublist.nodup hI.pushed_nodup
  rw [(hI.poll limit).delivered_iff, hI.owed_poll, LogState.poll_received]
  constructor
  · intro h
    by_contra hlong
    have hlt : limit < (owed s).length := Nat.lt_of_not_le hlong
    -- the first line behind the cut is not among the ones before it
    have hcut : (owed s)[limit] ∈ (owed s).drop limit := by
      rw [List.drop_eq_getElem_cons hlt]
      exact List.mem_cons_self
    have hkept : (owed s)[limit] ∈ kept s := mem_kept_of_owed (List.getElem_mem hlt)
    rw [← List.take_append_drop limit (owed s), ← List.append_assoc] at hnodup
    rcases h _ hkept with hmem | hmem
    · exact List.disjoint_of_nodup_append hnodup hmem hcut
    · exact List.not_mem_nil hmem
  · intro hshort line hline
    rw [List.take_of_length_le hshort]
    exact Or.inl (List.mem_append.mpr (hD.noGap line hline))

/-! ## A line -/

/-- The line as it stands in the buffer it goes into. -/
def newLine (managed : Managed) (stream : LogStream) (text : Text) : ℕ × LogLine :=
  (managed.run, ⟨managed.logs.written, stream, LogBuffer.cut text⟩)

/-- A line of a run that is not in the slot any more goes where nobody reads. -/
theorem LogState.push_cases (s : LogState) (run : ℕ) (stream : LogStream) (text : Text) :
    (s.push run stream text = s ∧ ∀ managed ∈ s.slot, managed.run ≠ run) ∨
      ∃ managed, s.slot = some managed ∧ managed.run = run ∧ s.push run stream text =
        { s with
          slot := some { managed with logs := managed.logs.push stream text }
          pushed := s.pushed ++ [newLine managed stream text] } := by
  unfold LogState.push newLine
  cases hslot : s.slot with
  | none => exact Or.inl ⟨rfl, fun _ h => absurd h (Option.some_ne_none _).symm⟩
  | some managed =>
      by_cases hrun : managed.run = run
      · subst hrun
        exact Or.inr ⟨managed, rfl, rfl, if_pos rfl⟩
      · refine Or.inl ⟨by simp only [if_neg hrun], fun m hm => ?_⟩
        obtain rfl := Option.some_inj.mp hm
        exact hrun

theorem LogInv.newLine_not_mem {s : LogState} (hI : LogInv s) {managed : Managed}
    (hslot : s.slot = some managed) (stream : LogStream) (text : Text) :
    newLine managed stream text ∉ s.pushed := fun hmem =>
  Nat.lt_irrefl _ (hI.pushed_seq _ hmem managed hslot rfl)

theorem owed_push_sublist {s : LogState} {managed : Managed} (hslot : s.slot = some managed)
    (stream : LogStream) (text : Text) (pushed : List (ℕ × LogLine)) :
    (owed { s with
      slot := some { managed with logs := managed.logs.push stream text }
      pushed := pushed }).Sublist (owed s ++ [newLine managed stream text]) := by
  have h := (@RingLog.since_push_sublist _ LogLine.seq managed.logs
    (fun seq => ⟨seq, stream, LogBuffer.cut text⟩) s.cursor).map fun line => (managed.run, line)
  rw [List.map_append] at h
  unfold owed
  rw [hslot]
  exact h

theorem LogInv.push {s : LogState} (hI : LogInv s) (run : ℕ) (stream : LogStream) (text : Text) :
    LogInv (s.push run stream text) := by
  rcases s.push_cases run stream text with ⟨h, -⟩ | ⟨managed, hslot, -, h⟩
  · rw [h]
    exact hI
  · rw [h]
    exact
      { written := fun _ hm => by
          obtain rfl := Option.some_inj.mp hm
          exact (hI.written managed hslot).push fun _ => rfl
        capacity := fun _ hm => by
          obtain rfl := Option.some_inj.mp hm
          exact hI.capacity managed hslot
        started := fun _ hm => by
          obtain rfl := Option.some_inj.mp hm
          exact hI.started managed hslot
        pushed_run := fun line hline => by
          rcases List.mem_append.mp hline with hold | hnew
          · exact hI.pushed_run line hold
          · obtain rfl := List.mem_singleton.mp hnew
            exact hI.started managed hslot
        pushed_seq := fun line hline _ hm hrun => by
          obtain rfl := Option.some_inj.mp hm
          show line.2.seq < managed.logs.written + 1
          rcases List.mem_append.mp hline with hold | hnew
          · exact Nat.lt_succ_of_lt (hI.pushed_seq line hold managed hslot hrun)
          · obtain rfl := List.mem_singleton.mp hnew
            exact Nat.lt_succ_self _
        pushed_nodup := by
          refine List.nodup_append.mpr ⟨hI.pushed_nodup, List.nodup_singleton _, ?_⟩
          intro line hline new hnew heq
          obtain rfl := List.mem_singleton.mp hnew
          exact hI.newLine_not_mem hslot stream text (heq ▸ hline)
        sublist := by
          have howed := owed_push_sublist hslot stream text
            (s.pushed ++ [newLine managed stream text])
          have hlonger := List.Sublist.append (List.Sublist.refl s.received) howed
          rw [← List.append_assoc] at hlonger
          exact hlonger.trans (List.Sublist.append hI.sublist (List.Sublist.refl _)) }

/-- **A line is missed that is numbered below the cursor.** -/
theorem delivered_push_iff {s : LogState} (hI : LogInv s) (hD : Delivered s) (run : ℕ)
    (stream : LogStream) (text : Text) :
    Delivered (s.push run stream text) ↔
      ∀ managed ∈ s.slot, managed.run = run → s.cursor ≤ managed.logs.written := by
  rw [(hI.push run stream text).delivered_iff]
  rcases s.push_cases run stream text with ⟨h, hother⟩ | ⟨managed, hslot, hrun, h⟩
  · rw [h]
    exact iff_of_true hD.noGap fun m hm hsame => absurd hsame (hother m hm)
  · have hkept : kept (s.push run stream text) =
        (managed.logs.push stream text).lines.map fun line => (managed.run, line) := by
      rw [h]
      rfl
    have howed : owed (s.push run stream text) =
        ((managed.logs.push stream text).lines.filter fun line => s.cursor ≤ line.seq).map
          fun line => (managed.run, line) := by
      rw [h]
      rfl
    have hreceived : (s.push run stream text).received = s.received := by rw [h]
    rw [hkept, howed, hreceived]
    constructor
    · intro hgap m hm _
      obtain rfl : managed = m := Option.some_inj.mp (hslot.symm.trans hm)
      have hcap : 0 < managed.logs.capacity := by
        rw [hI.capacity managed hslot]
        decide
      have hlast := RingLog.last_mem_push hcap fun seq => ⟨seq, stream, LogBuffer.cut text⟩
      rcases hgap _ (List.mem_map_of_mem hlast) with hmem | hmem
      · exact absurd (hD.inOrder.subset hmem) (hI.newLine_not_mem hslot stream text)
      · obtain ⟨line, hline, heq⟩ := List.mem_map.mp hmem
        have hseq := of_decide_eq_true (List.mem_filter.mp hline).2
        rw [(Prod.mk.inj heq).2] at hseq
        exact hseq
    · intro hcursor pair hpair
      obtain ⟨line, hline, rfl⟩ := List.mem_map.mp hpair
      rcases RingLog.mem_push hline with hold | hnew
      · have hkeptOld : (managed.run, line) ∈ kept s := by
          unfold kept
          rw [hslot]
          exact List.mem_map_of_mem hold
        refine (hD.noGap _ hkeptOld).imp_right fun howedOld => ?_
        unfold owed at howedOld
        rw [hslot] at howedOld
        obtain ⟨line', hline', heq⟩ := List.mem_map.mp howedOld
        rw [(Prod.mk.inj heq).2] at hline'
        exact List.mem_map_of_mem (List.mem_filter.mpr ⟨hline, (List.mem_filter.mp hline').2⟩)
      · refine Or.inr (List.mem_map_of_mem (List.mem_filter.mpr ⟨hline, ?_⟩))
        rw [hnew]
        exact decide_eq_true (hcursor managed hslot hrun)

/-! ## Runs -/

theorem LogInv.step {s t : LogState} {e : LogEvent} (hI : LogInv s) (h : logStep s e = some t) :
    LogInv t := by
  cases e with
  | start =>
      cases h
      exact hI.start
  | exit =>
      cases h
      exact hI.exit
  | push run stream text =>
      cases h
      exact hI.push run stream text
  | poll limit =>
      cases h
      exact hI.poll limit

theorem delivered_step_iff {s t : LogState} {e : LogEvent} (hI : LogInv s) (hD : Delivered s)
    (h : logStep s e = some t) : Delivered t ↔ Unskipped s e := by
  cases e with
  | start =>
      cases h
      exact iff_of_true (hD.start hI) trivial
  | exit =>
      cases h
      exact iff_of_true hD.exit trivial
  | push run stream text =>
      cases h
      exact delivered_push_iff hI hD run stream text
  | poll limit =>
      cases h
      exact delivered_poll_iff hI hD limit

theorem delivered_init : Delivered .init where
  inOrder := List.Sublist.refl _
  once := List.nodup_nil
  noGap := fun _ h => absurd h List.not_mem_nil

/-- **The poller gets every line once and in order, and misses none that is still there,
exactly in the runs without a cut page and without a line numbered below its cursor.** -/
theorem paging_delivers_iff (events : List LogEvent) :
    Throughout logStep Delivered .init events ↔ EachStep logStep Unskipped .init events :=
  throughout_iff_eachStep logStep (I := LogInv) (fun _ _ _ hI _ h => hI.step h)
    (fun _ _ _ hI hD h => delivered_step_iff hI hD h) logInv_init delivered_init

/-- Two lines and a page of one: the second is behind the cursor and was never returned.
And a run of its own, whose only line has the number the cursor is past. -/
theorem paging_skips :
    (∃ s, run logStep .init
        [.start, .push 0 .out "a".toList, .push 0 .out "b".toList, .poll 1] = some s ∧
      ¬Delivered s) ∧
    ∃ s, run logStep .init
        [.start, .push 0 .out "a".toList, .poll 400, .exit, .start, .push 1 .out "b".toList,
          .poll 400] = some s ∧ ¬Delivered s := by
  refine ⟨⟨_, rfl, fun h => ?_⟩, _, rfl, fun h => ?_⟩
  · exact absurd h.noGap (by decide)
  · exact absurd h.noGap (by decide)

end Wallermax.Manager
