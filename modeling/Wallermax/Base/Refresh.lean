import Mathlib.Logic.Function.Basic
import Wallermax.Base.Runs

/-!
# Write, then refresh a copy

Several parties write to a store and then bring a copy of it up to date: read
the store, install what was read. Nothing orders one party's install after
another's, so an old read may replace a newer one. The ledger counts the
writes (`version`) and remembers how many writes the installed read had seen
(`installed`).

The result is `current_of_settled`: when no install replaces a newer read, the
copy is current as soon as nobody owes a refresh.
-/

namespace Wallermax.Base

/-- What a party owes the copy. A party that was lost never pays. -/
inductive Stage : Type where
  | quiet
  | owed
  | reading (began : ℕ)
  | lost
deriving DecidableEq

/-- A party that will make the copy current, or never finishes. -/
def Stage.Outstanding (stage : Stage) (version : ℕ) : Prop :=
  match stage with
  | .quiet => False
  | .owed => True
  | .reading began => began = version
  | .lost => True

structure Ledger (ι : Type*) where
  version : ℕ
  installed : ℕ
  stage : ι → Stage

inductive LedgerEvent (ι : Type*) where
  | write (i : ι)
  | begin (i : ι)
  | install (i : ι)
  | lose (i : ι)

namespace Ledger

variable {ι : Type*} [DecidableEq ι]

def move (s : Ledger ι) (i : ι) (next : Stage) : Ledger ι :=
  { s with
    stage := Function.update s.stage i next }

def step (s : Ledger ι) : LedgerEvent ι → Option (Ledger ι)
  | .write i =>
      match s.stage i with
      | .quiet => some { s.move i .owed with version := s.version + 1 }
      | _ => none
  | .begin i =>
      match s.stage i with
      | .owed => some (s.move i (.reading s.version))
      | _ => none
  | .install i =>
      match s.stage i with
      | .reading began => some { s.move i .quiet with installed := began }
      | _ => none
  | .lose i => some (s.move i .lost)

/-- The event installs no read older than the installed one. -/
def Ordered (s : Ledger ι) : LedgerEvent ι → Prop
  | .install i => ∀ began, s.stage i = .reading began → s.installed ≤ began
  | _ => True

/-- Nobody owes a refresh, and nobody was lost. -/
def Settled (s : Ledger ι) : Prop := ∀ i, s.stage i = .quiet

structure Sound (s : Ledger ι) : Prop where
  began_le : ∀ i began, s.stage i = .reading began → began ≤ s.version
  installed_le : s.installed ≤ s.version
  /-- Somebody still accounts for the last write. -/
  accounted : s.installed = s.version ∨ ∃ i, (s.stage i).Outstanding s.version

theorem stage_move_self (s : Ledger ι) (i : ι) (next : Stage) :
    (s.move i next).stage i = next := by
  simp [move]

theorem stage_move_of_ne (s : Ledger ι) {i j : ι} (next : Stage) (h : j ≠ i) :
    (s.move i next).stage j = s.stage j := by
  simp [move, h]

theorem stage_move_reading {s : Ledger ι} {i j : ι} {next : Stage} {began : ℕ}
    (h : (s.move i next).stage j = .reading began) :
    next = .reading began ∨ s.stage j = .reading began := by
  by_cases hj : j = i
  · subst hj
    exact .inl (by rwa [stage_move_self] at h)
  · exact .inr (by rwa [stage_move_of_ne s next hj] at h)

/-- Moving a party to a stage that is still outstanding keeps the account. -/
theorem accounted_move {s : Ledger ι} {i : ι} {next : Stage}
    (h : s.installed = s.version ∨ ∃ i, (s.stage i).Outstanding s.version)
    (hnext : (s.stage i).Outstanding s.version → next.Outstanding s.version) :
    s.installed = s.version ∨ ∃ j, ((s.move i next).stage j).Outstanding s.version := by
  refine h.imp_right ?_
  rintro ⟨j, hj⟩
  by_cases hji : j = i
  · subst hji
    exact ⟨j, by rw [stage_move_self]; exact hnext hj⟩
  · exact ⟨j, by rw [stage_move_of_ne s next hji]; exact hj⟩

/-- **The step lemma.** -/
theorem Sound.step {s t : Ledger ι} {e : LedgerEvent ι} (h : s.Sound)
    (ho : s.Ordered e) (hs : s.step e = some t) : t.Sound := by
  cases e with
  | write i =>
      simp only [Ledger.step] at hs
      split at hs
      · cases hs
        constructor
        · intro j began hj
          rcases stage_move_reading hj with hnext | hold
          · cases hnext
          · exact Nat.le_succ_of_le (h.began_le j began hold)
        · exact Nat.le_succ_of_le h.installed_le
        · exact .inr ⟨i, by rw [show _ = Stage.owed from stage_move_self s i _]; trivial⟩
      · cases hs
  | begin i =>
      simp only [Ledger.step] at hs
      split at hs
      · cases hs
        constructor
        · intro j began hj
          rcases stage_move_reading hj with hnext | hold
          · cases hnext
            exact Nat.le_refl _
          · exact h.began_le j began hold
        · exact h.installed_le
        · exact accounted_move h.accounted fun _ => rfl
      · cases hs
  | install i =>
      simp only [Ledger.step] at hs
      split at hs
      · rename_i began hi
        cases hs
        have hle : s.installed ≤ began := ho began hi
        have hbegan := h.began_le i began hi
        constructor
        · intro j b hj
          rcases stage_move_reading hj with hnext | hold
          · cases hnext
          · exact h.began_le j b hold
        · exact hbegan
        · show began = s.version ∨
            ∃ j, ((s.move i .quiet).stage j).Outstanding s.version
          by_cases hcur : began = s.version
          · exact .inl hcur
          · -- the installed read was older too, so another party accounts
            have hquiet : (s.stage i).Outstanding s.version →
                Stage.quiet.Outstanding s.version := by
              intro hout
              rw [hi] at hout
              exact hcur hout
            exact .inr ((accounted_move h.accounted hquiet).resolve_left (by omega))
      · cases hs
  | lose i =>
      cases hs
      constructor
      · intro j began hj
        rcases stage_move_reading hj with hnext | hold
        · cases hnext
        · exact h.began_le j began hold
      · exact h.installed_le
      · exact accounted_move h.accounted fun _ => trivial

omit [DecidableEq ι] in
/-- **A settled copy is current.** -/
theorem Sound.current_of_settled {s : Ledger ι} (h : s.Sound) (hs : s.Settled) :
    s.installed = s.version := by
  rcases h.accounted with heq | ⟨i, hi⟩
  · exact heq
  · rw [hs i] at hi
    exact hi.elim

end Ledger

end Wallermax.Base
