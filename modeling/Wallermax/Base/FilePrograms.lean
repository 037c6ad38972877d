import Mathlib.Data.List.Basic
import Mathlib.Tactic.Common

/-!
# Programs over files that change under them

A file answers a `stat` with its stamp and a `read` with its text. A program asks
one file at a time, and the files may be edited between two questions. Run
without interruption it is evaluated over one state of the files; run among edits
it leaves a log of what it was told.

The rule is stat before read: a text read behind a stamp of the same file is the
file's text for as long as the file has that stamp, provided that no edit gives a
file a stamp it had before.
-/

namespace Wallermax.Base

/-! ## Files and their edits -/

structure FileState (σ τ : Type) : Type where
  stamp : σ
  text : τ

abbrev Files (ρ σ τ : Type) : Type := ρ → FileState σ τ

/-- The files as they are, and as they were before each edit. -/
structure Watched (ρ σ τ : Type) : Type where
  current : Files ρ σ τ
  past : List (Files ρ σ τ)

namespace Watched

variable {ρ σ τ : Type}

/-- A stamp the file has or had. -/
def Seen (w : Watched ρ σ τ) (p : ρ) (s : σ) : Prop :=
  ∃ files ∈ w.current :: w.past, (files p).stamp = s

instance [DecidableEq σ] (w : Watched ρ σ τ) (p : ρ) (s : σ) : Decidable (w.Seen p s) :=
  inferInstanceAs (Decidable (∃ files ∈ w.current :: w.past, (files p).stamp = s))

/-- Several files at once: two paths may name one file. -/
def edit [DecidableEq ρ] (w : Watched ρ σ τ) (changes : List (ρ × FileState σ τ)) :
    Watched ρ σ τ where
  current := fun p => (changes.lookup p).getD (w.current p)
  past := w.current :: w.past

/-- No file gets a stamp back. -/
def Fresh (w : Watched ρ σ τ) (changes : List (ρ × FileState σ τ)) : Prop :=
  ∀ change ∈ changes, ¬ w.Seen change.1 change.2.stamp

instance [DecidableEq σ] (w : Watched ρ σ τ) (changes : List (ρ × FileState σ τ)) :
    Decidable (w.Fresh changes) :=
  inferInstanceAs (Decidable (∀ change ∈ changes, ¬ w.Seen change.1 change.2.stamp))

theorem seen_current (w : Watched ρ σ τ) (p : ρ) : w.Seen p (w.current p).stamp :=
  ⟨w.current, List.mem_cons_self .., rfl⟩

theorem Seen.edit [DecidableEq ρ] {w : Watched ρ σ τ} {p : ρ} {s : σ} (h : w.Seen p s)
    (changes : List (ρ × FileState σ τ)) : (w.edit changes).Seen p s := by
  obtain ⟨files, hmem, hs⟩ := h
  exact ⟨files, List.mem_cons_of_mem _ hmem, hs⟩

/-- **An edit leaves a file alone or gives it a new stamp.** -/
theorem Fresh.current_edit [DecidableEq ρ] {w : Watched ρ σ τ}
    {changes : List (ρ × FileState σ τ)} (h : w.Fresh changes) (p : ρ) :
    (w.edit changes).current p = w.current p ∨
      ¬ w.Seen p ((w.edit changes).current p).stamp := by
  cases hlookup : changes.lookup p with
  | none =>
      left
      show (changes.lookup p).getD _ = _
      rw [hlookup]
      rfl
  | some file =>
      right
      have hfile : (w.edit changes).current p = file := by
        show (changes.lookup p).getD _ = _
        rw [hlookup]
        rfl
      rw [hfile]
      have hmem : (p, file) ∈ changes := by
        obtain ⟨l₁, l₂, rfl, -⟩ := List.lookup_eq_some_iff.mp hlookup
        simp
      exact h _ hmem

end Watched

/-! ## Programs -/

/-- A program that asks for stamps and texts, and ends with a value or an error. -/
inductive FileProgram (ρ σ τ ε : Type) (α : Type) : Type where
  | done (a : α)
  | fail (e : ε)
  | stat (p : ρ) (k : σ → FileProgram ρ σ τ ε α)
  | read (p : ρ) (k : τ → FileProgram ρ σ τ ε α)

namespace FileProgram

variable {ρ σ τ ε α β : Type}

def bind : FileProgram ρ σ τ ε α → (α → FileProgram ρ σ τ ε β) → FileProgram ρ σ τ ε β
  | done a, f   => f a
  | fail e, _   => fail e
  | stat p k, f => stat p fun s => (k s).bind f
  | read p k, f => read p fun t => (k t).bind f

/-- The program over one state of the files. -/
def eval (files : Files ρ σ τ) : FileProgram ρ σ τ ε α → Except ε α
  | done a   => .ok a
  | fail e   => .error e
  | stat p k => (k (files p).stamp).eval files
  | read p k => (k (files p).text).eval files

theorem eval_bind (files : Files ρ σ τ) (prog : FileProgram ρ σ τ ε α)
    (f : α → FileProgram ρ σ τ ε β) :
    (prog.bind f).eval files = (prog.eval files).bind fun a => (f a).eval files := by
  induction prog with
  | done a => rfl
  | fail e => rfl
  | stat p k ih => exact ih (files p).stamp
  | read p k ih => exact ih (files p).text

/-- One question, asked of the files as they are. -/
def advance (files : Files ρ σ τ) : FileProgram ρ σ τ ε α → FileProgram ρ σ τ ε α
  | stat p k => k (files p).stamp
  | read p k => k (files p).text
  | prog     => prog

end FileProgram

/-- What a program was told. -/
inductive Observation (ρ σ τ : Type) : Type where
  | stamp (p : ρ) (s : σ)
  | text (p : ρ) (t : τ)

namespace Observation

variable {ρ σ τ : Type}

/-- The files as they are would say so again. -/
def Agrees (files : Files ρ σ τ) : Observation ρ σ τ → Prop
  | stamp p s => (files p).stamp = s
  | text p t  => (files p).text = t

end Observation

/-! ## What a log is worth

A log is newest first. -/

section Log

variable {ρ σ τ : Type}

/-- Every text of the log was read behind a stamp of its file, and every stamp is
among the given ones. -/
def Guarded (stamps : List (ρ × σ)) : List (Observation ρ σ τ) → Prop
  | []               => True
  | .stamp p s :: log => (p, s) ∈ stamps ∧ Guarded stamps log
  | .text p _ :: log  => (∃ s, .stamp p s ∈ log) ∧ Guarded stamps log

/-- Every stamp was the file's, and every text is the file's while the file has a
stamp that the log saw before. -/
def Sound (w : Watched ρ σ τ) : List (Observation ρ σ τ) → Prop
  | []               => True
  | .stamp p s :: log => w.Seen p s ∧ Sound w log
  | .text p t :: log  =>
      (∀ s, .stamp p s ∈ log → (w.current p).stamp = s → (w.current p).text = t) ∧ Sound w log

theorem Guarded.mono {stamps stamps' : List (ρ × σ)} {log : List (Observation ρ σ τ)}
    (hsub : stamps ⊆ stamps') (h : Guarded stamps log) : Guarded stamps' log := by
  induction log with
  | nil => trivial
  | cons o log ih =>
      cases o with
      | stamp p s => exact ⟨hsub h.1, ih h.2⟩
      | text p t  => exact ⟨h.1, ih h.2⟩

theorem Guarded.mem {stamps : List (ρ × σ)} {log : List (Observation ρ σ τ)}
    (h : Guarded stamps log) {p : ρ} {s : σ} (hs : .stamp p s ∈ log) : (p, s) ∈ stamps := by
  induction log with
  | nil => cases hs
  | cons o log ih =>
      rcases List.mem_cons.mp hs with rfl | htail
      · exact h.1
      · cases o with
        | stamp p' s' => exact ih h.2 htail
        | text p' t'  => exact ih h.2 htail

theorem Sound.seen {w : Watched ρ σ τ} {log : List (Observation ρ σ τ)} (h : Sound w log)
    {p : ρ} {s : σ} (hs : .stamp p s ∈ log) : w.Seen p s := by
  induction log with
  | nil => cases hs
  | cons o log ih =>
      rcases List.mem_cons.mp hs with rfl | htail
      · exact h.1
      · cases o with
        | stamp p' s' => exact ih h.2 htail
        | text p' t'  => exact ih h.2 htail

/-- **An edit keeps a log sound**: the files it touched lose every stamp the log saw. -/
theorem Sound.edit [DecidableEq ρ] {w : Watched ρ σ τ} {changes : List (ρ × FileState σ τ)}
    (hfresh : w.Fresh changes) {log : List (Observation ρ σ τ)} (h : Sound w log) :
    Sound (w.edit changes) log := by
  induction log with
  | nil => trivial
  | cons o log ih =>
      cases o with
      | stamp p s => exact ⟨h.1.edit changes, ih h.2⟩
      | text p t =>
          refine ⟨fun s hs hcurrent => ?_, ih h.2⟩
          rcases hfresh.current_edit p with hsame | hnew
          · rw [hsame] at hcurrent ⊢
            exact h.1 s hs hcurrent
          · rw [hcurrent] at hnew
            exact absurd (h.2.seen hs) hnew

/-- **When the stamps are the files' own again, so is everything the log read.** -/
theorem Sound.agrees {w : Watched ρ σ τ} {stamps : List (ρ × σ)}
    {log : List (Observation ρ σ τ)} (h : Sound w log) (hguarded : Guarded stamps log)
    (hcurrent : ∀ x ∈ stamps, (w.current x.1).stamp = x.2) :
    ∀ o ∈ log, o.Agrees w.current := by
  induction log with
  | nil => simp
  | cons o log ih =>
      intro o' ho'
      cases o with
      | stamp p s =>
          rcases List.mem_cons.mp ho' with rfl | ho'
          · exact hcurrent _ hguarded.1
          · exact ih h.2 hguarded.2 o' ho'
      | text p t =>
          rcases List.mem_cons.mp ho' with rfl | ho'
          · obtain ⟨s, hs⟩ := hguarded.1
            exact h.1 s hs (hcurrent _ (hguarded.2.mem hs))
          · exact ih h.2 hguarded.2 o' ho'

end Log

/-! ## A program among edits -/

namespace FileProgram

variable {ρ σ τ ε α β : Type}

/-- What is left of a program after the answers of a log. -/
inductive Reaches (prog : FileProgram ρ σ τ ε α) :
    List (Observation ρ σ τ) → FileProgram ρ σ τ ε α → Prop where
  | start : Reaches prog [] prog
  | stat {log : List (Observation ρ σ τ)} {p : ρ} {k : σ → FileProgram ρ σ τ ε α} (s : σ) :
      Reaches prog log (.stat p k) → Reaches prog (.stamp p s :: log) (k s)
  | read {log : List (Observation ρ σ τ)} {p : ρ} {k : τ → FileProgram ρ σ τ ε α} (t : τ) :
      Reaches prog log (.read p k) → Reaches prog (.text p t :: log) (k t)

/-- Over files that agree with the log, what is left gives what the whole gives. -/
theorem Reaches.eval {prog rest : FileProgram ρ σ τ ε α} {log : List (Observation ρ σ τ)}
    (h : Reaches prog log rest) {files : Files ρ σ τ} (hlog : ∀ o ∈ log, o.Agrees files) :
    rest.eval files = prog.eval files := by
  induction h with
  | start => rfl
  | stat s _ ih =>
      have hs := hlog _ (List.mem_cons_self ..)
      rw [← ih fun o ho => hlog o (List.mem_cons_of_mem _ ho), ← hs]
      rfl
  | read t _ ih =>
      have ht := hlog _ (List.mem_cons_self ..)
      rw [← ih fun o ho => hlog o (List.mem_cons_of_mem _ ho), ← ht]
      rfl

theorem eval_advance (files : Files ρ σ τ) (prog : FileProgram ρ σ τ ε α) :
    (prog.advance files).eval files = prog.eval files := by
  cases prog <;> rfl

/-- Every way to the end of the program satisfies `Q`, whatever it is told; the log
already written is given. -/
def Sat (Q : List (Observation ρ σ τ) → α → Prop) :
    List (Observation ρ σ τ) → FileProgram ρ σ τ ε α → Prop
  | log, done a   => Q log a
  | _, fail _     => True
  | log, stat p k => ∀ s, (k s).Sat Q (.stamp p s :: log)
  | log, read p k => ∀ t, (k t).Sat Q (.text p t :: log)

theorem Sat.bind {Q : List (Observation ρ σ τ) → α → Prop}
    {R : List (Observation ρ σ τ) → β → Prop} {prog : FileProgram ρ σ τ ε α}
    {f : α → FileProgram ρ σ τ ε β} {log : List (Observation ρ σ τ)} (h : prog.Sat Q log)
    (hf : ∀ log' a, Q log' a → (f a).Sat R log') : (prog.bind f).Sat R log := by
  induction prog generalizing log with
  | done a => exact hf log a h
  | fail e => trivial
  | stat p k ih => exact fun s => ih s (h s)
  | read p k ih => exact fun t => ih t (h t)

theorem Sat.reaches {Q : List (Observation ρ σ τ) → α → Prop}
    {prog rest : FileProgram ρ σ τ ε α} {base log : List (Observation ρ σ τ)}
    (h : prog.Sat Q base) (hreach : Reaches prog log rest) : rest.Sat Q (log ++ base) := by
  induction hreach with
  | start => exact h
  | stat s _ ih => exact ih s
  | read t _ ih => exact ih t

end FileProgram

end Wallermax.Base
