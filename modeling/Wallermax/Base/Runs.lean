import Mathlib.Data.List.Infix

/-!
# Labelled runs of a partial step function

A machine is a function `step : σ → α → Option σ`. The label carries every
choice the state does not determine (which party moves, what the clock says,
which value is drawn, whether a statement fails), so a list of labels is one
schedule and quantifying over lists quantifies over all interleavings.

The two notions every later module uses are `Throughout` (a property of every
state a schedule reaches) and `EachStep` (a condition on the state before
every step it takes). `throughout_iff_eachStep` ties them together: when one
step keeps the property exactly under a condition, a whole run does.
-/

namespace Wallermax.Base

variable {σ α : Type*} (step : σ → α → Option σ)

/-- Run a schedule; `none` as soon as one of its steps is not enabled. -/
def run : σ → List α → Option σ
  | s, [] => some s
  | s, a :: as => (step s a).bind fun t => run t as

/-- `P` holds in every state the schedule passes through, both ends included. -/
def Throughout (P : σ → Prop) (s : σ) (as : List α) : Prop :=
  ∀ pre t, pre <+: as → run step s pre = some t → P t

/-- Every step the schedule takes is taken in a state that meets `C`. -/
def EachStep (C : σ → α → Prop) (s : σ) (as : List α) : Prop :=
  ∀ pre a t u, pre ++ [a] <+: as → run step s pre = some t →
    step t a = some u → C t a

@[simp] theorem run_nil (s : σ) : run step s [] = some s := rfl

theorem run_cons (s : σ) (a : α) (as : List α) :
    run step s (a :: as) = (step s a).bind fun t => run step t as := rfl

theorem run_cons_some {s u : σ} {a : α} {as : List α}
    (h : run step s (a :: as) = some u) :
    ∃ t, step s a = some t ∧ run step t as = some u :=
  Option.bind_eq_some_iff.mp h

theorem run_append (s : σ) (as bs : List α) :
    run step s (as ++ bs) = (run step s as).bind fun t => run step t bs := by
  induction as generalizing s with
  | nil => rfl
  | cons a as ih =>
      rw [List.cons_append, run_cons, run_cons]
      cases step s a with
      | none => rfl
      | some t => exact ih t

theorem run_snoc {s t u : σ} {as : List α} {a : α}
    (h : run step s as = some t) (ha : step t a = some u) :
    run step s (as ++ [a]) = some u := by
  rw [run_append, h]
  simp [run_cons, ha]

/-- The invariant rule with a side condition: what every step meeting `C`
preserves, a run all of whose steps meet `C` preserves. -/
theorem run_invariant_of_eachStep {I : σ → Prop} {C : σ → α → Prop}
    (hstep : ∀ s a t, I s → C s a → step s a = some t → I t)
    {s t : σ} {as : List α} (hI : I s) (hC : EachStep step C s as)
    (h : run step s as = some t) : I t := by
  induction as using List.reverseRecOn generalizing t with
  | nil =>
      cases h
      exact hI
  | append_singleton as a ih =>
      rw [run_append] at h
      obtain ⟨u, hu, h⟩ := Option.bind_eq_some_iff.mp h
      obtain ⟨v, hv, hlast⟩ := run_cons_some step h
      cases hlast
      have hIu : I u := ih
        (fun pre b w x hpre => hC pre b w x
          (hpre.trans (List.prefix_append as [a]))) hu
      exact hstep u a t hIu (hC as a u t (List.prefix_refl _) hu hv) hv

/-- The invariant rule: what every step preserves, every run preserves. -/
theorem run_invariant {I : σ → Prop}
    (hstep : ∀ s a t, I s → step s a = some t → I t)
    {s t : σ} {as : List α} (hI : I s) (h : run step s as = some t) : I t :=
  run_invariant_of_eachStep step (C := fun _ _ => True)
    (fun s a t hs _ ha => hstep s a t hs ha) hI (fun _ _ _ _ _ _ _ => trivial) h

/-- A run goes wherever its steps go, when where they go composes. -/
theorem run_related {R : σ → σ → Prop} (hrefl : ∀ s, R s s)
    (htrans : ∀ s t u, R s t → R t u → R s u)
    (hstep : ∀ s a t, step s a = some t → R s t)
    {s t : σ} {as : List α} (h : run step s as = some t) : R s t :=
  run_invariant step (I := R s) (fun u a v hu ha => htrans s u v hu (hstep u a v ha))
    (hrefl s) h

/-- What a run has in its log, it had from the start or wrote down in one of its steps. -/
theorem exists_step_of_logged {β : Type*} {log : σ → List β} {I : σ → Prop} {P : σ → α → β → Prop}
    (hkeep : ∀ s a t, I s → step s a = some t → I t)
    (hstep : ∀ s a t, I s → step s a = some t → ∀ b ∈ log t, b ∈ log s ∨ P s a b)
    {s t : σ} {as : List α} (hI : I s) (h : run step s as = some t) {b : β} (hb : b ∈ log t) :
    b ∈ log s ∨ ∃ pre a u, pre ++ [a] <+: as ∧ run step s pre = some u ∧ P u a b := by
  induction as using List.reverseRecOn generalizing t with
  | nil =>
      cases h
      exact .inl hb
  | append_singleton as a ih =>
      rw [run_append] at h
      obtain ⟨u, hu, h⟩ := Option.bind_eq_some_iff.mp h
      obtain ⟨v, hv, hlast⟩ := run_cons_some step h
      cases hlast
      rcases hstep u a t (run_invariant step hkeep hI hu) hv b hb with hold | hnew
      · rcases ih hu hold with hfirst | ⟨pre, c, w, hpre, hw⟩
        · exact .inl hfirst
        · exact .inr ⟨pre, c, w, hpre.trans (List.prefix_append as [a]), hw⟩
      · exact .inr ⟨as, a, u, List.prefix_refl _, hu, hnew⟩

/-- The same of the state that was written down in; what held of the entry there, held then. -/
theorem exists_prefix_of_logged {β : Type*} {log : σ → List β} {P : σ → β → Prop}
    (hstep : ∀ s a t, step s a = some t → ∀ b ∈ log t, b ∈ log s ∨ P s b)
    {s t : σ} {as : List α} (h : run step s as = some t) {b : β} (hb : b ∈ log t) :
    b ∈ log s ∨ ∃ pre u, pre <+: as ∧ run step s pre = some u ∧ P u b := by
  rcases exists_step_of_logged step (I := fun _ => True) (P := fun s _ b => P s b)
    (fun _ _ _ _ _ => trivial) (fun s a t _ => hstep s a t) trivial h hb with
    hfirst | ⟨pre, a, u, hpre, hu, hlogged⟩
  · exact .inl hfirst
  · exact .inr ⟨pre, u, (List.prefix_append pre [a]).trans hpre, hu, hlogged⟩

theorem EachStep.of_prefix {C : σ → α → Prop} {s : σ} {as bs : List α}
    (h : EachStep step C s bs) (hp : as <+: bs) : EachStep step C s as :=
  fun pre a t u hpre => h pre a t u (hpre.trans hp)

/-- A property every step meeting `C` preserves holds throughout a run whose
steps all meet `C`. -/
theorem throughout_of_eachStep {I : σ → Prop} {C : σ → α → Prop}
    (hstep : ∀ s a t, I s → C s a → step s a = some t → I t)
    {s : σ} {as : List α} (hI : I s) (hC : EachStep step C s as) :
    Throughout step I s as :=
  fun _ _ hp h => run_invariant_of_eachStep step hstep hI (hC.of_prefix step hp) h

theorem Throughout.mono {P Q : σ → Prop} {s : σ} {as : List α}
    (h : Throughout step P s as) (hPQ : ∀ t, P t → Q t) :
    Throughout step Q s as :=
  fun pre t hp ht => hPQ t (h pre t hp ht)

/-- **Exactness of a step condition**, for schedules whose labels all meet `A`.
When, under an invariant `I` that good states keep, a step leads to a state with
`P` exactly when it meets `C`, a run stays in `P` exactly when all its steps meet
`C`. -/
theorem throughout_iff_eachStep_of_mem {A : α → Prop} {I P : σ → Prop} {C : σ → α → Prop}
    (hkeep : ∀ s a t, A a → I s → P s → step s a = some t → I t)
    (hexact : ∀ s a t, A a → I s → P s → step s a = some t → (P t ↔ C s a))
    {s : σ} {as : List α} (hA : ∀ a ∈ as, A a) (hI : I s) (hP : P s) :
    Throughout step P s as ↔ EachStep step C s as := by
  have hlabel : ∀ {pre : List α} {a : α}, pre ++ [a] <+: as → A a := fun {pre a} hpre =>
    hA a (hpre.subset (List.mem_append_right pre (List.mem_singleton_self a)))
  constructor
  · intro h pre a t u hpre ht hu
    have hsub : pre <+: as := (List.prefix_append pre [a]).trans hpre
    have hIt : I t := by
      suffices key : ∀ qs q, qs <+: pre → run step s qs = some q → I q from
        key pre t (List.prefix_refl _) ht
      intro qs
      induction qs using List.reverseRecOn with
      | nil =>
          intro q _ hq
          cases hq
          exact hI
      | append_singleton qs b ih =>
          intro q hqs hq
          have hqs' : qs <+: pre := (List.prefix_append qs [b]).trans hqs
          rw [run_append] at hq
          obtain ⟨w, hw, hq⟩ := Option.bind_eq_some_iff.mp hq
          obtain ⟨x, hx, hlast⟩ := run_cons_some step hq
          cases hlast
          exact hkeep w b q (hlabel (hqs.trans hsub)) (ih w hqs' hw)
            (h qs w (hqs'.trans hsub) hw) hx
    exact (hexact t a u (hlabel hpre) hIt (h pre t hsub ht) hu).mp
      (h (pre ++ [a]) u hpre (run_snoc step ht hu))
  · intro h
    have hboth : EachStep step (fun t a => A a ∧ C t a) s as :=
      fun pre a t u hpre ht hu => ⟨hlabel hpre, h pre a t u hpre ht hu⟩
    exact (throughout_of_eachStep step (I := fun t => I t ∧ P t)
      (fun t a u hs hc hu => ⟨hkeep t a u hc.1 hs.1 hs.2 hu,
        (hexact t a u hc.1 hs.1 hs.2 hu).mpr hc.2⟩) ⟨hI, hP⟩ hboth).mono step
      (fun _ ht => ht.2)

theorem throughout_iff_eachStep {I P : σ → Prop} {C : σ → α → Prop}
    (hkeep : ∀ s a t, I s → P s → step s a = some t → I t)
    (hexact : ∀ s a t, I s → P s → step s a = some t → (P t ↔ C s a))
    {s : σ} {as : List α} (hI : I s) (hP : P s) :
    Throughout step P s as ↔ EachStep step C s as :=
  throughout_iff_eachStep_of_mem step (A := fun _ => True)
    (fun s a t _ => hkeep s a t) (fun s a t _ => hexact s a t)
    (fun _ _ => trivial) hI hP

/-- `EachStep` by running the schedule. -/
def checkEachStep (c : σ → α → Bool) : σ → List α → Bool
  | _, [] => true
  | s, a :: as =>
      match step s a with
      | none => true
      | some t => c s a && checkEachStep c t as

theorem eachStep_of_check {c : σ → α → Bool} {s : σ} {as : List α}
    (h : checkEachStep step c s as = true) :
    EachStep step (fun t a => c t a = true) s as := by
  induction as generalizing s with
  | nil =>
      intro pre a t u hpre
      simp at hpre
  | cons b as ih =>
      intro pre a t u hpre hrun hstep
      simp only [checkEachStep] at h
      cases pre with
      | nil =>
          obtain rfl : a = b := by simpa using hpre
          cases hrun
          rw [hstep] at h
          exact (Bool.and_eq_true_iff.mp h).1
      | cons q pre =>
          obtain ⟨rfl, htail⟩ := List.cons_prefix_cons.mp hpre
          obtain ⟨v, hv, hrun⟩ := run_cons_some step hrun
          rw [hv] at h
          exact ih (Bool.and_eq_true_iff.mp h).2 pre a t u htail hrun hstep

end Wallermax.Base
