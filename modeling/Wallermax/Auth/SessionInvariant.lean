import Wallermax.Auth.Sessions

/-!
# One redeemable token per family, one successor per token

The inductive invariant of the session machine. Its clauses fall in three
groups: what the rows satisfy, what the history satisfies, and what a request
in flight holds (`PhaseOk`). The last group is where the race lives: between
the compare-and-swap and the insert of the successor the family has no
redeemable row at all, and the request that won holds that window alone.

Steps are of four kinds, and each kind gets one lemma: a *soft* step retires
rows and logs at most one event that binds no stored token; the two inserts;
and the rewrite of the placeholder family.
-/

namespace Wallermax.Auth

open Wallermax.Base Wallermax.Accounts

variable {auth : AuthContext}

/-! ## What a request in flight holds -/

section
variable (auth) (db : AuthDb) (history : List Event)

/-- A drawn value whose row is not inserted yet. -/
structure Unstored (q : ℕ) (value : String) (token : NewRefreshToken) : Prop where
  token_hash : token.token_hash = auth.hashRefreshToken value
  drawn : .drawn q (auth.hashRefreshToken value) ∈ history
  not_stored : ∀ q' i, .stored q' (auth.hashRefreshToken value) i ∉ history

/-- A record read for a presented value: its family is settled for good. -/
structure Looked (value : String) (id : ℕ) (record : RefreshToken) : Prop where
  stored : ∃ q, .stored q (auth.hashRefreshToken value) id ∈ history
  founded : .founded record.family_id ∈ history
  row : ∀ r, (id, r) ∈ db.refresh_tokens.rows → r.family_id = record.family_id

/-- The time between winning the compare-and-swap on `id` and inserting the
successor: **the family has no redeemable row**. -/
structure Window (q id family_id : ℕ) : Prop where
  rotated : .rotated q id ∈ history
  closed : ∀ i r, (i, r) ∈ db.refresh_tokens.rows → r.family_id = family_id →
    r.redeemable = false

/-- What request `q` may rely on at each of its phases. -/
def PhaseOk (q : ℕ) : Phase → Prop
  | .insertLogin value token =>
      Unstored auth history q value token ∧ token.family_id = none
  | .setFamily value id =>
      .stored q (auth.hashRefreshToken value) id ∈ history ∧
        .founded id ∉ history ∧
        .delivered (auth.hashRefreshToken value) ∉ history ∧
        ∀ r, (id, r) ∈ db.refresh_tokens.rows → r.family_id = 0
  | .prune value _ => .presented (auth.hashRefreshToken value) ∈ history
  | .find value _ => .presented (auth.hashRefreshToken value) ∈ history
  | .findLogout _ value _ => .presented (auth.hashRefreshToken value) ∈ history
  | .rotate value id record _ => Looked auth db history value id record
  | .findUser value id record _ =>
      Looked auth db history value id record ∧
        Window db history q id record.family_id
  | .insertSuccessor value id record new token =>
      Looked auth db history value id record ∧
        Window db history q id record.family_id ∧
        Unstored auth history q new token ∧
        token.family_id = some record.family_id
  | .revokeFamily family_id _ => .founded family_id ∈ history
  | .revokeLogout family_id _ => .founded family_id ∈ history
  | .refreshed value new => ∃ id, .succeeded q value id new ∈ history
  | _ => True

end

/-- The family whose window a request holds. -/
def Phase.window : Phase → Option ℕ
  | .findUser _ _ record _ => some record.family_id
  | .insertSuccessor _ _ record _ _ => some record.family_id
  | _ => none

/-- The id an insert handed out. -/
def Event.storedId : Event → Option ℕ
  | .stored _ _ id => some id
  | _ => none

/-! ## The invariant -/

/-- What holds in every reachable world. -/
structure Inv (auth : AuthContext) (w : World) : Prop where
  row_stored : ∀ i r, (i, r) ∈ w.db.refresh_tokens.rows →
    ∃ q, .stored q r.token_hash i ∈ w.history
  row_family : ∀ i r, (i, r) ∈ w.db.refresh_tokens.rows →
    r.family_id = 0 ∨ .founded r.family_id ∈ w.history
  one_redeemable : ∀ i r j s, (i, r) ∈ w.db.refresh_tokens.rows →
    (j, s) ∈ w.db.refresh_tokens.rows → r.family_id = s.family_id →
    r.family_id ≠ 0 → r.redeemable = true → s.redeemable = true → i = j
  row_rotated : ∀ q i r, .rotated q i ∈ w.history →
    (i, r) ∈ w.db.refresh_tokens.rows → r.rotated_at.isSome = true
  row_delivered : ∀ i r, (i, r) ∈ w.db.refresh_tokens.rows →
    .delivered r.token_hash ∈ w.history → r.family_id ≠ 0
  stored_le : ∀ q h i, .stored q h i ∈ w.history →
    0 < i ∧ i ≤ w.db.refresh_tokens.seq
  stored_drawn : ∀ q h i, .stored q h i ∈ w.history → .drawn q h ∈ w.history
  stored_id : ∀ q h q' h' i, .stored q h i ∈ w.history →
    .stored q' h' i ∈ w.history → q = q' ∧ h = h'
  stored_hash : ∀ q q' h i j, .stored q h i ∈ w.history →
    .stored q' h j ∈ w.history → i = j
  stored_nodup : (w.history.filterMap Event.storedId).Nodup
  drawn_by : ∀ q q' h, .drawn q h ∈ w.history → .drawn q' h ∈ w.history → q = q'
  delivered_stored : ∀ h, .delivered h ∈ w.history →
    ∃ q i, .stored q h i ∈ w.history
  founded_stored : ∀ i, .founded i ∈ w.history → ∃ q h, .stored q h i ∈ w.history
  presented_known : ∀ h, .presented h ∈ w.history →
    .delivered h ∈ w.history ∨ ∀ q, .drawn q h ∉ w.history
  rotated_by : ∀ q q' i, .rotated q i ∈ w.history → .rotated q' i ∈ w.history →
    q = q'
  rotated_stored : ∀ q i, .rotated q i ∈ w.history → ∃ q' h, .stored q' h i ∈ w.history
  succeeded_phase : ∀ q value id new, .succeeded q value id new ∈ w.history →
    w.phase q = .refreshed value new ∧ .rotated q id ∈ w.history ∧
      ∃ q', .stored q' (auth.hashRefreshToken value) id ∈ w.history
  revoked_founded : ∀ F, .revoked F ∈ w.history → .founded F ∈ w.history
  phase_ok : ∀ q, PhaseOk auth w.db w.history q (w.phase q)
  window_alone : ∀ q q' F, (w.phase q).window = some F →
    (w.phase q').window = some F → q = q'

theorem Inv.initial (users : Users) : Inv auth (World.initial users) := by
  constructor <;> simp [World.initial, PhaseOk, Phase.window]

theorem Inv.founded_pos {w : World} (h : Inv auth w) {F : ℕ}
    (hF : .founded F ∈ w.history) : 0 < F ∧ F ≤ w.db.refresh_tokens.seq := by
  obtain ⟨q, k, hk⟩ := h.founded_stored F hF
  exact h.stored_le q k F hk

/-- A presented value that has a row was delivered, so the row has left the
placeholder family. -/
theorem Inv.looked {w : World} (h : Inv auth w) {value : String} {i : ℕ}
    {r : RefreshToken} (hp : .presented (auth.hashRefreshToken value) ∈ w.history)
    (hr : (i, r) ∈ w.db.refresh_tokens.rows)
    (hh : r.token_hash = auth.hashRefreshToken value) :
    Looked auth w.db w.history value i r := by
  obtain ⟨q, hq⟩ := h.row_stored i r hr
  have hdel : .delivered r.token_hash ∈ w.history := by
    rcases h.presented_known _ hp with hd | hd
    · rwa [hh]
    · exact absurd (h.stored_drawn _ _ _ hq) (hh ▸ hd q)
  have hfam : .founded r.family_id ∈ w.history :=
    (h.row_family i r hr).resolve_left (h.row_delivered i r hr hdel)
  refine ⟨⟨q, hh ▸ hq⟩, hfam, fun s hs => ?_⟩
  rw [Table.eq_of_mem hr hs]

/-- What a request holds carries over to a database and a history for which its
parts do. **The one case analysis over the phases**: soft steps, inserts and
foundings only say what happens to the parts. -/
theorem PhaseOk.lift {db db' : AuthDb} {history history' : List Event} {q : ℕ} {p : Phase}
    (h : PhaseOk auth db history q p) (hmem : ∀ {e}, e ∈ history → e ∈ history')
    (hun : ∀ {v t}, Unstored auth history q v t → Unstored auth history' q v t)
    (hlo : ∀ {v i t}, Looked auth db history v i t → Looked auth db' history' v i t)
    (hwi : ∀ {v i t}, p.window = some t.family_id → Looked auth db history v i t →
      Window db history q i t.family_id → Window db' history' q i t.family_id)
    (hset : ∀ v i, p = .setFamily v i → PhaseOk auth db' history' q p) :
    PhaseOk auth db' history' q p := by
  cases p with
  | insertLogin => exact ⟨hun h.1, h.2⟩
  | setFamily v i => exact hset v i rfl
  | prune => exact hmem h
  | find => exact hmem h
  | findLogout => exact hmem h
  | rotate => exact hlo h
  | findUser => exact ⟨hlo h.1, hwi rfl h.1 h.2⟩
  | insertSuccessor => exact ⟨hlo h.1, hwi rfl h.1 h.2.1, hun h.2.2.1, h.2.2.2⟩
  | revokeFamily => exact hmem h
  | revokeLogout => exact hmem h
  | refreshed => exact h.imp fun _ => hmem
  | _ => trivial

/-! ## Soft steps -/

/-- Events that bind no stored token. -/
def Event.soft : Event → Bool
  | .presented _ => true
  | .drawn _ _ => true
  | .rotated _ _ => true
  | .revoked _ => true
  | _ => false

/-- What a soft step has to check for the event it logs. -/
def Admits (w : World) (db' : AuthDb) (r : ℕ) : Event → Prop
  | .presented h => .delivered h ∈ w.history ∨ ∀ q, .drawn q h ∉ w.history
  | .drawn q h => q = r ∧ .presented h ∉ w.history ∧ ∀ q', .drawn q' h ∉ w.history
  | .rotated q i => q = r ∧ (∀ q', .rotated q' i ∉ w.history) ∧
      (∃ q' h, .stored q' h i ∈ w.history) ∧
      ∀ s, (i, s) ∈ db'.refresh_tokens.rows → s.rotated_at.isSome = true
  | .revoked F => .founded F ∈ w.history
  | _ => False

theorem Admits.soft {w : World} {db' : AuthDb} {r : ℕ} {e : Event}
    (h : Admits w db' r e) : e.soft = true := by
  cases e <;> first | rfl | exact h.elim

theorem mem_hard {history es : List Event} (hes : ∀ e ∈ es, e.soft = true)
    {e : Event} (he : e.soft = false) : e ∈ history ++ es ↔ e ∈ history := by
  rw [List.mem_append, or_iff_left]
  intro hmem
  simp [hes e hmem] at he

/-- Retiring rows and logging soft events takes nothing from a request. -/
theorem PhaseOk.soft {db db' : AuthDb} {history es : List Event} {q : ℕ}
    {p : Phase} (h : PhaseOk auth db history q p) (hret : Retires db db')
    (hes : ∀ e ∈ es, e.soft = true) : PhaseOk auth db' (history ++ es) q p := by
  have hmem : ∀ {e}, e ∈ history → e ∈ history ++ es :=
    fun he => List.mem_append_left es he
  apply h.lift hmem
  case hun =>
    intro v t hu
    refine ⟨hu.token_hash, hmem hu.drawn, fun q' i hs => ?_⟩
    exact hu.not_stored q' i ((mem_hard hes rfl).mp hs)
  case hlo =>
    intro v i t hl
    refine ⟨hl.stored.imp fun _ => hmem, hmem hl.founded, fun s hs => ?_⟩
    obtain ⟨s₀, hs₀, hage⟩ := hret.row _ _ hs
    exact hage.family_id.trans (hl.row s₀ hs₀)
  case hwi =>
    intro v i t _ _ hw
    refine ⟨hmem hw.rotated, fun j s hs hF => ?_⟩
    obtain ⟨s₀, hs₀, hage⟩ := hret.row _ _ hs
    have hclosed := hw.closed j s₀ hs₀ (hage.family_id ▸ hF)
    by_contra hr
    simp [hage.redeemable (by simpa using hr)] at hclosed
  case hset =>
    rintro v i rfl
    obtain ⟨hs, hf, hd, hr⟩ := h
    refine ⟨hmem hs, fun hc => hf ((mem_hard hes rfl).mp hc),
      fun hc => hd ((mem_hard hes rfl).mp hc), fun s hs => ?_⟩
    obtain ⟨s₀, hs₀, hage⟩ := hret.row _ _ hs
    exact hage.family_id.trans (hr s₀ hs₀)

/-- The clauses about single requests after one of them moved on. -/
theorem phases_advance {w : World} {r : ℕ} {next : Phase} {db' : AuthDb}
    {es : List Event} (hnext : PhaseOk auth db' (w.history ++ es) r next)
    (hrest : ∀ q ≠ r, PhaseOk auth db' (w.history ++ es) q (w.phase q)) (q : ℕ) :
    PhaseOk auth db' (w.history ++ es) q ((w.advance r db' next es).phase q) := by
  by_cases hq : q = r
  · subst hq
    simpa [World.advance] using hnext
  · simpa [World.advance, hq] using hrest q hq

theorem windows_advance {w : World} {r : ℕ} {next : Phase} {db' : AuthDb}
    {es : List Event} (h : Inv auth w)
    (hwin : ∀ F, next.window = some F → ∀ q ≠ r, (w.phase q).window ≠ some F)
    (q q' F : ℕ) (hq : ((w.advance r db' next es).phase q).window = some F)
    (hq' : ((w.advance r db' next es).phase q').window = some F) : q = q' := by
  simp only [World.advance, Function.update_apply] at hq hq'
  by_cases hr : q = r <;> by_cases hr' : q' = r <;>
    simp only [hr, hr', if_true, if_false] at hq hq'
  · rw [hr, hr']
  · exact absurd hq' (hwin F hq q' hr')
  · exact absurd hq (hwin F hq' q hr)
  · exact h.window_alone q q' F hq hq'

/-- **Soft steps keep the invariant.** -/
theorem Inv.soft {w : World} {db' : AuthDb} {r : ℕ} {next : Phase}
    {es : List Event} (h : Inv auth w) (hret : Retires w.db db')
    (hes : ∀ e ∈ es, Admits w db' r e) (hone : es.length ≤ 1)
    (hdone : ∀ v n, w.phase r = .refreshed v n → next = .refreshed v n)
    (hnext : PhaseOk auth db' (w.history ++ es) r next)
    (hwin : ∀ F, next.window = some F → ∀ q ≠ r, (w.phase q).window ≠ some F) :
    Inv auth (w.advance r db' next es) := by
  have hsoft : ∀ e ∈ es, e.soft = true := fun e he => (hes e he).soft
  have hmem : ∀ {e}, e ∈ w.history → e ∈ w.history ++ es :=
    fun he => List.mem_append_left es he
  have hsame : ∀ {e : Event}, e.soft = false →
      (e ∈ (w.advance r db' next es).history ↔ e ∈ w.history) :=
    fun he => mem_hard hsoft he
  constructor
  case row_stored =>
    intro i s hs
    obtain ⟨s₀, hs₀, hage⟩ := hret.row i s hs
    obtain ⟨q, hq⟩ := h.row_stored i s₀ hs₀
    exact ⟨q, hmem (hage.token_hash ▸ hq)⟩
  case row_family =>
    intro i s hs
    obtain ⟨s₀, hs₀, hage⟩ := hret.row i s hs
    rw [hage.family_id]
    exact (h.row_family i s₀ hs₀).imp_right hmem
  case one_redeemable =>
    intro i s j t hs ht hF hne hrs hrt
    obtain ⟨s₀, hs₀, hs⟩ := hret.row i s hs
    obtain ⟨t₀, ht₀, ht⟩ := hret.row j t ht
    exact h.one_redeemable i s₀ j t₀ hs₀ ht₀
      (by rw [← hs.family_id, ← ht.family_id, hF]) (hs.family_id ▸ hne)
      (hs.redeemable hrs) (ht.redeemable hrt)
  case row_rotated =>
    intro q i s hq hs
    rcases List.mem_append.mp hq with hq | hq
    · obtain ⟨s₀, hs₀, hage⟩ := hret.row i s hs
      exact hage.rotated_at (h.row_rotated q i s₀ hq hs₀)
    · exact (hes _ hq).2.2.2 s hs
  case row_delivered =>
    intro i s hs hd
    obtain ⟨s₀, hs₀, hage⟩ := hret.row i s hs
    rw [hage.family_id]
    exact h.row_delivered i s₀ hs₀ (hage.token_hash ▸ (hsame rfl).mp hd)
  case stored_le =>
    intro q k i hs
    have := h.stored_le q k i ((hsame rfl).mp hs)
    exact ⟨this.1, hret.seq ▸ this.2⟩
  case stored_drawn =>
    intro q k i hs
    exact hmem (h.stored_drawn q k i ((hsame rfl).mp hs))
  case stored_id =>
    intro q k q' k' i hs hs'
    exact h.stored_id q k q' k' i ((hsame rfl).mp hs) ((hsame rfl).mp hs')
  case stored_hash =>
    intro q q' k i j hs hs'
    exact h.stored_hash q q' k i j ((hsame rfl).mp hs) ((hsame rfl).mp hs')
  case stored_nodup =>
    have hnil : es.filterMap Event.storedId = [] := by
      rw [List.filterMap_eq_nil_iff]
      intro e he
      have := hsoft e he
      cases e <;> simp_all [Event.soft, Event.storedId]
    simpa [World.advance, hnil] using h.stored_nodup
  case drawn_by =>
    intro q q' k hq hq'
    rcases List.mem_append.mp hq with hq | hq <;>
      rcases List.mem_append.mp hq' with hq' | hq'
    · exact h.drawn_by q q' k hq hq'
    · exact absurd hq ((hes _ hq').2.2 q)
    · exact absurd hq' ((hes _ hq).2.2 q')
    · exact (hes _ hq).1.trans (hes _ hq').1.symm
  case delivered_stored =>
    intro k hd
    obtain ⟨q, i, hs⟩ := h.delivered_stored k ((hsame rfl).mp hd)
    exact ⟨q, i, hmem hs⟩
  case founded_stored =>
    intro i hf
    obtain ⟨q, k, hs⟩ := h.founded_stored i ((hsame rfl).mp hf)
    exact ⟨q, k, hmem hs⟩
  case presented_known =>
    intro k hp
    have hknown : .delivered k ∈ w.history ∨ ∀ q, .drawn q k ∉ w.history := by
      rcases List.mem_append.mp hp with hp | hp
      · exact h.presented_known k hp
      · exact hes _ hp
    refine hknown.imp hmem fun hnew q hq => ?_
    rcases List.mem_append.mp hq with hq | hq
    · exact hnew q hq
    · rcases List.mem_append.mp hp with hp | hp
      · exact (hes _ hq).2.1 hp
      · -- one event at most, so it is not both a draw and a presentation
        match es, hone with
        | [e], _ =>
            rw [List.mem_singleton] at hq hp
            rw [← hq] at hp
            cases hp
  case rotated_by =>
    intro q q' i hq hq'
    rcases List.mem_append.mp hq with hq | hq <;>
      rcases List.mem_append.mp hq' with hq' | hq'
    · exact h.rotated_by q q' i hq hq'
    · exact absurd hq ((hes _ hq').2.1 q)
    · exact absurd hq' ((hes _ hq).2.1 q')
    · exact (hes _ hq).1.trans (hes _ hq').1.symm
  case rotated_stored =>
    intro q i hq
    have hold : ∃ q' k, .stored q' k i ∈ w.history := by
      rcases List.mem_append.mp hq with hq | hq
      · exact h.rotated_stored q i hq
      · exact (hes _ hq).2.2.1
    obtain ⟨q', k, hs⟩ := hold
    exact ⟨q', k, hmem hs⟩
  case succeeded_phase =>
    intro q v i n hs
    obtain ⟨hp, hr, q', hq'⟩ := h.succeeded_phase q v i n ((hsame rfl).mp hs)
    refine ⟨?_, hmem hr, q', hmem hq'⟩
    by_cases heq : q = r
    · subst heq
      simpa [World.advance] using hdone v n hp
    · simpa [World.advance, heq] using hp
  case revoked_founded =>
    intro F hF
    rcases List.mem_append.mp hF with hF | hF
    · exact hmem (h.revoked_founded F hF)
    · exact hmem (hes _ hF)
  case phase_ok =>
    exact phases_advance hnext fun q _ => (h.phase_ok q).soft hret hsoft
  case window_alone => exact windows_advance h hwin

/-! ## Inserting a row -/

/-- Another request keeps what it holds when `r` inserts a row for a value it
drew: the row's id and hash are new, and if its family has an open window, the
window is `r`'s. -/
theorem PhaseOk.insert {w : World} {db' : AuthDb} {r q : ℕ} {es : List Event}
    {token : NewRefreshToken} (h : Inv auth w) (hq : q ≠ r)
    (hdb : db'.refresh_tokens = w.db.refresh_tokens.insert token.row)
    (hdrawn : .drawn r token.token_hash ∈ w.history)
    (hstored : ∀ q' k i, .stored q' k i ∈ es → k = token.token_hash)
    (hfounded : ∀ i, .founded i ∉ es)
    (hdelivered : ∀ k, .delivered k ∈ es → k = token.token_hash)
    (hwin : ∀ F, (w.phase q).window = some F → token.row.family_id ≠ F) :
    PhaseOk auth db' (w.history ++ es) q (w.phase q) := by
  have hmem : ∀ {e}, e ∈ w.history → e ∈ w.history ++ es :=
    fun he => List.mem_append_left es he
  have hrow : ∀ {i s}, (i, s) ∈ db'.refresh_tokens.rows →
      (i, s) ∈ w.db.refresh_tokens.rows ∨
        (i = w.db.refresh_tokens.nextId ∧ s = token.row) := by
    intro i s hs
    rw [hdb, Table.mem_insert] at hs
    simpa [Prod.ext_iff] using hs
  have hold : ∀ {q' k i}, .stored q' k i ∈ w.history →
      i ≠ w.db.refresh_tokens.nextId := by
    intro q' k i hs heq
    have := (h.stored_le q' k i hs).2
    simp only [heq, Table.nextId] at this
    omega
  have hmine : ∀ {k}, .drawn q k ∈ w.history → k ≠ token.token_hash :=
    fun hk heq => hq (h.drawn_by q r _ (heq ▸ hk) hdrawn)
  apply (h.phase_ok q).lift hmem
  case hun =>
    intro v t hu
    refine ⟨hu.token_hash, hmem hu.drawn, fun q' i hs => ?_⟩
    rcases List.mem_append.mp hs with hs | hs
    · exact hu.not_stored q' i hs
    · exact hmine hu.drawn (hstored _ _ _ hs)
  case hlo =>
    intro v i t hl
    refine ⟨hl.stored.imp fun _ => hmem, hmem hl.founded, fun s hs => ?_⟩
    obtain ⟨q', hq'⟩ := hl.stored
    rcases hrow hs with hs | ⟨heq, _⟩
    · exact hl.row s hs
    · exact absurd heq (hold hq')
  case hwi =>
    intro v i t hopen _ hw
    refine ⟨hmem hw.rotated, fun j s hs hsF => ?_⟩
    rcases hrow hs with hs | ⟨_, rfl⟩
    · exact hw.closed j s hs hsF
    · exact absurd hsF (hwin _ hopen)
  case hset =>
    intro v i hph
    have hp := h.phase_ok q
    rw [hph] at hp ⊢
    obtain ⟨hs, hf, hd, hr⟩ := hp
    refine ⟨hmem hs, fun hc => ?_, fun hc => ?_, fun s hs' => ?_⟩
    · exact (List.mem_append.mp hc).elim hf (hfounded i)
    · rcases List.mem_append.mp hc with hc | hc
      · exact hd hc
      · exact hmine (h.stored_drawn _ _ _ hs) (hdelivered _ hc)
    · rcases hrow hs' with hs' | ⟨heq, _⟩
      · exact hr s hs'
      · exact absurd heq (hold hs)

/-- The events after the insert itself: none for a login, the delivery of the
successor for a refresh. -/
def Follows (auth : AuthContext) (w : World) (r : ℕ) (token : NewRefreshToken)
    (next : Phase) : Event → Prop
  | .delivered h => h = token.token_hash ∧ token.row.family_id ≠ 0
  | .succeeded q value id new => q = r ∧ next = .refreshed value new ∧
      .rotated r id ∈ w.history ∧
      ∃ q', .stored q' (auth.hashRefreshToken value) id ∈ w.history
  | _ => False

/-- The events an insert logs. -/
def Event.inserted : Event → Bool
  | .stored _ _ _ => true
  | .delivered _ => true
  | .succeeded _ _ _ _ => true
  | _ => false

/-- **Inserts keep the invariant**, when the new row's family has no redeemable
row and no other request has a window on it. -/
theorem Inv.insert {w : World} {db' : AuthDb} {r id : ℕ} {next : Phase}
    {token : NewRefreshToken} {value : String} {es : List Event}
    (h : Inv auth w) (hins : insertRefreshToken w.db token = .ok (db', id))
    (hnew : Unstored auth w.history r value token)
    (hfam : token.row.family_id = 0 ∨ .founded token.row.family_id ∈ w.history)
    (hclosed : token.row.family_id ≠ 0 → ∀ i s,
      (i, s) ∈ w.db.refresh_tokens.rows → s.family_id = token.row.family_id →
        s.redeemable = false)
    (hwin : ∀ q ≠ r, ∀ F, (w.phase q).window = some F → token.row.family_id ≠ F)
    (hes : ∀ e ∈ es, Follows auth w r token next e)
    (hlive : ∀ v n, w.phase r ≠ .refreshed v n)
    (hnext : PhaseOk auth db'
      (w.history ++ .stored r token.token_hash id :: es) r next)
    (hnone : next.window = none) :
    Inv auth (w.advance r db' next (.stored r token.token_hash id :: es)) := by
  obtain ⟨rfl, _, hdb, hhash, _⟩ := insertRefreshToken_ok hins
  have hdrawn : .drawn r token.token_hash ∈ w.history :=
    hnew.token_hash ▸ hnew.drawn
  have hunst : ∀ q i, .stored q token.token_hash i ∉ w.history :=
    hnew.token_hash ▸ hnew.not_stored
  have hmem : ∀ {e}, e ∈ w.history →
      e ∈ w.history ++ .stored r token.token_hash w.db.refresh_tokens.nextId :: es :=
    fun he => List.mem_append_left _ he
  have hlater : ∀ {q k i}, .stored q k i ∈ es → False := fun he => hes _ he
  have hstored : ∀ {q k i}, .stored q k i ∈
      w.history ++ .stored r token.token_hash w.db.refresh_tokens.nextId :: es →
      .stored q k i ∈ w.history ∨ (q = r ∧ k = token.token_hash ∧
        i = w.db.refresh_tokens.nextId) := by
    intro q k i hs
    rcases List.mem_append.mp hs with hs | hs
    · exact .inl hs
    · rcases List.mem_cons.mp hs with hs | hs
      · cases hs
        exact .inr ⟨rfl, rfl, rfl⟩
      · exact (hlater hs).elim
  have hrow : ∀ {i s}, (i, s) ∈ db'.refresh_tokens.rows →
      (i, s) ∈ w.db.refresh_tokens.rows ∨
        (i = w.db.refresh_tokens.nextId ∧ s = token.row) := by
    intro i s hs
    rw [hdb, Table.mem_insert] at hs
    simpa [Prod.ext_iff] using hs
  have hseq : db'.refresh_tokens.seq = w.db.refresh_tokens.nextId := by
    rw [hdb, Table.seq_insert]
  have hlt : ∀ {q k i}, .stored q k i ∈ w.history →
      i ≠ w.db.refresh_tokens.nextId := by
    intro q k i hs heq
    have := (h.stored_le q k i hs).2
    simp only [heq, Table.nextId] at this
    omega
  have hkeep : ∀ {e : Event}, e.inserted = false →
      e ∈ w.history ++ .stored r token.token_hash w.db.refresh_tokens.nextId :: es →
      e ∈ w.history := by
    intro e hkind he
    rcases List.mem_append.mp he with he | he
    · exact he
    · rcases List.mem_cons.mp he with rfl | he
      · cases hkind
      · have hfollows := hes e he
        cases e <;> first | exact hfollows.elim | cases hkind
  constructor
  case row_stored =>
    intro i s hs
    rcases hrow hs with hs | ⟨rfl, rfl⟩
    · exact (h.row_stored i s hs).imp fun _ => hmem
    · exact ⟨r, List.mem_append_right _ List.mem_cons_self⟩
  case row_family =>
    intro i s hs
    rcases hrow hs with hs | ⟨rfl, rfl⟩
    · exact (h.row_family i s hs).imp_right hmem
    · exact hfam.imp_right hmem
  case one_redeemable =>
    intro i s j t hs ht hF hne hrs hrt
    rcases hrow hs with hs | ⟨rfl, rfl⟩ <;> rcases hrow ht with ht | ⟨rfl, rfl⟩
    · exact h.one_redeemable i s j t hs ht hF hne hrs hrt
    · simp [hclosed (hF ▸ hne) i s hs hF] at hrs
    · simp [hclosed hne j t ht hF.symm] at hrt
    · rfl
  case row_rotated =>
    intro q i s hq hs
    have hq := hkeep rfl hq
    rcases hrow hs with hs | ⟨rfl, rfl⟩
    · exact h.row_rotated q i s hq hs
    · obtain ⟨q', k, hk⟩ := h.rotated_stored q _ hq
      exact absurd rfl (hlt hk)
  case row_delivered =>
    intro i s hs hd
    rcases List.mem_append.mp hd with hd | hd
    · rcases hrow hs with hs | ⟨rfl, rfl⟩
      · exact h.row_delivered i s hs hd
      · obtain ⟨q, j, hj⟩ := h.delivered_stored _ hd
        exact absurd hj (hunst q j)
    · rcases List.mem_cons.mp hd with hd | hd
      · cases hd
      · obtain ⟨hk, hne⟩ := hes _ hd
        rcases hrow hs with hs | ⟨rfl, rfl⟩
        · exact absurd hk (hhash i s hs)
        · exact hne
  case stored_le =>
    intro q k i hs
    rw [show (w.advance r db' next _).db = db' from rfl, hseq]
    rcases hstored hs with hs | ⟨_, _, rfl⟩
    · have := h.stored_le q k i hs
      exact ⟨this.1, Nat.le_succ_of_le this.2⟩
    · exact ⟨Nat.succ_pos _, Nat.le_refl _⟩
  case stored_drawn =>
    intro q k i hs
    rcases hstored hs with hs | ⟨rfl, rfl, _⟩
    · exact hmem (h.stored_drawn q k i hs)
    · exact hmem hdrawn
  case stored_id =>
    intro q k q' k' i hs hs'
    rcases hstored hs with h₁ | ⟨rfl, rfl, rfl⟩ <;>
      rcases hstored hs' with h₂ | ⟨rfl, rfl, hi⟩
    · exact h.stored_id q k q' k' i h₁ h₂
    · exact absurd hi (hlt h₁)
    · exact absurd rfl (hlt h₂)
    · exact ⟨rfl, rfl⟩
  case stored_hash =>
    intro q q' k i j hs hs'
    rcases hstored hs with h₁ | ⟨rfl, rfl, rfl⟩ <;>
      rcases hstored hs' with h₂ | ⟨rfl, hk, rfl⟩
    · exact h.stored_hash q q' k i j h₁ h₂
    · exact absurd (hk ▸ h₁) (hunst q i)
    · exact absurd h₂ (hunst q' j)
    · rfl
  case stored_nodup =>
    have hnil : es.filterMap Event.storedId = [] := by
      rw [List.filterMap_eq_nil_iff]
      intro e he
      have := hes e he
      cases e <;> simp_all [Follows, Event.storedId]
    simp only [World.advance, List.filterMap_append, List.filterMap_cons,
      Event.storedId, hnil]
    refine List.nodup_append.mpr ⟨h.stored_nodup, List.nodup_singleton _, ?_⟩
    intro i hi j hj
    obtain ⟨e, he, hei⟩ := List.mem_filterMap.mp hi
    rw [List.mem_singleton.mp hj]
    cases e <;> simp only [Event.storedId, Option.some.injEq, reduceCtorEq] at hei
    exact hei ▸ hlt he
  case drawn_by =>
    intro q q' k hq hq'
    exact h.drawn_by q q' k (hkeep rfl hq)
      (hkeep rfl hq')
  case delivered_stored =>
    intro k hd
    rcases List.mem_append.mp hd with hd | hd
    · obtain ⟨q, i, hs⟩ := h.delivered_stored k hd
      exact ⟨q, i, hmem hs⟩
    · rcases List.mem_cons.mp hd with hd | hd
      · cases hd
      · obtain ⟨rfl, _⟩ := hes _ hd
        exact ⟨r, _, List.mem_append_right _ List.mem_cons_self⟩
  case founded_stored =>
    intro i hf
    obtain ⟨q, k, hs⟩ := h.founded_stored i (hkeep rfl hf)
    exact ⟨q, k, hmem hs⟩
  case presented_known =>
    intro k hp
    rcases h.presented_known k (hkeep rfl hp) with hd | hd
    · exact .inl (hmem hd)
    · exact .inr fun q hq => hd q (hkeep rfl hq)
  case rotated_by =>
    intro q q' i hq hq'
    exact h.rotated_by q q' i (hkeep rfl hq)
      (hkeep rfl hq')
  case rotated_stored =>
    intro q i hq
    obtain ⟨q', k, hs⟩ := h.rotated_stored q i (hkeep rfl hq)
    exact ⟨q', k, hmem hs⟩
  case succeeded_phase =>
    intro q v i n hs
    rcases List.mem_append.mp hs with hs | hs
    · obtain ⟨hp, hr, q', hq'⟩ := h.succeeded_phase q v i n hs
      have hne : q ≠ r := fun heq => hlive v n (heq ▸ hp)
      exact ⟨by simpa [World.advance, hne] using hp, hmem hr, q', hmem hq'⟩
    · rcases List.mem_cons.mp hs with hs | hs
      · cases hs
      · obtain ⟨rfl, hn, hr, q', hq'⟩ := hes _ hs
        exact ⟨by simpa [World.advance] using hn, hmem hr, q', hmem hq'⟩
  case revoked_founded =>
    intro F hF
    exact hmem (h.revoked_founded F (hkeep rfl hF))
  case phase_ok =>
    refine phases_advance hnext fun q hq => PhaseOk.insert h hq hdb hdrawn ?_ ?_ ?_
      (hwin q hq)
    · intro q' k i hs
      rcases List.mem_cons.mp hs with hs | hs
      · cases hs
        rfl
      · exact (hlater hs).elim
    · intro i hf
      rcases List.mem_cons.mp hf with hf | hf
      · cases hf
      · exact hes _ hf
    · intro k hd
      rcases List.mem_cons.mp hd with hd | hd
      · cases hd
      · exact (hes _ hd).1
  case window_alone =>
    exact windows_advance h (by simp [hnone])

/-! ## Rewriting the placeholder family -/

/-- The events that founding a family logs. -/
def Event.founds : Event → Bool
  | .founded _ => true
  | .delivered _ => true
  | _ => false

/-- The events after a founding: the old ones and the two it logs. -/
theorem mem_founding {history : List Event} {id : ℕ} {k : String} {e : Event} :
    e ∈ history ++ [.founded id, .delivered k] ↔
      e ∈ history ∨ e = .founded id ∨ e = .delivered k := by
  simp

theorem mem_of_founding {history : List Event} {id : ℕ} {k : String} {e : Event}
    (hkind : e.founds = false) (he : e ∈ history ++ [.founded id, .delivered k]) :
    e ∈ history := by
  rcases mem_founding.mp he with he | rfl | rfl
  · exact he
  · cases hkind
  · cases hkind

theorem founded_of_founding {history : List Event} {i id : ℕ} {k : String} (hi : i ≠ id)
    (hf : .founded i ∈ history ++ [.founded id, .delivered k]) :
    .founded i ∈ history := by
  rcases mem_founding.mp hf with hf | heq | heq
  · exact hf
  · exact absurd (Event.founded.inj heq) hi
  · cases heq

theorem delivered_of_founding {history : List Event} {id : ℕ} {k k' : String}
    (hk : k' ≠ k) (hd : .delivered k' ∈ history ++ [.founded id, .delivered k]) :
    .delivered k' ∈ history := by
  rcases mem_founding.mp hd with hd | heq | heq
  · exact hd
  · cases heq
  · exact absurd (Event.delivered.inj heq) hk

/-- The rewrite changes the family of one row and nothing else. -/
theorem row_setFamilyId {db : AuthDb} {id i : ℕ} {s : RefreshToken}
    (hs : (i, s) ∈ (setFamilyId db id).refresh_tokens.rows) :
    ∃ s₀, (i, s₀) ∈ db.refresh_tokens.rows ∧ s.token_hash = s₀.token_hash ∧
      s.rotated_at = s₀.rotated_at ∧ s.redeemable = s₀.redeemable ∧
      ((i = id ∧ s.family_id = id) ∨ (i ≠ id ∧ s.family_id = s₀.family_id)) := by
  obtain ⟨s₀, hs₀, rfl⟩ := mem_setFamilyId.mp hs
  refine ⟨s₀, hs₀, ?_⟩
  by_cases hi : i = id <;> simp [hi, RefreshToken.redeemable]

/-- Another request keeps what it holds when `r` founds a family: the families
it relies on were founded before. -/
theorem PhaseOk.setFamily {w : World} {r q id : ℕ} {value : String} (h : Inv auth w)
    (hq : q ≠ r) (hr : w.phase r = .setFamily value id) :
    PhaseOk auth (setFamilyId w.db id)
      (w.history ++ [.founded id, .delivered (auth.hashRefreshToken value)]) q
      (w.phase q) := by
  have hp := h.phase_ok r
  rw [hr] at hp
  obtain ⟨hmine, hnf, _, hzero⟩ := hp
  have hmem : ∀ {e}, e ∈ w.history → e ∈ w.history ++
      [.founded id, .delivered (auth.hashRefreshToken value)] :=
    fun he => List.mem_append_left _ he
  apply (h.phase_ok q).lift hmem
  case hun =>
    intro v t hu
    refine ⟨hu.token_hash, hmem hu.drawn, fun q' i hs => ?_⟩
    exact hu.not_stored q' i (mem_of_founding rfl hs)
  case hlo =>
    intro v i t hl
    refine ⟨hl.stored.imp fun _ => hmem, hmem hl.founded, fun s hs => ?_⟩
    obtain ⟨s₀, hs₀, _, _, _, ⟨rfl, _⟩ | ⟨_, hF⟩⟩ := row_setFamilyId hs
    · -- a record read before is in a founded family, this row is in none
      have hpos := (h.founded_pos hl.founded).1
      have hfam := hl.row s₀ hs₀
      have hplaceholder := hzero s₀ hs₀
      omega
    · rw [hF]
      exact hl.row s₀ hs₀
  case hwi =>
    intro v i t _ hl hw
    refine ⟨hmem hw.rotated, fun j s hs hsF => ?_⟩
    obtain ⟨s₀, hs₀, _, _, hred, ⟨_, hF⟩ | ⟨_, hF⟩⟩ := row_setFamilyId hs
    · have hid : t.family_id = id := hsF.symm.trans hF
      exact absurd (hid ▸ hl.founded) hnf
    · rw [hred]
      exact hw.closed j s₀ hs₀ (hF ▸ hsF)
  case hset =>
    intro v i hph
    have hp := h.phase_ok q
    rw [hph] at hp ⊢
    obtain ⟨hs, hf, hd, hz⟩ := hp
    have hi : i ≠ id := fun heq => hq (h.stored_id _ _ _ _ _ (heq ▸ hs) hmine).1
    have hv : auth.hashRefreshToken v ≠ auth.hashRefreshToken value := by
      intro heq
      rw [heq] at hs
      exact hi (h.stored_hash _ _ _ _ _ hs hmine)
    refine ⟨hmem hs, fun hc => hf (founded_of_founding hi hc),
      fun hc => hd (delivered_of_founding hv hc), fun s hs' => ?_⟩
    obtain ⟨s₀, hs₀, _, _, _, ⟨heq, _⟩ | ⟨_, hF⟩⟩ := row_setFamilyId hs'
    · exact absurd heq hi
    · rw [hF]
      exact hz s₀ hs₀

/-- **Founding a family keeps the invariant.** No row carried the new family id
before: an id names a family only once it is founded. -/
theorem Inv.setFamily {w : World} {r id : ℕ} {value : String} (h : Inv auth w)
    (hr : w.phase r = .setFamily value id) :
    Inv auth (w.advance r (setFamilyId w.db id) (.loggedIn value)
      [.founded id, .delivered (auth.hashRefreshToken value)]) := by
  have hp := h.phase_ok r
  rw [hr] at hp
  obtain ⟨hmine, hnf, _, _⟩ := hp
  have hid : id ≠ 0 := by
    have := (h.stored_le _ _ _ hmine).1
    omega
  have hmem : ∀ {e}, e ∈ w.history → e ∈ w.history ++
      [.founded id, .delivered (auth.hashRefreshToken value)] :=
    fun he => List.mem_append_left _ he
  have hother : ∀ {F}, .founded F ∈ w.history → F ≠ id :=
    fun hF heq => hnf (heq ▸ hF)
  have hunused : ∀ {i s}, (i, s) ∈ w.db.refresh_tokens.rows → s.family_id ≠ id := by
    intro i s hs hF
    rcases h.row_family i s hs with h0 | hf
    · exact hid (hF ▸ h0)
    · exact hother hf hF
  constructor
  case row_stored =>
    intro i s hs
    obtain ⟨s₀, hs₀, hh, _⟩ := row_setFamilyId hs
    rw [hh]
    exact (h.row_stored i s₀ hs₀).imp fun _ => hmem
  case row_family =>
    intro i s hs
    obtain ⟨s₀, hs₀, _, _, _, ⟨_, hF⟩ | ⟨_, hF⟩⟩ := row_setFamilyId hs
    · right
      rw [hF]
      exact List.mem_append_right _ List.mem_cons_self
    · rw [hF]
      exact (h.row_family i s₀ hs₀).imp_right hmem
  case one_redeemable =>
    intro i s j t hs ht hF hne hrs hrt
    obtain ⟨s₀, hs₀, _, _, hs1, hsF⟩ := row_setFamilyId hs
    obtain ⟨t₀, ht₀, _, _, ht1, htF⟩ := row_setFamilyId ht
    rcases hsF with ⟨rfl, hsF⟩ | ⟨hsi, hsF⟩ <;>
      rcases htF with ⟨rfl, htF⟩ | ⟨hti, htF⟩
    · rfl
    · exact absurd (by omega) (hunused ht₀)
    · exact absurd (by omega) (hunused hs₀)
    · exact h.one_redeemable i s₀ j t₀ hs₀ ht₀ (by omega) (by omega)
        (hs1 ▸ hrs) (ht1 ▸ hrt)
  case row_rotated =>
    intro q i s hq hs
    obtain ⟨s₀, hs₀, _, hrot, _⟩ := row_setFamilyId hs
    rw [hrot]
    exact h.row_rotated q i s₀ (mem_of_founding rfl hq) hs₀
  case row_delivered =>
    intro i s hs hd
    obtain ⟨s₀, hs₀, hh, _, _, ⟨_, hF⟩ | ⟨hi, hF⟩⟩ := row_setFamilyId hs
    · omega
    · rw [hF]
      apply h.row_delivered i s₀ hs₀
      rw [← hh]
      refine delivered_of_founding (fun heq => hi ?_) hd
      obtain ⟨q, hq⟩ := h.row_stored i s₀ hs₀
      rw [← hh, heq] at hq
      exact h.stored_hash _ _ _ _ _ hq hmine
  case stored_le =>
    intro q k i hs
    exact h.stored_le q k i (mem_of_founding rfl hs)
  case stored_drawn =>
    intro q k i hs
    exact hmem (h.stored_drawn q k i (mem_of_founding rfl hs))
  case stored_id =>
    intro q k q' k' i hs hs'
    exact h.stored_id q k q' k' i (mem_of_founding rfl hs)
      (mem_of_founding rfl hs')
  case stored_hash =>
    intro q q' k i j hs hs'
    exact h.stored_hash q q' k i j (mem_of_founding rfl hs)
      (mem_of_founding rfl hs')
  case stored_nodup =>
    simpa [World.advance, List.filterMap_cons, Event.storedId] using h.stored_nodup
  case drawn_by =>
    intro q q' k hq hq'
    exact h.drawn_by q q' k (mem_of_founding rfl hq)
      (mem_of_founding rfl hq')
  case delivered_stored =>
    intro k hd
    by_cases hk : k = auth.hashRefreshToken value
    · exact ⟨r, id, hmem (hk ▸ hmine)⟩
    · obtain ⟨q, i, hs⟩ := h.delivered_stored k (delivered_of_founding hk hd)
      exact ⟨q, i, hmem hs⟩
  case founded_stored =>
    intro i hf
    by_cases hi : i = id
    · exact ⟨r, _, hmem (hi ▸ hmine)⟩
    · obtain ⟨q, k, hs⟩ := h.founded_stored i (founded_of_founding hi hf)
      exact ⟨q, k, hmem hs⟩
  case presented_known =>
    intro k hp
    rcases h.presented_known k (mem_of_founding rfl hp) with hd | hd
    · exact .inl (hmem hd)
    · exact .inr fun q hq => hd q (mem_of_founding rfl hq)
  case rotated_by =>
    intro q q' i hq hq'
    exact h.rotated_by q q' i (mem_of_founding rfl hq)
      (mem_of_founding rfl hq')
  case rotated_stored =>
    intro q i hq
    obtain ⟨q', k, hs⟩ := h.rotated_stored q i (mem_of_founding rfl hq)
    exact ⟨q', k, hmem hs⟩
  case succeeded_phase =>
    intro q v i n hs
    obtain ⟨hp, hrot, q', hq'⟩ := h.succeeded_phase q v i n
      (mem_of_founding rfl hs)
    have hne : q ≠ r := by
      rintro rfl
      rw [hr] at hp
      cases hp
    exact ⟨by simpa [World.advance, hne] using hp, hmem hrot, q', hmem hq'⟩
  case revoked_founded =>
    intro F hF
    exact hmem (h.revoked_founded F (mem_of_founding rfl hF))
  case phase_ok =>
    exact phases_advance trivial fun q hq => PhaseOk.setFamily h hq hr
  case window_alone =>
    exact windows_advance h (by simp [Phase.window])

/-! ## Every step -/

theorem not_drew {history : List Event} {k : String} :
    history.any (Event.drew k) = false ↔ ∀ q, .drawn q k ∉ history := by
  rw [List.any_eq_false]
  constructor
  · intro h q hq
    exact h _ hq (by simp [Event.drew])
  · intro h e he hd
    cases e <;> simp only [Event.drew, beq_iff_eq, Bool.false_eq_true] at hd
    exact h _ (hd ▸ he)

theorem fresh_iff {history : List Event} {k : String} :
    fresh history k = true ↔
      .presented k ∉ history ∧ ∀ q, .drawn q k ∉ history := by
  simp only [fresh, Bool.and_eq_true, Bool.not_eq_true', not_drew]
  simp [and_comm]

theorem presentable_iff {history : List Event} {k : String} :
    presentable history k = true ↔
      .delivered k ∈ history ∨ ∀ q, .drawn q k ∉ history := by
  simp only [presentable, Bool.or_eq_true, Bool.not_eq_true', not_drew]
  simp

theorem Inv.start {w : World} {r : ℕ} {request : SessionRequest} {env : Env}
    (h : Inv auth w) (hidle : w.phase r = .idle)
    (hadm : admissible auth w.history request = true)
    (hfresh : freshDraws w.history (arrival auth r request env) = true) :
    Inv auth (w.advance r w.db (begin auth env request)
      (arrival auth r request env)) := by
  have hdone : ∀ {next : Phase} v n, w.phase r = .refreshed v n →
      next = .refreshed v n := by simp [hidle]
  cases request with
  | login user_id =>
      have hnew := fresh_iff.mp (by
        simpa [freshDraws, arrival, SessionRequest.value?, begin, Phase.draws]
          using hfresh)
      refine h.soft (.refl _) ?_ (by simp [arrival, SessionRequest.value?, begin,
        Phase.draws]) hdone ?_ (by simp [begin, Phase.window])
      · intro e he
        rw [List.mem_singleton.mp he]
        exact ⟨rfl, hnew⟩
      · refine ⟨⟨rfl, List.mem_append_right _ List.mem_cons_self, ?_⟩, rfl⟩
        intro q i hs
        refine hnew.2 q (h.stored_drawn q _ i ?_)
        simpa [arrival, SessionRequest.value?, begin, Phase.draws] using hs
  | refresh value =>
      refine h.soft (.refl _) ?_ (by simp [arrival, SessionRequest.value?]) hdone
        (List.mem_append_right _ List.mem_cons_self) (by simp [begin, Phase.window])
      intro e he
      rw [List.mem_singleton.mp he]
      exact presentable_iff.mp hadm
  | logout user_id value =>
      refine h.soft (.refl _) ?_ (by simp [arrival, SessionRequest.value?]) hdone ?_ ?_
      · intro e he
        rw [List.mem_singleton.mp he]
        exact presentable_iff.mp hadm
      · simp only [begin]
        split
        · trivial
        · rename_i value' hv
          have : value' = value := by
            unfold sanitizeRefreshTokenOpt at hv
            split at hv <;> cases hv
            rfl
          subst this
          exact List.mem_append_right _ List.mem_cons_self
      · simp only [begin]
        split <;> simp [Phase.window]
  | logoutAll user_id =>
      exact h.soft (.refl _) (by simp [arrival, SessionRequest.value?, begin,
        Phase.draws]) (by simp [arrival, SessionRequest.value?, begin, Phase.draws])
        hdone trivial (by simp [begin, Phase.window])

/-- A step that logs nothing and holds no window after it. -/
theorem Inv.quiet {w : World} {db' : AuthDb} {r : ℕ} {next : Phase}
    (h : Inv auth w) (hret : Retires w.db db')
    (hlive : ∀ v n, w.phase r ≠ .refreshed v n)
    (hnext : PhaseOk auth db' w.history r next) (hnone : next.window = none) :
    Inv auth (w.advance r db' next []) :=
  h.soft hret (by simp) (by simp) (fun v n he => absurd he (hlive v n))
    (by simpa using hnext) (by simp [hnone])

theorem phaseOk_afterPrune {db : AuthDb} {history : List Event} {q : ℕ}
    {value : String} {now : ℤ}
    (h : .presented (auth.hashRefreshToken value) ∈ history) :
    PhaseOk auth db history q (afterPrune value now) := by
  unfold afterPrune sanitizeRefreshToken
  split <;> rename_i hs <;> split at hs <;> cases hs
  · trivial
  · exact h

theorem window_afterPrune (value : String) (now : ℤ) :
    (afterPrune value now).window = none := by
  unfold afterPrune
  split <;> rfl

theorem Inv.fail {w : World} {r : ℕ} {next : Phase} (h : Inv auth w)
    (hf : failure (w.phase r) = some next) :
    Inv auth (w.advance r w.db next []) := by
  have hp := h.phase_ok r
  refine h.quiet (.refl _) ?_ ?_ ?_ <;>
    cases hph : w.phase r <;> rw [hph] at hf hp <;> cases hf <;>
    first | exact phaseOk_afterPrune hp | exact window_afterPrune _ _ | trivial | simp

/-- A login's insert: the row is in the placeholder family, its value unknown. -/
theorem Inv.insertLogin {w : World} {r id : ℕ} {value : String} {token : NewRefreshToken}
    {db' : AuthDb} (h : Inv auth w) (hph : w.phase r = .insertLogin value token)
    (hins : insertRefreshToken w.db token = .ok (db', id)) :
    Inv auth (w.advance r db' (.setFamily value id) [.stored r token.token_hash id]) := by
  have hp := h.phase_ok r
  rw [hph] at hp
  obtain ⟨hnew, hnone⟩ := hp
  have hzero : token.row.family_id = 0 := by simp [NewRefreshToken.row, hnone]
  obtain ⟨rfl, _, hdb, hhash, _⟩ := insertRefreshToken_ok hins
  have hwin : ∀ q ≠ r, ∀ F, (w.phase q).window = some F → token.row.family_id ≠ F := by
    intro q _ F hF
    rw [hzero]
    -- a window is on a founded family
    have hq := h.phase_ok q
    cases hpq : w.phase q <;> rw [hpq] at hF hq <;> cases hF
    · have hpos := (h.founded_pos hq.1.founded).1
      omega
    · have hpos := (h.founded_pos hq.1.founded).1
      omega
  refine h.insert hins hnew (.inl hzero) (fun hne => absurd hzero hne) hwin (by simp)
    (by simp [hph]) ?_ rfl
  refine ⟨hnew.token_hash ▸ List.mem_append_right _ List.mem_cons_self, ?_, ?_, ?_⟩
  · intro hc
    have hle := (h.founded_pos (by simpa using hc)).2
    simp only [Table.nextId] at hle
    omega
  · intro hc
    obtain ⟨q, i, hq⟩ := h.delivered_stored _ (by simpa using hc)
    exact hnew.not_stored q i hq
  · intro s hs
    rw [hdb] at hs
    rcases Table.mem_insert.mp hs with hs | hs
    · exact absurd hs Table.not_mem_nextId
    · cases hs
      exact hzero

/-- The lookup finds a delivered row, whose family is founded. -/
theorem Inv.find {w : World} {r : ℕ} {value : String} {now : ℤ} (h : Inv auth w)
    (hph : w.phase r = .find value now) :
    Inv auth (w.advance r w.db (afterFind value now
      (findRefreshTokenByHash w.db (auth.hashRefreshToken value))) []) := by
  have hp := h.phase_ok r
  rw [hph] at hp
  refine h.quiet (.refl _) (by simp [hph]) ?_ ?_
  · cases hfind : findRefreshTokenByHash w.db (auth.hashRefreshToken value) with
    | none => trivial
    | some p =>
        obtain ⟨id, record⟩ := p
        obtain ⟨hmem, hhash⟩ := findRefreshTokenByHash_some hfind
        have hl := h.looked hp hmem hhash
        simp only [afterFind]
        split
        · trivial
        split
        · exact hl.founded
        split
        · trivial
        · exact hl
  · unfold afterFind
    split
    · rfl
    · repeat (split; · rfl)
      rfl

/-- **Winning the compare-and-swap opens the family's window**: the redeemable
row it retires was the family's only one, so nobody else has a window there. -/
theorem Inv.rotate {w : World} {r id : ℕ} {value : String} {record : RefreshToken}
    {now : ℤ} (h : Inv auth w) (hph : w.phase r = .rotate value id record now)
    (hwon : (rotateRefreshToken w.db id now).2 = true) :
    Inv auth (w.advance r (rotateRefreshToken w.db id now).1
      (.findUser value id record now) [.rotated r id]) := by
  have hp := h.phase_ok r
  rw [hph] at hp
  obtain ⟨s, hs, hred⟩ := rotateRefreshToken_wins.mp hwon
  have hsF : s.family_id = record.family_id := hp.row s hs
  have hne : record.family_id ≠ 0 := by
    have hpos := (h.founded_pos hp.founded).1
    omega
  have hrot : ∀ t, (id, t) ∈ (rotateRefreshToken w.db id now).1.refresh_tokens.rows →
      t.rotated_at.isSome = true := by
    intro t ht
    obtain ⟨t₀, ht₀, rfl⟩ := mem_rotateRefreshToken.mp ht
    rw [Table.eq_of_mem ht₀ hs]
    simp [hred]
  have hclosed : ∀ i t, (i, t) ∈ (rotateRefreshToken w.db id now).1.refresh_tokens.rows →
      t.family_id = record.family_id → t.redeemable = false := by
    intro i t ht htF
    by_cases hi : i = id
    · subst hi
      exact rotate_not_redeemable ht
    · obtain ⟨t₀, ht₀, rfl⟩ := mem_rotateRefreshToken.mp ht
      simp only [hi, false_and, if_false] at htF ⊢
      by_contra hr
      exact hi (h.one_redeemable i t₀ id s ht₀ hs (htF.trans hsF.symm)
        (htF ▸ hne) (by simpa using hr) hred)
  have hlooked : Looked auth (rotateRefreshToken w.db id now).1
      (w.history ++ [.rotated r id]) value id record := by
    refine ⟨hp.stored.imp fun _ hq => List.mem_append_left _ hq,
      List.mem_append_left _ hp.founded, fun t ht => ?_⟩
    obtain ⟨t₀, ht₀, hage⟩ := (retires_rotate _ _ _).row _ _ ht
    exact hage.family_id.trans (hp.row t₀ ht₀)
  apply h.soft (retires_rotate _ _ _)
  case hes =>
    intro e he
    rw [List.mem_singleton.mp he]
    refine ⟨rfl, fun q hq => ?_, ?_, hrot⟩
    · have hrs := h.row_rotated q id s hq hs
      rw [RefreshToken.redeemable_iff] at hred
      simp [hred.1] at hrs
    · obtain ⟨q, hq⟩ := hp.stored
      exact ⟨q, _, hq⟩
  case hone => simp
  case hdone => simp [hph]
  case hnext => exact ⟨hlooked, List.mem_append_right _ List.mem_cons_self, hclosed⟩
  case hwin =>
    intro F hF q hq hqF
    simp only [Phase.window, Option.some.injEq] at hF
    subst hF
    have hpq := h.phase_ok q
    -- a window on this family would have no redeemable row left to win
    cases hph' : w.phase q <;> rw [hph'] at hqF hpq <;>
      simp only [Phase.window, Option.some.injEq, reduceCtorEq] at hqF
    · simp [hpq.2.closed id s hs (hsF.trans hqF.symm)] at hred
    · simp [hpq.2.1.closed id s hs (hsF.trans hqF.symm)] at hred

/-- The account is there: the successor's value is drawn. -/
theorem Inv.draw {w : World} {r id user_id : ℕ} {value mint : String}
    {record : RefreshToken} {now now' : ℤ} (h : Inv auth w)
    (hph : w.phase r = .findUser value id record now)
    (hnew : fresh w.history (auth.hashRefreshToken mint) = true) :
    Inv auth (w.advance r w.db (.insertSuccessor value id record mint
        (newRefreshToken auth user_id (some record.family_id) mint now'))
      [.drawn r (auth.hashRefreshToken mint)]) := by
  have hfresh := fresh_iff.mp hnew
  have hp := h.phase_ok r
  have hok : PhaseOk auth w.db (w.history ++ [.drawn r (auth.hashRefreshToken mint)]) r
      (w.phase r) := hp.soft (.refl _) (by simp [Event.soft])
  rw [hph] at hok
  apply h.soft (.refl _)
  case hes =>
    intro e he
    rw [List.mem_singleton.mp he]
    exact ⟨rfl, hfresh⟩
  case hone => simp
  case hdone => simp [hph]
  case hnext =>
    refine ⟨hok.1, hok.2, ⟨rfl, List.mem_append_right _ List.mem_cons_self, ?_⟩, rfl⟩
    intro q i hq
    exact hfresh.2 q (h.stored_drawn q _ i (by simpa using hq))
  case hwin =>
    intro F hF q hq hqF
    exact hq (h.window_alone q r F hqF (by rw [hph]; exact hF))

/-- The successor's insert closes the window. -/
theorem Inv.insertSuccessor {w : World} {r id new_id : ℕ} {value new : String}
    {record : RefreshToken} {token : NewRefreshToken} {db' : AuthDb} (h : Inv auth w)
    (hph : w.phase r = .insertSuccessor value id record new token)
    (hins : insertRefreshToken w.db token = .ok (db', new_id)) :
    Inv auth (w.advance r db' (.refreshed value new)
      [.stored r token.token_hash new_id, .succeeded r value id new,
        .delivered (auth.hashRefreshToken new)]) := by
  have hp := h.phase_ok r
  rw [hph] at hp
  obtain ⟨hl, hw, hnew, hfam⟩ := hp
  have hF : token.row.family_id = record.family_id := by
    simp [NewRefreshToken.row, hfam]
  apply h.insert hins hnew (.inr (hF ▸ hl.founded)) (fun _ => hF ▸ hw.closed)
  case hwin =>
    intro q hq F hqF heq
    exact hq (h.window_alone q r F hqF (by simp [hph, Phase.window, ← heq, hF]))
  case hes =>
    intro e he
    simp only [List.mem_cons, List.not_mem_nil, or_false] at he
    rcases he with rfl | rfl
    · exact ⟨rfl, rfl, hw.rotated, hl.stored⟩
    · have hpos := (h.founded_pos hl.founded).1
      exact ⟨hnew.token_hash.symm, by omega⟩
  case hlive => simp [hph]
  case hnext => exact ⟨id, by simp⟩
  case hnone => rfl

/-- Revoking a founded family. -/
theorem Inv.revoke {w : World} {r family_id : ℕ} {now : ℤ} {next : Phase}
    (h : Inv auth w) (hfounded : .founded family_id ∈ w.history)
    (hlive : ∀ v n, w.phase r ≠ .refreshed v n)
    (hnext : ∀ db history, PhaseOk auth db history r next) (hnone : next.window = none) :
    Inv auth (w.advance r (revokeRefreshTokenFamily w.db family_id now) next
      [.revoked family_id]) := by
  apply h.soft (retires_revokeFamily _ _ _)
  case hes =>
    intro e he
    rw [List.mem_singleton.mp he]
    exact hfounded
  case hone => simp
  case hdone => exact fun v n he => absurd he (hlive v n)
  case hnext => exact hnext _ _
  case hwin => simp [hnone]

theorem Inv.findLogout {w : World} {r user_id : ℕ} {value : String} {now : ℤ}
    (h : Inv auth w) (hph : w.phase r = .findLogout user_id value now) :
    Inv auth (w.advance r w.db (afterFindLogout user_id now
      (findRefreshTokenByHash w.db (auth.hashRefreshToken value))) []) := by
  have hp := h.phase_ok r
  rw [hph] at hp
  refine h.quiet (.refl _) (by simp [hph]) ?_ ?_
  · cases hfind : findRefreshTokenByHash w.db (auth.hashRefreshToken value) with
    | none => trivial
    | some p =>
        obtain ⟨id, record⟩ := p
        obtain ⟨hmem, hhash⟩ := findRefreshTokenByHash_some hfind
        simp only [afterFindLogout]
        split
        · exact (h.looked hp hmem hhash).founded
        · trivial
  · unfold afterFindLogout
    split
    · rfl
    · split <;> rfl

/-- **Every statement keeps the invariant**, one lemma for each. -/
theorem Inv.exec {w : World} {r : ℕ} {env : Env} {db' : AuthDb} {next : Phase}
    {es : List Event} (h : Inv auth w)
    (hs : statement auth env r w.db (w.phase r) = some (db', next, es))
    (hfresh : freshDraws w.history es = true) :
    Inv auth (w.advance r db' next es) := by
  have hp := h.phase_ok r
  have hlive : ∀ v n, w.phase r ≠ .refreshed v n := by
    intro v n heq
    rw [heq] at hs
    cases hs
  cases hph : w.phase r <;> rw [hph] at hs hp <;> simp only [statement] at hs
  case insertLogin value token =>
    split at hs <;> cases hs
    · exact h.quiet (.refl _) hlive trivial rfl
    · rename_i db' id hins
      exact h.insertLogin hph hins
  case setFamily value id =>
    cases hs
    exact h.setFamily hph
  case prune value now =>
    cases hs
    exact h.quiet (retires_deleteExpired _ _) hlive (phaseOk_afterPrune hp)
      (window_afterPrune _ _)
  case find value now =>
    cases hs
    exact h.find hph
  case rotate value id record now =>
    cases hs
    cases hwon : (rotateRefreshToken w.db id now).2 with
    | false => exact h.quiet (retires_rotate _ _ _) hlive hp.founded rfl
    | true => exact h.rotate hph hwon
  case findUser value id record now =>
    cases hs
    cases hfind : findById w.db.users record.user_id with
    | none => exact h.quiet (.refl _) hlive hp.1.founded rfl
    | some p =>
        cases hsig : env.signed with
        | false =>
            simp only [afterFindUser, hsig, Phase.draws]
            exact h.quiet (.refl _) hlive trivial rfl
        | true =>
            simp only [afterFindUser, hsig, Phase.draws, if_true]
            apply h.draw hph
            simpa [freshDraws, afterFindUser, hfind, hsig, Phase.draws] using hfresh
  case insertSuccessor value id record new token =>
    split at hs <;> cases hs
    · exact h.quiet (.refl _) hlive trivial rfl
    · rename_i db' new_id hins
      exact h.insertSuccessor hph hins
  case revokeFamily family_id now =>
    cases hs
    exact h.revoke hp hlive (fun _ _ => trivial) rfl
  case findLogout user_id value now =>
    cases hs
    exact h.findLogout hph
  case revokeLogout family_id now =>
    cases hs
    exact h.revoke hp hlive (fun _ _ => trivial) rfl
  case revokeAll user_id now =>
    cases hs
    exact h.quiet (retires_revokeAll _ _ _) hlive trivial rfl
  all_goals cases hs

/-- Accounts come and go without a request. -/
theorem Inv.accounts {w : World} {db' : AuthDb} (h : Inv auth w)
    (hret : Retires w.db db') : Inv auth { w with db := db' } := by
  have hsame : ({ w with db := db' } : World) =
      w.advance 0 db' (w.phase 0) [] := by
    simp [World.advance]
  rw [hsame]
  refine h.soft hret (by simp) (by simp) (fun _ _ he => he) ?_ ?_
  · exact (h.phase_ok 0).soft hret (by simp)
  · intro F hF q hq hqF
    exact hq (h.window_alone q 0 F hqF hF)

/-- **The step lemma.** -/
theorem Inv.step {w w' : World} {label : Label} (h : Inv auth w)
    (hs : step auth w label = some w') : Inv auth w' := by
  cases label with
  | start r request env =>
      simp only [Auth.step, Option.ite_none_right_eq_some] at hs
      obtain ⟨⟨hidle, hadm, hfresh⟩, heq⟩ := hs
      cases heq
      exact h.start hidle hadm hfresh
  | exec r env =>
      obtain ⟨⟨db', next, es⟩, hst, hs⟩ := Option.bind_eq_some_iff.mp hs
      simp only [Option.ite_none_right_eq_some] at hs
      obtain ⟨hfresh, heq⟩ := hs
      cases heq
      exact h.exec hst hfresh
  | fail r =>
      obtain ⟨next, hf, rfl⟩ := Option.map_eq_some_iff.mp hs
      exact h.fail hf
  | drop r =>
      obtain ⟨next, hf, rfl⟩ := Option.map_eq_some_iff.mp hs
      refine h.quiet (.refl _) ?_ trivial rfl
      intro v n heq
      rw [heq] at hf
      cases hf
  | createUser username password_hash role now =>
      simp only [Auth.step] at hs
      split at hs <;> cases hs
      · exact h
      · exact h.accounts (retires_users _ _)
  | deleteUser id =>
      cases hs
      exact h.accounts (retires_deleteAccount _ _)

theorem Reachable.inv {w : World} (h : Reachable auth w) : Inv auth w := by
  obtain ⟨users, labels, hrun⟩ := h
  exact run_invariant (Auth.step auth) (fun _ _ _ hi hs => Inv.step hi hs)
    (Inv.initial users) hrun

/-! ## The main result -/

/-- At most one redeemable token per family, at most one successor per token. -/
structure SingleUse (auth : AuthContext) (w : World) : Prop where
  one_redeemable : ∀ i r j s, (i, r) ∈ w.db.refresh_tokens.rows →
    (j, s) ∈ w.db.refresh_tokens.rows → r.family_id = s.family_id →
    r.family_id ≠ 0 → r.redeemable = true → s.redeemable = true → i = j
  /-- A family other than the placeholder is named by the id of a row that an
  insert stored: its root. -/
  family_root : ∀ i r, (i, r) ∈ w.db.refresh_tokens.rows → r.family_id ≠ 0 →
    ∃ q h, .stored q h r.family_id ∈ w.history
  /-- Requests that answered a new token for one presented value are one. -/
  answered_once : ∀ q q' value value' new new',
    w.phase q = .refreshed value new → w.phase q' = .refreshed value' new' →
    auth.hashRefreshToken value = auth.hashRefreshToken value' → q = q'
  one_successor : ∀ q q' value value' id new new',
    .succeeded q value id new ∈ w.history →
    .succeeded q' value' id new' ∈ w.history →
    q = q' ∧ value = value' ∧ new = new'
  /-- A row still in the placeholder family: no client was handed its value. -/
  placeholder_secret : ∀ i r, (i, r) ∈ w.db.refresh_tokens.rows →
    r.family_id = 0 → .delivered r.token_hash ∉ w.history
  ids_once : (w.history.filterMap Event.storedId).Nodup

/-- **Tokens are single use in every reachable world**, whatever the
interleaving. -/
theorem reachable_singleUse (w : World) (h : Reachable auth w) :
    SingleUse auth w := by
  have hi := h.inv
  constructor
  case one_redeemable => exact hi.one_redeemable
  case family_root =>
    intro i r hr hne
    exact hi.founded_stored _ ((hi.row_family i r hr).resolve_left hne)
  case answered_once =>
    intro q q' value value' new new' hq hq' hh
    have hp := hi.phase_ok q
    have hp' := hi.phase_ok q'
    rw [hq] at hp
    rw [hq'] at hp'
    obtain ⟨id, hid⟩ := hp
    obtain ⟨id', hid'⟩ := hp'
    obtain ⟨_, hrot, _, hst⟩ := hi.succeeded_phase _ _ _ _ hid
    obtain ⟨_, hrot', _, hst'⟩ := hi.succeeded_phase _ _ _ _ hid'
    obtain rfl : id = id' := hi.stored_hash _ _ _ _ _ hst (hh ▸ hst')
    exact hi.rotated_by q q' id hrot hrot'
  case one_successor =>
    intro q q' value value' id new new' hs hs'
    obtain ⟨hp, hrot, _⟩ := hi.succeeded_phase _ _ _ _ hs
    obtain ⟨hp', hrot', _⟩ := hi.succeeded_phase _ _ _ _ hs'
    obtain rfl := hi.rotated_by q q' id hrot hrot'
    rw [hp] at hp'
    cases hp'
    exact ⟨rfl, rfl, rfl⟩
  case placeholder_secret =>
    intro i r hr hF hd
    exact hi.row_delivered i r hr hd hF
  case ids_once => exact hi.stored_nodup

/-! ## A sample schedule -/

/-- An account, its login, and a refresh up to the compare-and-swap. -/
def sampleWon : List Label :=
  [.createUser "ada" "hash" .admin 0, .start 0 (.login 1) ⟨10, sampleFirst, true⟩,
    .exec 0 ⟨10, "", true⟩, .exec 0 ⟨10, "", true⟩,
    .start 1 (.refresh sampleFirst) ⟨20, "", true⟩, .exec 1 ⟨20, "", true⟩,
    .exec 1 ⟨20, "", true⟩, .exec 1 ⟨20, "", true⟩]

/-- The rest of that refresh: the account lookup and the successor's insert. -/
def sampleSucceeds : List Label :=
  [.exec 1 ⟨20, sampleSecond, true⟩, .exec 1 ⟨20, "", true⟩]

theorem sample_runs : (run (step sampleAuth) (World.initial Table.empty)
    (sampleWon ++ sampleSucceeds)).isSome = true := by
  decide +kernel

theorem reachable_singleUse_sample : SingleUse sampleAuth
    ((run (step sampleAuth) (World.initial Table.empty)
      (sampleWon ++ sampleSucceeds)).get sample_runs) :=
  reachable_singleUse _ ⟨Table.empty, _, (Option.some_get _).symm⟩

end Wallermax.Auth
