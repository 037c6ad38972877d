import Wallermax.Tenants.Restart

/-!
# Reaching the panel after a restart

The panel is mounted on the single-host tree, which a boot chooses while no host
is mapped, and on the CMS tree, which takes a host mapped to the CMS
organization. Of the panel's own writes two can end on neither: mapping the
first host name, and unmapping the last one that reaches the CMS.
-/

namespace Wallermax.Tenants

open Wallermax.Base
open Wallermax.Accounts
open Wallermax.Storage

/-! ## Reaching the panel -/

/-- `HeaderValue::to_str`: visible ASCII and the tab. -/
def headerText (value : String) : Option String :=
  if value.toList.all fun c => c == '\t' || (32 ≤ c.toNat && c.toNat < 127) then some value
  else none

/-- Some `Host` header reaches a tree with the panel. -/
def PanelReachable (single_host : Bool) (snapshot : VhostSnapshot) : Prop :=
  ∃ value tree, dispatch single_host snapshot (headerText value) = some tree ∧
    tree.mountsPanel = true

def PanelAfterRestart (config : VhostConfig) (db : TenantDb) : Prop :=
  ∀ now, ∃ fresh, boot config db now = some fresh ∧
    PanelReachable fresh.single_host fresh.world.live.snapshot

/-- Some `Host` header reaches the CMS organization. -/
def CmsHost (bindings : List HostBinding) : Prop :=
  ∃ value, classify (headerText value) bindings = .cms

/-- Nothing is mapped, or the CMS can be reached. -/
def PanelOpen (bindings : List HostBinding) : Prop := bindings = [] ∨ CmsHost bindings

theorem classify_eq_cms {host : Option String} {bindings : List HostBinding} :
    classify host bindings = .cms ↔ ∃ raw b, host = some raw ∧
      bindings.find? (HostBinding.names raw) = some b ∧
      b.organization = cmsOrganizationKey := by
  cases host with
  | none => simp [classify]
  | some raw =>
      simp only [classify, Option.some.injEq, exists_and_left, exists_eq_left']
      cases bindings.find? (HostBinding.names raw) with
      | none => simp
      | some b =>
          simp only [HostBinding.hostClass, Option.some.injEq, exists_eq_left']
          split
          · rename_i hcms
            simp [hcms]
          · rename_i hcms
            split <;> simp [hcms]

theorem panelReachable_iff (snapshot : VhostSnapshot) :
    PanelReachable snapshot.bindings.isEmpty snapshot ↔ PanelOpen snapshot.bindings := by
  by_cases hempty : snapshot.bindings = []
  · rw [hempty]
    exact ⟨fun _ => .inl rfl, fun _ => ⟨"", .singleHost, rfl, rfl⟩⟩
  · have hsplit : snapshot.bindings.isEmpty = false := by simpa using hempty
    rw [PanelOpen, or_iff_right hempty, PanelReachable, hsplit]
    constructor
    · rintro ⟨value, tree, htree, hpanel⟩
      refine ⟨value, ?_⟩
      simp only [dispatch, Bool.false_eq_true, if_false] at htree
      cases hclass : classify (headerText value) snapshot.bindings with
      | cms => rfl
      | main =>
          rw [hclass] at htree
          cases htree
          cases hpanel
      | tenant b =>
          rw [hclass] at htree
          obtain ⟨_, _, rfl⟩ := Option.map_eq_some_iff.mp htree
          cases hpanel
    · rintro ⟨value, hcms⟩
      exact ⟨value, .cms, by simp [dispatch, hcms, treeOf], rfl⟩

/-- Which bindings reach the CMS does not depend on the document roots. -/
theorem cmsHost_map {bindings : List HostBinding} {g : HostBinding → HostBinding}
    (hname : ∀ b, (g b).hostname = b.hostname)
    (horg : ∀ b, (g b).organization = b.organization) :
    CmsHost (bindings.map g) ↔ CmsHost bindings := by
  have hnames : ∀ raw, HostBinding.names raw ∘ g = HostBinding.names raw := by
    intro raw
    funext b
    simp [HostBinding.names, hname]
  simp only [CmsHost, classify_eq_cms, List.find?_map, hnames, Option.map_eq_some_iff]
  constructor
  · rintro ⟨value, raw, _, hvalue, ⟨b, hfind, rfl⟩, hcms⟩
    exact ⟨value, raw, b, hvalue, hfind, (horg b).symm.trans hcms⟩
  · rintro ⟨value, raw, b, hvalue, hfind, hcms⟩
    exact ⟨value, raw, g b, hvalue, ⟨b, hfind, rfl⟩, (horg b).trans hcms⟩

theorem panelOpen_map {bindings : List HostBinding} {g : HostBinding → HostBinding}
    (hname : ∀ b, (g b).hostname = b.hostname)
    (horg : ∀ b, (g b).organization = b.organization) :
    PanelOpen (bindings.map g) ↔ PanelOpen bindings := by
  rw [PanelOpen, PanelOpen, cmsHost_map hname horg, List.map_eq_nil_iff]

theorem CmsHost.append {bindings : List HostBinding} (h : CmsHost bindings)
    (more : List HostBinding) : CmsHost (bindings ++ more) := by
  obtain ⟨value, hvalue⟩ := h
  obtain ⟨raw, b, htext, hfind, hcms⟩ := classify_eq_cms.mp hvalue
  exact ⟨value, classify_eq_cms.mpr ⟨raw, b, htext, by simp [hfind], hcms⟩⟩

/-- Some `Host` header has this name. -/
def Carried (name : String) : Prop :=
  ∃ value raw, headerText value = some raw ∧
    Templates.eqIgnoreAsciiCase name.toList (Templates.hostName raw) = true

theorem find?_names_singleton (raw : String) (b c : HostBinding) :
    [b].find? (HostBinding.names raw) = some c ↔ HostBinding.names raw b = true ∧ b = c := by
  cases h : HostBinding.names raw b <;> simp [h]

theorem cmsHost_singleton (b : HostBinding) :
    CmsHost [b] ↔ b.organization = cmsOrganizationKey ∧ Carried b.hostname := by
  simp only [CmsHost, classify_eq_cms, find?_names_singleton]
  constructor
  · rintro ⟨value, raw, _, hvalue, ⟨hname, rfl⟩, hcms⟩
    exact ⟨hcms, value, raw, hvalue, hname⟩
  · rintro ⟨hcms, value, raw, hvalue, hname⟩
    exact ⟨value, raw, b, hvalue, ⟨hname, rfl⟩, hcms⟩

/-- No host is mapped to the CMS organization. -/
def NoCmsHosts (bindings : List HostBinding) : Prop :=
  ∀ b ∈ bindings, b.organization ≠ cmsOrganizationKey

theorem NoCmsHosts.not_cmsHost {bindings : List HostBinding} (h : NoCmsHosts bindings) :
    ¬ CmsHost bindings := by
  rintro ⟨value, hvalue⟩
  obtain ⟨_, b, _, hfind, hcms⟩ := classify_eq_cms.mp hvalue
  exact h b (List.mem_of_find?_eq_some hfind) hcms

/-- **After a restart** the panel can be reached when nothing is mapped or the
CMS can be, and the boot is not refused. -/
theorem panelAfterRestart_iff {config : VhostConfig} {db : TenantDb} (hs : Seeded config db)
    (hstatic : config.static_enabled = false → NoCmsHosts (loadHostBindings db)) :
    PanelAfterRestart config db ↔ PanelOpen (loadHostBindings db) := by
  have hboot : ∀ now, ∃ fresh, boot config db now = some fresh ∧
      (PanelReachable fresh.single_host fresh.world.live.snapshot ↔
        PanelOpen (loadHostBindings db)) := by
    intro now
    obtain ⟨horgs, hdomains⟩ := bootDb_of_seeded hs now
    obtain ⟨hbindings, hderived⟩ := derived_congr config horgs hdomains
    have haccepted : ¬ ((loadHostBindings (bootDb config db now)).any
        (fun b => b.organization == cmsOrganizationKey) && !config.static_enabled) = true := by
      rw [hbindings, Bool.and_eq_true, Bool.not_eq_true', List.any_eq_true]
      rintro ⟨⟨b, hb, hcms⟩, hoff⟩
      exact hstatic hoff b hb (beq_iff_eq.mp hcms)
    refine ⟨_, if_neg haccepted, ?_⟩
    show PanelReachable (derived config (bootDb config db now)).bindings.isEmpty
      (derived config (bootDb config db now)) ↔ _
    rw [panelReachable_iff, hderived]
    exact panelOpen_map (fun _ => rfl) fun _ => rfl
  constructor
  · intro h
    obtain ⟨fresh, hfresh, hreach⟩ := h 0
    obtain ⟨fresh', hfresh', hiff⟩ := hboot 0
    obtain rfl := Option.some.inj (hfresh.symm.trans hfresh')
    exact hiff.mp hreach
  · intro h now
    obtain ⟨fresh, hfresh, hiff⟩ := hboot now
    exact ⟨fresh, hfresh, hiff.mpr h⟩

/-! ## What the writes do to the bindings -/

section Bindings

variable {config : VhostConfig} {ph : Phase} {db db' : TenantDb}

/-- Rows that do not make what a search finds can go. -/
theorem find?_filterMap_filter {α β : Type*} {f : α → Option β} {p : β → Bool} {q : α → Bool}
    {l : List α} {b : β} (hkept : ∀ a ∈ l, f a = some b → q a = true)
    (h : (l.filterMap f).find? p = some b) :
    ((l.filter q).filterMap f).find? p = some b := by
  induction l with
  | nil => cases h
  | cons a l ih =>
      have hkept' : ∀ a ∈ l, f a = some b → q a = true :=
        fun a ha => hkept a (List.mem_cons_of_mem _ ha)
      cases hf : f a with
      | none =>
          rw [List.filterMap_cons_none hf] at h
          rw [List.filter_cons]
          split
          · rw [List.filterMap_cons_none hf]
            exact ih hkept' h
          · exact ih hkept' h
      | some c =>
          rw [List.filterMap_cons_some hf, List.find?_cons] at h
          cases hp : p c with
          | true =>
              rw [hp] at h
              obtain rfl : c = b := by simpa using h
              rw [List.filter_cons, if_pos (hkept a (List.mem_cons_self ..) hf),
                List.filterMap_cons_some hf, List.find?_cons, hp]
          | false =>
              rw [hp] at h
              rw [List.filter_cons]
              split
              · rw [List.filterMap_cons_some hf, List.find?_cons, hp]
                exact ih hkept' h
              · exact ih hkept' h

theorem joinDomain_some {organizations : Table Organization} {d : Domain} {b : HostBinding}
    (h : joinDomain organizations d = some b) :
    ∃ o, (d.organization_id, o) ∈ organizations.rows ∧ o.key = b.organization := by
  obtain ⟨⟨i, o⟩, hfind, rfl⟩ := Option.map_eq_some_iff.mp h
  obtain ⟨hmem, hi⟩ := Table.find?_some hfind
  obtain rfl : i = d.organization_id := by simpa using hi
  exact ⟨o, hmem, rfl⟩

theorem loadHostBindings_updateOrganization (db : TenantDb) (key name root : String) :
    loadHostBindings (updateOrganization db key name root).1 =
      (loadHostBindings db).map fun b =>
        if b.organization = key then
          { b with
            document_root := root }
        else b := by
  rw [loadHostBindings, loadHostBindings, List.map_filterMap]
  apply List.filterMap_congr
  rintro ⟨i, d⟩ _
  show joinDomain (db.organizations.update _ _) d = (joinDomain db.organizations d).map _
  rw [joinDomain, joinDomain, Table.find?_update]
  cases db.organizations.find? fun i _ => i == d.organization_id with
  | none => rfl
  | some r =>
      by_cases hkey : r.2.key = key
      · simp [hkey]
      · simp [hkey]

theorem loadHostBindings_addDomain {id : ℕ} {hostname : String}
    (h : addDomain db id hostname = .ok db') :
    loadHostBindings db' = loadHostBindings db ++
      (joinDomain db.organizations ⟨hostname, id, .manual⟩).toList := by
  unfold addDomain at h
  split at h
  · cases h
  · rename_i domains hins
    cases h
    have hrows : domains.rows = (db.domains.toTable.insert ⟨hostname, id, .manual⟩).rows :=
      Constrained.rows_insert? hins
    rw [loadHostBindings, loadHostBindings, hrows, Table.orderBy_insert, List.filterMap_append]
    cases hjoin : joinDomain db.organizations ⟨hostname, id, .manual⟩ <;> simp [hjoin]

/-- A tenant's host names go with it, and the others route as before. -/
theorem loadHostBindings_deleteOrganization {id : ℕ} {organization : Organization} {key : String}
    (h : findOrganization db.toPanelDb key = some (id, organization)) :
    loadHostBindings (deleteOrganization db key).1 =
      ((db.domains.rows.insertionSort fun r q => r.1 ≤ q.1).filter fun r =>
        !(r.2.organization_id == id)).filterMap fun r => joinDomain db.organizations r.2 := by
  rw [loadHostBindings, deleteOrganization, h]
  show ((db.domains.toTable.delete fun _ d => d.organization_id == id).rows.insertionSort
    fun r q => r.1 ≤ q.1).filterMap _ = _
  rw [Table.orderBy_delete]
  apply List.filterMap_congr
  rintro ⟨i, d⟩ hd
  have hne : ¬ d.organization_id = id := by simpa using (List.mem_filter.mp hd).2
  simp only [joinDomain, Table.find?, Table.delete, List.find?_filter]
  congr 2
  funext r
  by_cases hr : r.1 = d.organization_id
  · simp [hr, hne]
  · simp [hr]

theorem panelOpen_deleteOrganization {key : String} (hkey : Unseeded key)
    (h : PanelOpen (loadHostBindings db)) :
    PanelOpen (loadHostBindings (deleteOrganization db key).1) := by
  cases hfind : findOrganization db.toPanelDb key with
  | none =>
      rw [deleteOrganization, hfind]
      exact h
  | some r =>
      obtain ⟨id, organization⟩ := r
      rw [loadHostBindings_deleteOrganization hfind]
      rcases h with hnone | ⟨value, hvalue⟩
      · left
        rw [loadHostBindings, List.filterMap_eq_nil_iff] at hnone
        rw [List.filterMap_eq_nil_iff]
        intro r hr
        exact hnone r (List.mem_of_mem_filter hr)
      · right
        obtain ⟨raw, b, htext, hb, hcms⟩ := classify_eq_cms.mp hvalue
        refine ⟨value, classify_eq_cms.mpr ⟨raw, b, htext, ?_, hcms⟩⟩
        refine find?_filterMap_filter ?_ hb
        rintro ⟨i, d⟩ _ hjoin
        obtain ⟨o, ho, hname⟩ := joinDomain_some hjoin
        obtain ⟨hrow, horg⟩ := findOrganization_some hfind
        have hne : d.organization_id ≠ id := by
          rintro rfl
          obtain rfl := Table.eq_of_mem hrow ho
          exact hkey.2 (horg.symm.trans (hname.trans hcms))
        simpa using hne

/-- A write that is neither the mapping nor the unmapping of a host name keeps
the panel in reach. -/
theorem panelOpen_change (hknown : KnownOwners db) (h : Change ph db db')
    (hmap : ∀ key id hostname, ph ≠ .mapDomain key id hostname)
    (hunmap : ∀ key id hostname, ph ≠ .unmapDomain key id hostname)
    (hopen : PanelOpen (loadHostBindings db)) : PanelOpen (loadHostBindings db') := by
  cases h with
  | content hpanel hdomains =>
      rw [loadHostBindings, hpanel, hdomains]
      exact hopen
  | created hkey hins =>
      rw [(routing_createOrganization hknown hkey.1 hins).2]
      exact hopen
  | updated key name root hkey =>
      rw [loadHostBindings_updateOrganization]
      refine (panelOpen_map ?_ ?_).mpr hopen
      · intro b
        split <;> rfl
      · intro b
        split <;> rfl
  | deleted key hkey => exact panelOpen_deleteOrganization hkey hopen
  | mapped hph => exact absurd hph (hmap _ _ _)
  | unmapped hph => exact absurd hph (hunmap _ _ _)

theorem loadHostBindings_unmapped {id : ℕ} {hostname : String}
    (h : (deleteManualDomain db id hostname).2 = false) :
    (deleteManualDomain db id hostname).1 = db := by
  simp only [deleteManualDomain, decide_eq_false_iff_not, Nat.not_lt, Nat.le_zero] at h
  simp only [deleteManualDomain]
  rw [Constrained.delete_eq_self fun i d hd => Table.count_eq_zero.mp h i d hd]

end Bindings

/-! ## The requests -/

/-- What a request that maps a host name knows of the organization. -/
def Phase.Maps (config : VhostConfig) (db : TenantDb) : Phase → Prop
  | .mapDomain _ id _ => id ≤ db.organizations.seq ∧
      (config.static_enabled = false → ∀ o, (id, o) ∈ db.organizations.rows →
        o.key ≠ cmsOrganizationKey)
  | _ => True

/-- What the panel's writes keep, wherever they stand. -/
structure Reaching (config : VhostConfig) (w : World) : Prop where
  guarded : Guarded config w
  known : KnownOwners w.live.db
  maps : ∀ r, (w.phase r).Maps config w.live.db
  bootable : config.static_enabled = false → NoCmsHosts (loadHostBindings w.live.db)

section Requests

variable {config : VhostConfig} {ph : Phase} {db db' : TenantDb}

/-- The organizations after a write: the old keys, and a tenant's. -/
theorem Change.organizations (h : Change ph db db') :
    db.organizations.seq ≤ db'.organizations.seq ∧
    ∀ i o, (i, o) ∈ db'.organizations.rows →
      (∃ p, (i, p) ∈ db.organizations.rows ∧ p.key = o.key) ∨ Unseeded o.key := by
  cases h with
  | content hpanel _ =>
      rw [hpanel]
      exact ⟨Nat.le_refl _, fun i o ho => .inl ⟨o, ho, rfl⟩⟩
  | created hkey hins =>
      obtain ⟨_, rfl⟩ := createOrganization_ok hins
      refine ⟨Nat.le_succ _, fun i o ho => ?_⟩
      rcases Table.mem_insert.mp ho with hold | hnew
      · exact .inl ⟨o, hold, rfl⟩
      · cases hnew
        exact .inr hkey
  | updated key name root hkey =>
      refine ⟨Nat.le_refl _, fun i o ho => ?_⟩
      obtain ⟨p, hp, rfl⟩ := Table.mem_update.mp ho
      refine .inl ⟨p, hp, ?_⟩
      split <;> rfl
  | deleted key hkey =>
      unfold deleteOrganization
      split
      · exact ⟨Nat.le_refl _, fun i o ho => .inl ⟨o, ho, rfl⟩⟩
      · exact ⟨Nat.le_refl _, fun i o ho => .inl ⟨o, (Table.mem_delete.mp ho).1, rfl⟩⟩
  | mapped _ hadd =>
      unfold addDomain at hadd
      split at hadd
      · cases hadd
      · cases hadd
        exact ⟨Nat.le_refl _, fun i o ho => .inl ⟨o, ho, rfl⟩⟩
  | unmapped => exact ⟨Nat.le_refl _, fun i o ho => .inl ⟨o, ho, rfl⟩⟩

theorem Phase.Maps.change {ph' : Phase} (hmaps : ph'.Maps config db) (h : Change ph db db') :
    ph'.Maps config db' := by
  cases ph' with
  | mapDomain key id hostname =>
      obtain ⟨hseq, hrows⟩ := h.organizations
      refine ⟨Nat.le_trans hmaps.1 hseq, fun hoff o ho => ?_⟩
      rcases hrows id o ho with ⟨p, hp, hname⟩ | hkey
      · rw [← hname]
        exact hmaps.2 hoff p hp
      · exact hkey.2
  | _ => trivial

theorem KnownOwners.change (hknown : KnownOwners db) (hmaps : ph.Maps config db)
    (h : Change ph db db') : KnownOwners db' := by
  cases h with
  | content hpanel hdomains =>
      rw [KnownOwners, hpanel, hdomains]
      exact hknown
  | created _ hins =>
      obtain ⟨_, rfl⟩ := createOrganization_ok hins
      exact fun i d hd => (hknown i d hd).trans (Nat.le_succ _)
  | updated => exact hknown
  | deleted key _ => exact (known_deleteOrganization key hknown).2
  | mapped hph hadd =>
      subst hph
      exact (known_addDomain hknown hmaps.1 hadd).2
  | unmapped => exact fun i d hd => hknown i d (Constrained.mem_delete.mp hd).1

theorem NoCmsHosts.change (hno : NoCmsHosts (loadHostBindings db)) (hknown : KnownOwners db)
    (hmaps : ph.Maps config db) (hoff : config.static_enabled = false)
    (h : Change ph db db') : NoCmsHosts (loadHostBindings db') := by
  cases h with
  | content hpanel hdomains =>
      rw [loadHostBindings, hpanel, hdomains]
      exact hno
  | created hkey hins =>
      rw [(routing_createOrganization hknown hkey.1 hins).2]
      exact hno
  | updated key name root _ =>
      rw [loadHostBindings_updateOrganization]
      intro b hb
      obtain ⟨c, hc, rfl⟩ := List.mem_map.mp hb
      split <;> exact hno c hc
  | deleted key _ =>
      cases hfind : findOrganization db.toPanelDb key with
      | none =>
          rw [deleteOrganization, hfind]
          exact hno
      | some r =>
          rw [loadHostBindings_deleteOrganization hfind]
          intro b hb
          obtain ⟨d, hd, hjoin⟩ := List.mem_filterMap.mp hb
          exact hno b (List.mem_filterMap.mpr ⟨d, List.mem_of_mem_filter hd, hjoin⟩)
  | mapped hph hadd =>
      subst hph
      rw [loadHostBindings_addDomain hadd]
      intro b hb
      rcases List.mem_append.mp hb with hold | hnew
      · exact hno b hold
      · obtain ⟨o, ho, hname⟩ := joinDomain_some (Option.mem_toList.mp hnew)
        rw [← hname]
        exact hmaps.2 hoff o ho
  | unmapped =>
      intro b hb
      obtain ⟨d, hd, hjoin⟩ := List.mem_filterMap.mp hb
      refine hno b (List.mem_filterMap.mpr ⟨d, ?_, hjoin⟩)
      rw [List.mem_insertionSort] at hd ⊢
      exact (Constrained.mem_delete.mp hd).1

theorem loaded_maps {id : ℕ} {organization : Organization}
    (hrow : (id, organization) ∈ db.organizations.rows) (goal : Goal) :
    (goal.loaded config id organization).Maps config db := by
  cases goal with
  | createContent content => trivial
  | createTenant key name root => trivial
  | updateTenant key name root =>
      simp only [Goal.loaded, updateForm]
      split
      · trivial
      · split
        · trivial
        · split <;> trivial
  | deleteTenant key =>
      simp only [Goal.loaded]
      split <;> trivial
  | addDomain key hostname =>
      simp only [Goal.loaded, domainForm]
      split
      · trivial
      · split
        · trivial
        · rename_i hallowed
          refine ⟨Table.le_seq_of_mem hrow, fun hoff o ho => ?_⟩
          obtain rfl := Table.eq_of_mem hrow ho
          simpa [hoff] using hallowed
  | removeDomain key hostname => trivial

/-- A request comes to mapping a host name only from the organization's row. -/
theorem statement_mapDomain {s s' : Live} {now : ℤ} {key hostname : String} {id : ℕ}
    (h : statement config s now ph = some (s', .mapDomain key id hostname)) :
    (Phase.mapDomain key id hostname).Maps config s.db := by
  cases ph with
  | load goal k =>
      simp only [statement] at h
      split at h
      · cases h
      · rename_i id' organization hfind
        obtain ⟨-, hnext⟩ := Prod.mk.inj (Option.some.inj h)
        rw [← hnext]
        exact loaded_maps (findOrganization_some hfind).1 goal
  | authorize organization user goal =>
      simp only [statement, Option.some.injEq, Prod.mk.injEq] at h
      obtain ⟨-, hnext⟩ := h
      split at hnext
      · cases goal with
        | createContent content =>
            simp only [Goal.first] at hnext
            split at hnext <;> cases hnext
        | createTenant key name root =>
            simp only [Goal.first, createForm] at hnext
            repeat' split at hnext
            all_goals cases hnext
        | _ => cases hnext
      · cases hnext
  | _ =>
      simp only [statement] at h
      repeat' split at h
      all_goals cases h

end Requests

theorem Reaching.step {config : VhostConfig} {w w' : World} {l : Label}
    (h : Reaching config w) (hs : step config w l = some w') : Reaching config w' := by
  have hdb := change_of_step h.guarded hs
  have hmaps := h.maps l.request
  refine ⟨h.guarded.step hs, h.known.change hmaps hdb, fun q => ?_,
    fun hoff => (h.bootable hoff).change h.known hmaps hoff hdb⟩
  by_cases hq : q = l.request
  · subst hq
    cases hnext : w'.phase l.request with
    | mapDomain key id hostname =>
        refine Phase.Maps.change ?_ hdb
        cases l with
        | start r organization user goal =>
            simp only [Tenants.step] at hs
            split at hs
            · cases hs
              rw [phase_advance, Label.request, if_pos rfl] at hnext
              cases hnext
            · cases hs
        | exec r now =>
            obtain ⟨⟨live, next⟩, hst, rfl⟩ := Option.map_eq_some_iff.mp hs
            rw [phase_advance, Label.request, if_pos rfl] at hnext
            subst hnext
            exact statement_mapDomain hst
        | fail r =>
            obtain ⟨next, hf, rfl⟩ := Option.map_eq_some_iff.mp hs
            rw [phase_advance, Label.request, if_pos rfl] at hnext
            subst hnext
            cases hph : w.phase r <;> rw [hph] at hf <;> cases hf
        | drop r =>
            simp only [Tenants.step, Option.ite_none_right_eq_some, Option.some.injEq] at hs
            obtain ⟨_, rfl⟩ := hs
            rw [phase_advance, Label.request, if_pos rfl] at hnext
            cases hnext
    | _ => trivial
  · rw [phase_step hq hs]
    exact (h.maps q).change hdb

/-! ## The two writes that lock out -/

/-- The step maps the first host name, to an organization other than the CMS or
under a name no header has; or it unmaps a host name and leaves some, none of
which reaches the CMS. -/
def LocksOut (w : World) : Label → Prop
  | .exec r _ =>
      match w.phase r with
      | .mapDomain _ id hostname =>
          loadHostBindings w.live.db = [] ∧ (addDomain w.live.db id hostname).isOk = true ∧
          ∃ b, joinDomain w.live.db.organizations ⟨hostname, id, .manual⟩ = some b ∧
            ¬ (b.organization = cmsOrganizationKey ∧ Carried b.hostname)
      | .unmapDomain _ id hostname =>
          loadHostBindings (deleteManualDomain w.live.db id hostname).1 ≠ [] ∧
            ¬ CmsHost (loadHostBindings (deleteManualDomain w.live.db id hostname).1)
      | _ => False
  | _ => False

section LockingOut

variable {config : VhostConfig} {w w' : World} {r : ℕ} {now : ℤ} {key hostname : String} {id : ℕ}

theorem panelOpen_mapDomain (hph : w.phase r = .mapDomain key id hostname)
    (hopen : PanelOpen (loadHostBindings w.live.db))
    (hs : step config w (.exec r now) = some w') :
    PanelOpen (loadHostBindings w'.live.db) ↔ ¬ LocksOut w (.exec r now) := by
  obtain ⟨⟨live, next⟩, hst, rfl⟩ := Option.map_eq_some_iff.mp hs
  show PanelOpen (loadHostBindings live.db) ↔ _
  rw [hph] at hst
  simp only [LocksOut, hph]
  simp only [statement] at hst
  split at hst
  · rename_i db hadd
    cases hst
    show PanelOpen (loadHostBindings db) ↔ _
    rw [loadHostBindings_addDomain hadd, hadd]
    rcases hopen with hnone | hcms
    · cases hjoin : joinDomain w.live.db.organizations ⟨hostname, id, .manual⟩ with
      | none => simp [hnone, PanelOpen]
      | some b => simp [hnone, PanelOpen, Except.isOk, Except.toBool, cmsHost_singleton]
    · refine iff_of_true (.inr (hcms.append _)) ?_
      rintro ⟨hnone, _⟩
      rw [hnone] at hcms
      exact NoCmsHosts.not_cmsHost (fun _ hb => absurd hb List.not_mem_nil) hcms
  · rename_i hadd
    cases hst
    rw [hadd]
    exact iff_of_true hopen (by simp [Except.isOk, Except.toBool])
  · rename_i hadd
    cases hst
    rw [hadd]
    exact iff_of_true hopen (by simp [Except.isOk, Except.toBool])

theorem panelOpen_unmapDomain (hph : w.phase r = .unmapDomain key id hostname)
    (hs : step config w (.exec r now) = some w') :
    PanelOpen (loadHostBindings w'.live.db) ↔ ¬ LocksOut w (.exec r now) := by
  obtain ⟨⟨live, next⟩, hst, rfl⟩ := Option.map_eq_some_iff.mp hs
  have hdb : live.db = (deleteManualDomain w.live.db id hostname).1 := by
    rw [hph] at hst
    simp only [statement] at hst
    split at hst
    · cases hst
      rfl
    · rename_i hmissed
      cases hst
      exact (loadHostBindings_unmapped (by simpa using hmissed)).symm
  show PanelOpen (loadHostBindings live.db) ↔ _
  simp only [LocksOut, hph, hdb, PanelOpen, not_and_or, not_not, ne_eq]

/-- **The step lemma**: of the steps from a state whose panel a restart would
reach, exactly these two lose it. -/
theorem panelOpen_step (h : Reaching config w)
    (hopen : PanelOpen (loadHostBindings w.live.db)) {l : Label}
    (hs : step config w l = some w') :
    PanelOpen (loadHostBindings w'.live.db) ↔ ¬ LocksOut w l := by
  have hdb := change_of_step h.guarded hs
  cases l with
  | exec r now =>
      cases hph : w.phase r with
      | mapDomain key id hostname => exact panelOpen_mapDomain hph hopen hs
      | unmapDomain key id hostname => exact panelOpen_unmapDomain hph hs
      | _ =>
          refine iff_of_true (panelOpen_change h.known hdb ?_ ?_ hopen) (by simp [LocksOut, hph])
          · intro _ _ _ heq
            rw [Label.request, hph] at heq
            cases heq
          · intro _ _ _ heq
            rw [Label.request, hph] at heq
            cases heq
  | start r organization user goal =>
      simp only [step] at hs
      split at hs
      · cases hs
        exact iff_of_true hopen not_false
      · cases hs
  | fail r =>
      obtain ⟨_, _, rfl⟩ := Option.map_eq_some_iff.mp hs
      exact iff_of_true hopen not_false
  | drop r =>
      simp only [step, Option.ite_none_right_eq_some, Option.some.injEq] at hs
      obtain ⟨_, rfl⟩ := hs
      exact iff_of_true hopen not_false

end LockingOut

theorem reaching_boot {config : VhostConfig} {db : TenantDb} {now : ℤ} {server : Server}
    (hknown : KnownOwners db) (hboot : boot config db now = some server) :
    Reaching config server.world := by
  obtain ⟨-, hworld⟩ := boot_some hboot
  simp only [boot, Option.ite_none_left_eq_some] at hboot
  obtain ⟨haccepted, -⟩ := hboot
  rw [hworld]
  refine ⟨⟨seeded_bootDb config db now, fun _ => trivial⟩, knownOwners_bootDb hknown,
    fun _ => trivial, fun hoff b hb hcms => haccepted ?_⟩
  rw [Bool.and_eq_true, List.any_eq_true]
  exact ⟨⟨b, hb, by simp [hcms]⟩, by simp [hoff]⟩

/-- **The panel after a restart**: along any run of the panel's requests it can
still be reached exactly as long as no step maps a first host name away from the
CMS or unmaps the last one that reaches it. -/
theorem panel_after_restart (config : VhostConfig) (db : TenantDb) (now : ℤ)
    (server : Server) (labels : List Label) (hknown : KnownOwners db)
    (hboot : boot config db now = some server)
    (hreach : PanelReachable server.single_host server.world.live.snapshot) :
    Throughout (step config) (fun w => PanelAfterRestart config w.live.db) server.world labels ↔
      EachStep (step config) (fun w l => ¬ LocksOut w l) server.world labels := by
  have hfirst := reaching_boot hknown hboot
  have hiff : ∀ w, Reaching config w →
      (PanelAfterRestart config w.live.db ↔ PanelOpen (loadHostBindings w.live.db)) :=
    fun w hw => panelAfterRestart_iff hw.guarded.seeded hw.bootable
  have hopen : PanelOpen (loadHostBindings server.world.live.db) := by
    simp only [boot, Option.ite_none_left_eq_some, Option.some.injEq] at hboot
    obtain ⟨-, rfl⟩ := hboot
    have hderived := (panelReachable_iff (derived config (bootDb config db now))).mp hreach
    refine (panelOpen_map (g := fun b => { b with
      document_root := absolutize config b.document_root }) ?_ ?_).mp hderived
    · exact fun _ => rfl
    · exact fun _ => rfl
  refine throughout_iff_eachStep (step config) (I := Reaching config)
    (fun w l w' hw _ hs => hw.step hs) ?_ hfirst ((hiff _ hfirst).mpr hopen)
  intro w l w' hw hp hs
  rw [hiff w' (hw.step hs)]
  exact panelOpen_step hw ((hiff w hw).mp hp) hs

/-! ## A first host name, with and without a CMS host -/

/-- The step does not unmap, and maps only where something is mapped already. -/
def mapsFurther (w : World) : Label → Bool
  | .exec r _ =>
      match w.phase r with
      | .mapDomain _ _ _ => !(loadHostBindings w.live.db).isEmpty
      | .unmapDomain _ _ _ => false
      | _ => true
  | _ => true

theorem not_locksOut {w : World} {l : Label} (h : mapsFurther w l = true) : ¬ LocksOut w l := by
  cases l with
  | exec r now =>
      cases hph : w.phase r <;> simp_all [mapsFurther, LocksOut]
  | _ => exact not_false

theorem panel_after_restart_split : ∃ server, boot splitConfig twoTenants 0 = some server ∧
    PanelReachable server.single_host server.world.live.snapshot ∧
    Throughout (step splitConfig) (fun w => PanelAfterRestart splitConfig w.live.db)
      server.world mapAcme := by
  have hstatic : splitConfig.static_enabled = true := rfl
  obtain ⟨server, hboot⟩ := exists_boot hstatic twoTenants 0
  obtain ⟨hsingle, hworld⟩ := boot_some hboot
  have hreach : PanelReachable server.single_host server.world.live.snapshot := by
    rw [hsingle, hworld]
    exact ⟨"cms.test", .cms, by decide +kernel, rfl⟩
  refine ⟨server, hboot, hreach, (panel_after_restart splitConfig twoTenants 0 server mapAcme
    knownOwners_twoTenants hboot hreach).mpr ?_⟩
  have hcheck : checkEachStep (step splitConfig) mapsFurther
      (World.boot splitConfig (bootDb splitConfig twoTenants 0)) mapAcme = true := by
    decide +kernel
  rw [hworld]
  intro pre l w w' hpre hrun hs
  exact not_locksOut (eachStep_of_check (step splitConfig) hcheck pre l w w' hpre hrun hs)

/-- On a single-host server, a tenant's first host name takes the panel away. -/
theorem panel_locked_out : ∃ server, boot defaultConfig twoTenants 0 = some server ∧
    PanelReachable server.single_host server.world.live.snapshot ∧
    ¬ Throughout (step defaultConfig) (fun w => PanelAfterRestart defaultConfig w.live.db)
      server.world mapAcme := by
  have hstatic : defaultConfig.static_enabled = true := rfl
  obtain ⟨server, hboot⟩ := exists_boot hstatic twoTenants 0
  obtain ⟨hsingle, hworld⟩ := boot_some hboot
  refine ⟨server, hboot, ?_, fun hall => ?_⟩
  · rw [hsingle, hworld]
    exact ⟨"", .singleHost, by decide +kernel, rfl⟩
  · have hrun : (run (step defaultConfig)
        (World.boot defaultConfig (bootDb defaultConfig twoTenants 0)) mapAcme).any (fun w =>
          !(loadHostBindings w.live.db).isEmpty && (loadHostBindings w.live.db).all fun b =>
            b.organization != cmsOrganizationKey) = true := by
      decide +kernel
    obtain ⟨w, hw, hmapped⟩ := (Option.any_eq_true _ _).mp hrun
    simp only [Bool.and_eq_true, Bool.not_eq_true', List.isEmpty_eq_false_iff,
      List.all_eq_true, bne_iff_ne] at hmapped
    obtain ⟨hsome, hno⟩ := hmapped
    rw [← hworld] at hw
    have hreaching := run_invariant (step defaultConfig) (fun _ _ _ hs ha => hs.step ha)
      (reaching_boot knownOwners_twoTenants hboot) hw
    have hopen := (panelAfterRestart_iff hreaching.guarded.seeded hreaching.bootable).mp
      (hall _ w (List.prefix_refl _) hw)
    rcases hopen with hnone | hcms
    · exact hsome hnone
    · exact NoCmsHosts.not_cmsHost hno hcms

end Wallermax.Tenants
