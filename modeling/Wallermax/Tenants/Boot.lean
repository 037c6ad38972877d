import Wallermax.Accounts.Mirror
import Wallermax.Tenants.Dispatch
import Wallermax.Tenants.RoutingUpdates

/-!
# Booting a server with the CMS

The seeds write the two bootstrap organizations and the `[cms] hosts` list into
the database, and the boot then serves what the database says. A database that a
seeded server's panel has worked on is still seeded: the panel refuses what the
seeds own. So seeding it again changes nothing the routing reads.
-/

namespace Wallermax.Tenants

open Wallermax.Base
open Wallermax.Accounts
open Wallermax.Storage

/-! ## The seeds -/

/-- `seed_organizations`, and the membership mirror that follows it. -/
def seedOrganizations (config : VhostConfig) (db : TenantDb) (now : ℤ) : TenantDb :=
  { db with
    toPanelDb :=
      (bootAccounts db.toPanelDb config.root_dir config.views_dir now fun _ => true).1 }

/-- The upsert of one configured host: a row with that name becomes the
seeder's. -/
def upsertDomain (domains : Domains) (hostname : String) (cms : ℕ) : Domains :=
  match domains.insert? (some ⟨hostname, cms, .config⟩) with
  | some domains => domains
  | none => domains.modify (fun _ d => d.hostname == hostname)
      (fun d =>
        { d with
          organization_id := cms
          source := .config })
      (fun _ => rfl) fun _ _ => ⟨rfl, rfl⟩

def seedDomain (db : TenantDb) (raw : String) : TenantDb :=
  let hostname := normalizeHostname raw
  if hostname.isEmpty then db
  else match findOrganization db.toPanelDb cmsOrganizationKey with
  | none => db
  | some (cms, _) =>
      { db with
        domains := upsertDomain db.domains hostname cms }

/-- The end of `seed_domains`: the seeder's rows that the list no longer names
go. -/
def pruneDomains (db : TenantDb) (hosts : List String) : TenantDb :=
  { db with
    domains := db.domains.delete fun _ d => d.source == .config &&
      !hosts.any fun raw => normalizeHostname raw == d.hostname }

def seedDomains (db : TenantDb) (hosts : List String) : TenantDb :=
  pruneDomains (hosts.foldl seedDomain db) hosts

def bootDb (config : VhostConfig) (db : TenantDb) (now : ℤ) : TenantDb :=
  seedDomains (seedOrganizations config db now) config.cms_hosts

/-- A server: the router it was booted with, and the requests on its state. -/
structure Server : Type where
  single_host : Bool
  world : World

/-- `build_state` and `build_app`; a boot that would map CMS hosts without
static serving is refused. -/
def boot (config : VhostConfig) (db : TenantDb) (now : ℤ) : Option Server :=
  let db := bootDb config db now
  if (loadHostBindings db).any (fun b => b.organization == cmsOrganizationKey) &&
      !config.static_enabled then none
  else some
    { single_host := (derived config db).bindings.isEmpty
      world := World.boot config db }

/-! ## Seeded databases -/

/-- The organization's row is there, with the seed's name and root. -/
structure SeededAs (db : TenantDb) (key name document_root : String) : Prop where
  present : ∃ i o, findOrganization db.toPanelDb key = some (i, o)
  columns : ∀ i o, (i, o) ∈ db.organizations.rows → o.key = key →
    o.name = name ∧ o.document_root = document_root

/-- What the seeds leave, and find again. -/
structure Seeded (config : VhostConfig) (db : TenantDb) : Prop where
  main : SeededAs db mainOrganizationKey "Main site" config.root_dir
  cms : SeededAs db cmsOrganizationKey "CMS" config.views_dir
  listed : ∀ raw ∈ config.cms_hosts, (normalizeHostname raw).isEmpty = false →
    ∃ i cms o, findOrganization db.toPanelDb cmsOrganizationKey = some (cms, o) ∧
      (i, ⟨normalizeHostname raw, cms, .config⟩) ∈ db.domains.rows
  unlisted : ∀ i d, (i, d) ∈ db.domains.rows → d.source = .config →
    ∃ raw ∈ config.cms_hosts, normalizeHostname raw = d.hostname

theorem collide_symm (d e : Domain) :
    (d.hostname == e.hostname) = (e.hostname == d.hostname) := by
  rw [Bool.eq_iff_iff, beq_iff_eq, beq_iff_eq]
  exact eq_comm

/-- Of two rows with one name there is one. -/
theorem eq_of_hostname {domains : Domains} {i j : ℕ} {d e : Domain}
    (hd : (i, d) ∈ domains.rows) (he : (j, e) ∈ domains.rows)
    (h : d.hostname = e.hostname) : i = j ∧ d = e := by
  obtain rfl := Constrained.eq_of_collide collide_symm hd he (by simp [h])
  exact ⟨rfl, Table.eq_of_mem hd he⟩

theorem upsertDomain_cases (domains : Domains) (hostname : String) (cms : ℕ) :
    (∃ t, domains.insert? (some ⟨hostname, cms, .config⟩) = some t ∧
      upsertDomain domains hostname cms = t) ∨
    ((∃ i d, (i, d) ∈ domains.rows ∧ d.hostname = hostname) ∧
      ∀ i d, (i, d) ∈ (upsertDomain domains hostname cms).rows ↔ ∃ e, (i, e) ∈ domains.rows ∧
        (if e.hostname = hostname then ⟨hostname, cms, .config⟩ else e) = d) := by
  unfold upsertDomain
  cases hins : domains.insert? (some ⟨hostname, cms, .config⟩) with
  | some t => exact .inl ⟨t, rfl, rfl⟩
  | none =>
      right
      constructor
      · by_contra hfree
        push Not at hfree
        obtain ⟨t, ht⟩ := Constrained.exists_insert? (t := domains)
          (v := ⟨hostname, cms, .config⟩) rfl fun i d hd => by simpa using hfree i d hd
        rw [hins] at ht
        cases ht
      · intro i d
        rw [Constrained.mem_modify]
        constructor
        · rintro ⟨e, he, heq⟩
          refine ⟨e, he, ?_⟩
          rw [← heq]
          by_cases hname : e.hostname = hostname
          · simp [hname]
          · simp [hname]
        · rintro ⟨e, he, heq⟩
          refine ⟨e, he, ?_⟩
          rw [← heq]
          by_cases hname : e.hostname = hostname
          · simp [hname]
          · simp [hname]

/-- The rows of an upsert: the new one, and those with other names. -/
theorem mem_upsertDomain {domains : Domains} {hostname : String} {cms : ℕ} {d : Domain} :
    (∃ i, (i, d) ∈ (upsertDomain domains hostname cms).rows) ↔
      d = ⟨hostname, cms, .config⟩ ∨ (∃ i, (i, d) ∈ domains.rows) ∧ d.hostname ≠ hostname := by
  rcases upsertDomain_cases domains hostname cms with ⟨t, hins, heq⟩ | ⟨⟨i, e, he, hname⟩, hrows⟩
  · have hfree : ∀ i d, (i, d) ∈ domains.rows → d.hostname ≠ hostname := by
      rintro i d hd rfl
      rw [Constrained.insert?_eq_none hd (by simp)] at hins
      cases hins
    rw [heq]
    simp only [Constrained.mem_insert? hins, Option.some.injEq, Prod.mk.injEq]
    constructor
    · rintro ⟨i, hold | ⟨w, rfl, -, rfl⟩⟩
      · exact .inr ⟨⟨i, hold⟩, hfree i d hold⟩
      · exact .inl rfl
    · rintro (rfl | ⟨⟨i, hold⟩, _⟩)
      · exact ⟨_, .inr ⟨_, rfl, rfl, rfl⟩⟩
      · exact ⟨i, .inl hold⟩
  · simp only [hrows]
    constructor
    · rintro ⟨j, e', he', rfl⟩
      split
      · exact .inl rfl
      · rename_i hne
        exact .inr ⟨⟨j, he'⟩, hne⟩
    · rintro (rfl | ⟨⟨j, hd⟩, hne⟩)
      · exact ⟨i, e, he, if_pos hname⟩
      · exact ⟨j, d, hd, if_neg hne⟩

/-- Upserting a row that is there already changes nothing. -/
theorem upsertDomain_eq_self {domains : Domains} {i cms : ℕ} {hostname : String}
    (h : (i, ⟨hostname, cms, .config⟩) ∈ domains.rows) :
    upsertDomain domains hostname cms = domains := by
  unfold upsertDomain
  rw [Constrained.insert?_eq_none h (by simp)]
  apply Constrained.modify_eq_self
  intro j d hd hname
  obtain ⟨-, rfl⟩ := eq_of_hostname h hd (beq_iff_eq.mp hname).symm
  rfl

/-! ## Seeding a seeded database -/

section Again

variable {config : VhostConfig} {db : TenantDb} {key name document_root : String} {now : ℤ}

theorem seedOrganization_eq_self (h : SeededAs db key name document_root) :
    seedOrganization db.toPanelDb key name document_root now = db.toPanelDb := by
  obtain ⟨i, o, hfind⟩ := h.present
  have hsame : db.organizations.update (fun _ o => o.key == key)
      (fun o => { o with name := name, document_root := document_root }) =
        db.organizations := by
    apply Table.update_eq_self
    intro j p hp hkey
    obtain ⟨hname, hroot⟩ := h.columns j p hp (beq_iff_eq.mp hkey)
    simp [← hname, ← hroot]
  simp only [seedOrganization, hfind, hsame]

theorem organizations_bootAccounts (db : PanelDb) (main_root cms_root : String) (now : ℤ) :
    (bootAccounts db main_root cms_root now fun _ => true).1.organizations =
      (seedOrganization (seedOrganization db mainOrganizationKey "Main site" main_root now)
        cmsOrganizationKey "CMS" cms_root now).organizations :=
  (organizations_pruneMirror _).trans (organizations_mirrorEditors _)

/-- The seeder's row of a configured host. -/
def ListedRow (db : TenantDb) (hostname : String) : Prop :=
  ∃ i cms o, findOrganization db.toPanelDb cmsOrganizationKey = some (cms, o) ∧
    (i, ⟨hostname, cms, .config⟩) ∈ db.domains.rows

theorem seedDomain_eq_self {raw : String}
    (h : (normalizeHostname raw).isEmpty = false → ListedRow db (normalizeHostname raw)) :
    seedDomain db raw = db := by
  unfold seedDomain
  simp only
  split
  · rfl
  · rename_i hempty
    obtain ⟨i, cms, o, horg, hrow⟩ := h (by simpa using hempty)
    rw [horg]
    simp only [upsertDomain_eq_self hrow]

theorem pruneDomains_eq_self {hosts : List String}
    (h : ∀ i d, (i, d) ∈ db.domains.rows → d.source = .config →
      ∃ raw ∈ hosts, normalizeHostname raw = d.hostname) : pruneDomains db hosts = db := by
  have hkeep : (db.domains.delete fun _ d => d.source == .config &&
      !hosts.any fun raw => normalizeHostname raw == d.hostname) = db.domains := by
    apply Constrained.delete_eq_self
    intro i d hd
    by_cases hsource : d.source = .config
    · obtain ⟨raw, hraw, hname⟩ := h i d hd hsource
      have hany : (hosts.any fun raw => normalizeHostname raw == d.hostname) = true :=
        List.any_eq_true.mpr ⟨raw, hraw, by simp [hname]⟩
      simp [hany]
    · simp [hsource]
  simp only [pruneDomains, hkeep]

theorem seedDomains_eq_self {hosts : List String}
    (hlisted : ∀ raw ∈ hosts, (normalizeHostname raw).isEmpty = false →
      ListedRow db (normalizeHostname raw))
    (hunlisted : ∀ i d, (i, d) ∈ db.domains.rows → d.source = .config →
      ∃ raw ∈ hosts, normalizeHostname raw = d.hostname) : seedDomains db hosts = db := by
  have hfold : ∀ names, names ⊆ hosts → names.foldl seedDomain db = db := by
    intro names
    induction names with
    | nil => exact fun _ => rfl
    | cons raw names ih =>
        intro hsub
        obtain ⟨hraw, hrest⟩ := List.cons_subset.mp hsub
        rw [List.foldl_cons, seedDomain_eq_self (hlisted raw hraw), ih hrest]
  rw [seedDomains, hfold _ (List.Subset.refl _), pruneDomains_eq_self hunlisted]

/-- **Seeding again** leaves the organizations and the host names alone. -/
theorem bootDb_of_seeded (h : Seeded config db) (now : ℤ) :
    (bootDb config db now).organizations = db.organizations ∧
      (bootDb config db now).domains = db.domains := by
  have horgs : (seedOrganizations config db now).organizations = db.organizations := by
    show (bootAccounts _ _ _ _ _).1.organizations = _
    rw [organizations_bootAccounts, seedOrganization_eq_self h.main,
      seedOrganization_eq_self h.cms]
  have hfind : ∀ key, findOrganization (seedOrganizations config db now).toPanelDb key =
      findOrganization db.toPanelDb key := by
    intro key
    rw [findOrganization, horgs]
    rfl
  have hagain : Seeded config (seedOrganizations config db now) := by
    constructor
    · exact ⟨by simpa only [hfind] using h.main.present, by
        rw [horgs]
        exact h.main.columns⟩
    · exact ⟨by simpa only [hfind] using h.cms.present, by
        rw [horgs]
        exact h.cms.columns⟩
    · simp only [hfind]
      exact h.listed
    · exact h.unlisted
  rw [bootDb, seedDomains_eq_self hagain.listed hagain.unlisted]
  exact ⟨horgs, rfl⟩

/-- What the routing reads. -/
theorem derived_congr (config : VhostConfig) {db' : TenantDb}
    (horgs : db'.organizations = db.organizations) (hdomains : db'.domains = db.domains) :
    loadHostBindings db' = loadHostBindings db ∧ derived config db' = derived config db := by
  have hbindings : loadHostBindings db' = loadHostBindings db := by
    rw [loadHostBindings, loadHostBindings, horgs, hdomains]
  refine ⟨hbindings, ?_⟩
  rw [derived, derived, hbindings, loadDocumentRoots, loadDocumentRoots, horgs]

end Again

/-! ## The first seeding -/

section First

variable {config : VhostConfig} {db : TenantDb} {now : ℤ}

theorem findOrganization_seedOrganization_ne (db : PanelDb) {key other : String}
    (name document_root : String) (now : ℤ) (h : other ≠ key) :
    (findOrganization (seedOrganization db key name document_root now) other).isSome =
      (findOrganization db other).isSome := by
  unfold seedOrganization
  split
  · have hmiss : (key == other) = false := by simpa using h.symm
    simp [findOrganization, Table.find?, Table.insert, List.find?_append, hmiss]
  · rw [Bool.eq_iff_iff]
    simp only [findOrganization, Table.find?, Table.update, List.find?_isSome, List.mem_map]
    constructor
    · rintro ⟨_, ⟨r, hr, rfl⟩, hkey⟩
      refine ⟨r, hr, ?_⟩
      split at hkey
      · exact hkey
      · exact hkey
    · rintro ⟨r, hr, hkey⟩
      refine ⟨_, ⟨r, hr, rfl⟩, ?_⟩
      split
      · exact hkey
      · exact hkey

/-- The rows of an organization seed. -/
theorem mem_seedOrganization {db : PanelDb} {key name document_root : String} {i : ℕ}
    {o : Organization}
    (h : (i, o) ∈ (seedOrganization db key name document_root now).organizations.rows) :
    (o.key = key ∧ o.name = name ∧ o.document_root = document_root) ∨
      (o.key ≠ key ∧ (i, o) ∈ db.organizations.rows) := by
  unfold seedOrganization at h
  split at h
  · rename_i hnone
    rcases Table.mem_insert.mp h with hold | hnew
    · refine .inr ⟨?_, hold⟩
      intro hkey
      have := Table.find?_none hnone hold
      simp [hkey] at this
    · cases hnew
      exact .inl ⟨rfl, rfl, rfl⟩
  · obtain ⟨p, hp, rfl⟩ := Table.mem_update.mp h
    by_cases hkey : p.key = key
    · simp [hkey]
    · right
      simp only [beq_iff_eq, hkey, if_false]
      exact ⟨hkey, hp⟩

theorem seededAs_seedOrganizations (config : VhostConfig) (db : TenantDb) (now : ℤ) :
    SeededAs (seedOrganizations config db now) mainOrganizationKey "Main site"
        config.root_dir ∧
      SeededAs (seedOrganizations config db now) cmsOrganizationKey "CMS" config.views_dir := by
  have hne : mainOrganizationKey ≠ cmsOrganizationKey := by decide
  have horgs : (seedOrganizations config db now).organizations = _ :=
    organizations_bootAccounts db.toPanelDb config.root_dir config.views_dir now
  have hfind : ∀ key, findOrganization (seedOrganizations config db now).toPanelDb key =
      findOrganization (seedOrganization (seedOrganization db.toPanelDb mainOrganizationKey
        "Main site" config.root_dir now) cmsOrganizationKey "CMS" config.views_dir now) key := by
    intro key
    rw [findOrganization, horgs]
    rfl
  refine ⟨⟨?_, ?_⟩, ⟨?_, ?_⟩⟩
  · rw [← Prod.exists', ← Option.isSome_iff_exists, hfind,
      findOrganization_seedOrganization_ne _ _ _ _ hne]
    exact findOrganization_seed ..
  · intro i o ho hkey
    rw [horgs] at ho
    rcases mem_seedOrganization ho with ⟨hcms, _⟩ | ⟨_, ho⟩
    · exact absurd (hkey.symm.trans hcms) hne
    · rcases mem_seedOrganization ho with ⟨_, hcolumns⟩ | ⟨hother, _⟩
      · exact hcolumns
      · exact absurd hkey hother
  · rw [← Prod.exists', ← Option.isSome_iff_exists, hfind]
    exact findOrganization_seed ..
  · intro i o ho hkey
    rw [horgs] at ho
    rcases mem_seedOrganization ho with ⟨_, hcolumns⟩ | ⟨hother, _⟩
    · exact hcolumns
    · exact absurd hkey hother

theorem toPanelDb_seedDomain (db : TenantDb) (raw : String) :
    (seedDomain db raw).toPanelDb = db.toPanelDb := by
  unfold seedDomain
  simp only
  split
  · rfl
  · split <;> rfl

theorem toPanelDb_seedDomains (db : TenantDb) (hosts : List String) :
    (seedDomains db hosts).toPanelDb = db.toPanelDb := by
  show (hosts.foldl seedDomain db).toPanelDb = db.toPanelDb
  induction hosts generalizing db with
  | nil => rfl
  | cons raw hosts ih => rw [List.foldl_cons, ih, toPanelDb_seedDomain]

/-- The host names after the upserts: the seeder's for the listed names, and the
other rows as they were. -/
theorem mem_seedDomain_foldl {hosts : List String} {cms : ℕ} {o : Organization}
    (horg : findOrganization db.toPanelDb cmsOrganizationKey = some (cms, o)) {d : Domain} :
    (∃ i, (i, d) ∈ (hosts.foldl seedDomain db).domains.rows) ↔
      (∃ raw ∈ hosts, (normalizeHostname raw).isEmpty = false ∧
        d = ⟨normalizeHostname raw, cms, .config⟩) ∨
      (∃ i, (i, d) ∈ db.domains.rows) ∧
        ∀ raw ∈ hosts, (normalizeHostname raw).isEmpty = false →
          d.hostname ≠ normalizeHostname raw := by
  induction hosts using List.reverseRecOn with
  | nil => simp
  | append_singleton hosts raw ih =>
      have hpanel : (hosts.foldl seedDomain db).toPanelDb = db.toPanelDb :=
        toPanelDb_seedDomains db hosts
      rw [List.foldl_append, List.foldl_cons, List.foldl_nil, seedDomain, hpanel, horg]
      simp only [List.mem_append, List.mem_singleton]
      by_cases hempty : (normalizeHostname raw).isEmpty = true
      · rw [if_pos hempty, ih]
        constructor
        · rintro (⟨r, hr, hd⟩ | ⟨hold, hother⟩)
          · exact .inl ⟨r, .inl hr, hd⟩
          · refine .inr ⟨hold, ?_⟩
            rintro r (hr | rfl) hne
            · exact hother r hr hne
            · rw [hempty] at hne
              cases hne
        · rintro (⟨r, hr | rfl, hne, hd⟩ | ⟨hold, hother⟩)
          · exact .inl ⟨r, hr, hne, hd⟩
          · rw [hempty] at hne
            cases hne
          · exact .inr ⟨hold, fun r hr => hother r (.inl hr)⟩
      · rw [if_neg hempty, mem_upsertDomain, ih]
        have hempty : (normalizeHostname raw).isEmpty = false := by simpa using hempty
        constructor
        · rintro (rfl | ⟨⟨r, hr, hd⟩ | ⟨hold, hother⟩, hne⟩)
          · exact .inl ⟨raw, .inr rfl, hempty, rfl⟩
          · exact .inl ⟨r, .inl hr, hd⟩
          · refine .inr ⟨hold, ?_⟩
            rintro r (hr | rfl) hne'
            · exact hother r hr hne'
            · exact hne
        · rintro (⟨r, hr | rfl, hne, rfl⟩ | ⟨hold, hother⟩)
          · by_cases hsame : normalizeHostname r = normalizeHostname raw
            · exact .inl (by rw [hsame])
            · exact .inr ⟨.inl ⟨r, hr, hne, rfl⟩, hsame⟩
          · exact .inl rfl
          · exact .inr ⟨.inr ⟨hold, fun r hr => hother r (.inl hr)⟩,
              hother raw (.inr rfl) hempty⟩

/-- **A booted database is seeded.** -/
theorem seeded_bootDb (config : VhostConfig) (db : TenantDb) (now : ℤ) :
    Seeded config (bootDb config db now) := by
  obtain ⟨hmain, hcms⟩ := seededAs_seedOrganizations config db now
  have hpanel : (bootDb config db now).toPanelDb =
      (seedOrganizations config db now).toPanelDb := toPanelDb_seedDomains _ _
  obtain ⟨cms, o, horg⟩ := hcms.present
  have hrows : ∀ i d, (i, d) ∈ (bootDb config db now).domains.rows ↔
      (i, d) ∈ (config.cms_hosts.foldl seedDomain
        (seedOrganizations config db now)).domains.rows ∧
      (d.source = .config → ∃ raw ∈ config.cms_hosts, normalizeHostname raw = d.hostname) := by
    intro i d
    rw [bootDb, seedDomains, pruneDomains, Constrained.mem_delete, and_congr_right_iff]
    intro _
    simp [imp_iff_not_or]
  constructor
  · exact ⟨by simpa only [hpanel] using hmain.present, by
      rw [hpanel]
      exact hmain.columns⟩
  · exact ⟨by simpa only [hpanel] using hcms.present, by
      rw [hpanel]
      exact hcms.columns⟩
  · intro raw hraw hempty
    have hlisted := (mem_seedDomain_foldl horg).mpr
      (.inl ⟨raw, hraw, hempty, rfl⟩)
    obtain ⟨i, hi⟩ := hlisted
    refine ⟨i, cms, o, by rw [hpanel, horg], ?_⟩
    rw [hrows]
    exact ⟨hi, fun _ => ⟨raw, hraw, rfl⟩⟩
  · intro i d hd hsource
    exact ((hrows i d).mp hd).2 hsource

/-- The seeds map hosts to organizations that exist. -/
theorem knownOwners_bootDb (h : KnownOwners db) : KnownOwners (bootDb config db now) := by
  obtain ⟨_, hcms⟩ := seededAs_seedOrganizations config db now
  obtain ⟨cms, o, horg⟩ := hcms.present
  have hpanel : (bootDb config db now).toPanelDb =
      (seedOrganizations config db now).toPanelDb := toPanelDb_seedDomains _ _
  have hseq : db.organizations.seq ≤ (seedOrganizations config db now).organizations.seq := by
    have hgrow : ∀ (d : PanelDb) key name root, d.organizations.seq ≤
        (seedOrganization d key name root now).organizations.seq := by
      intro d key name root
      unfold seedOrganization
      split
      · exact Nat.le_succ _
      · exact Nat.le_refl _
    show _ ≤ (bootAccounts _ _ _ _ _).1.organizations.seq
    rw [organizations_bootAccounts]
    exact (hgrow _ _ _ _).trans (hgrow _ _ _ _)
  intro i d hd
  rw [hpanel]
  rw [bootDb, seedDomains, pruneDomains, Constrained.mem_delete] at hd
  rcases (mem_seedDomain_foldl horg).mp ⟨i, hd.1⟩ with ⟨_, _, _, rfl⟩ | ⟨⟨j, hj⟩, _⟩
  · exact Table.le_seq_of_mem (findOrganization_some horg).1
  · exact (h j d hj).trans hseq

end First

end Wallermax.Tenants
