import Wallermax.Tenants.Boot

/-!
# Seeding the host names

`seed_domains` makes its own rows those of the `[cms] hosts` list, whatever the
table and the lists before it were, and touches no other row. Names that come to
nothing are skipped by the upserts; the pruning does not skip them, and keeps a
row of its own that has no name.
-/

namespace Wallermax.Tenants

open Wallermax.Base
open Wallermax.Accounts

/-- The host names the list configures. -/
def configuredNames (hosts : List String) : List String :=
  (hosts.map normalizeHostname).filter (!·.isEmpty)

/-- The host names of the seeder's rows. -/
def ConfigName (db : TenantDb) (name : String) : Prop :=
  ∃ i d, (i, d) ∈ db.domains.rows ∧ d.source = .config ∧ d.hostname = name

/-- What seeding a list is to leave of a table. -/
structure SeedsList (cms : ℕ) (db : TenantDb) (hosts : List String) : Prop where
  /-- one row for each configured name, the CMS organization's -/
  config : ∀ d, d.source = .config → ((∃ i, (i, d) ∈ (seedDomains db hosts).domains.rows) ↔
    d.hostname ∈ configuredNames hosts ∧ d.organization_id = cms)
  distinct : ∀ i j d e, (i, d) ∈ (seedDomains db hosts).domains.rows →
    (j, e) ∈ (seedDomains db hosts).domains.rows → d.hostname = e.hostname → i = j ∧ d = e
  /-- the manual rows are those of the names the list leaves -/
  manual : ∀ i d, d.source = .manual → ((i, d) ∈ (seedDomains db hosts).domains.rows ↔
    (i, d) ∈ db.domains.rows ∧ d.hostname ∉ configuredNames hosts)
  ids : ∀ i j d e, (i, d) ∈ db.domains.rows →
    (j, e) ∈ (seedDomains db hosts).domains.rows → d.hostname = e.hostname → i = j
  again : seedDomains (seedDomains db hosts) hosts = seedDomains db hosts
  forgetful : ∀ earlier name, ConfigName (seedDomains (seedDomains db earlier) hosts) name ↔
    ConfigName (seedDomains db hosts) name

/-- A row of the seeder's without a name, and a list with an entry that comes to
nothing. -/
def KeepsNameless (db : TenantDb) (hosts : List String) : Prop :=
  ConfigName db "" ∧ ∃ raw ∈ hosts, normalizeHostname raw = ""

theorem mem_configuredNames {hosts : List String} {name : String} :
    name ∈ configuredNames hosts ↔
      ∃ raw ∈ hosts, (normalizeHostname raw).isEmpty = false ∧ name = normalizeHostname raw := by
  simp only [configuredNames, List.mem_filter, List.mem_map, Bool.not_eq_true']
  constructor
  · rintro ⟨⟨raw, hraw, rfl⟩, hne⟩
    exact ⟨raw, hraw, hne, rfl⟩
  · rintro ⟨raw, hraw, hne, rfl⟩
    exact ⟨⟨raw, hraw, rfl⟩, hne⟩

section

variable {db : TenantDb} {hosts : List String} {cms : ℕ} {o : Organization}

/-! ## The rows after seeding -/

/-- An upsert leaves every name under its id. -/
theorem upsertDomain_kept {domains : Domains} {hostname : String} {i : ℕ} {d : Domain}
    (hd : (i, d) ∈ domains.rows) :
    ∃ e, (i, e) ∈ (upsertDomain domains hostname cms).rows ∧ e.hostname = d.hostname := by
  rcases upsertDomain_cases domains hostname cms with ⟨t, hins, heq⟩ | ⟨_, hrows⟩
  · rw [heq]
    exact ⟨d, (Constrained.mem_insert? hins).mpr (.inl hd), rfl⟩
  · refine ⟨_, (hrows i _).mpr ⟨d, hd, rfl⟩, ?_⟩
    split
    · rename_i hname
      exact hname.symm
    · rfl

theorem seedDomain_kept (raw : String) {i : ℕ} {d : Domain} (hd : (i, d) ∈ db.domains.rows) :
    ∃ e, (i, e) ∈ (seedDomain db raw).domains.rows ∧ e.hostname = d.hostname := by
  unfold seedDomain
  simp only
  split
  · exact ⟨d, hd, rfl⟩
  · split
    · exact ⟨d, hd, rfl⟩
    · exact upsertDomain_kept hd

theorem seedDomain_foldl_kept {i : ℕ} {d : Domain} (hd : (i, d) ∈ db.domains.rows) :
    ∃ e, (i, e) ∈ (hosts.foldl seedDomain db).domains.rows ∧ e.hostname = d.hostname := by
  induction hosts using List.reverseRecOn with
  | nil => exact ⟨d, hd, rfl⟩
  | append_singleton hosts raw ih =>
      obtain ⟨e, he, hname⟩ := ih
      obtain ⟨f, hf, hname'⟩ := seedDomain_kept raw he
      rw [List.foldl_append, List.foldl_cons, List.foldl_nil]
      exact ⟨f, hf, hname'.trans hname⟩

theorem mem_seedDomains {i : ℕ} {d : Domain} :
    (i, d) ∈ (seedDomains db hosts).domains.rows ↔
      (i, d) ∈ (hosts.foldl seedDomain db).domains.rows ∧
        (d.source = .config → ∃ raw ∈ hosts, normalizeHostname raw = d.hostname) := by
  rw [seedDomains, pruneDomains, Constrained.mem_delete, and_congr_right_iff]
  intro _
  simp [imp_iff_not_or]

/-- **The rows after seeding**: the configured names, and of the others the manual ones
and a nameless one that an empty entry keeps. -/
theorem mem_seedDomains_iff
    (horg : findOrganization db.toPanelDb cmsOrganizationKey = some (cms, o)) {d : Domain} :
    (∃ i, (i, d) ∈ (seedDomains db hosts).domains.rows) ↔
      (d.hostname ∈ configuredNames hosts ∧ d = ⟨d.hostname, cms, .config⟩) ∨
      (d.hostname ∉ configuredNames hosts ∧ (∃ i, (i, d) ∈ db.domains.rows) ∧
        (d.source = .config → d.hostname = "" ∧ ∃ raw ∈ hosts, normalizeHostname raw = "")) := by
  have hother : (∀ raw ∈ hosts, (normalizeHostname raw).isEmpty = false →
      d.hostname ≠ normalizeHostname raw) ↔ d.hostname ∉ configuredNames hosts := by
    rw [mem_configuredNames]
    push Not
    rfl
  have hlisted : (∃ raw ∈ hosts, (normalizeHostname raw).isEmpty = false ∧
      d = ⟨normalizeHostname raw, cms, .config⟩) ↔
      d.hostname ∈ configuredNames hosts ∧ d = ⟨d.hostname, cms, .config⟩ := by
    rw [mem_configuredNames]
    constructor
    · rintro ⟨raw, hraw, hne, rfl⟩
      exact ⟨⟨raw, hraw, hne, rfl⟩, rfl⟩
    · rintro ⟨⟨raw, hraw, hne, hname⟩, hd⟩
      exact ⟨raw, hraw, hne, hname ▸ hd⟩
  simp only [mem_seedDomains, exists_and_right, mem_seedDomain_foldl horg, hother, hlisted]
  constructor
  · rintro ⟨⟨hname, hd⟩ | ⟨hold, hname⟩, hkept⟩
    · exact .inl ⟨hname, hd⟩
    · refine .inr ⟨hname, hold, fun hsource => ?_⟩
      obtain ⟨raw, hraw, heq⟩ := hkept hsource
      -- an entry with a name would have configured this one
      have hempty : (normalizeHostname raw).isEmpty = true := by
        by_contra hne
        exact hname (mem_configuredNames.mpr ⟨raw, hraw, by simpa using hne, heq.symm⟩)
      have hblank := String.isEmpty_iff.mp hempty
      exact ⟨heq.symm.trans hblank, raw, hraw, hblank⟩
  · rintro (⟨hname, hd⟩ | ⟨hname, hold, hblank⟩)
    · refine ⟨.inl ⟨hname, hd⟩, fun _ => ?_⟩
      obtain ⟨raw, hraw, _, heq⟩ := mem_configuredNames.mp hname
      exact ⟨raw, hraw, heq.symm⟩
    · refine ⟨.inr ⟨hold, hname⟩, fun hsource => ?_⟩
      obtain ⟨heq, raw, hraw, hempty⟩ := hblank hsource
      exact ⟨raw, hraw, hempty.trans heq.symm⟩

/-- A name that was there is there under its id. -/
theorem id_seedDomains {i j : ℕ} {d e : Domain} (hd : (i, d) ∈ db.domains.rows)
    (he : (j, e) ∈ (seedDomains db hosts).domains.rows) (hname : d.hostname = e.hostname) :
    i = j := by
  obtain ⟨f, hf, hkept⟩ : ∃ f, (i, f) ∈ (hosts.foldl seedDomain db).domains.rows ∧
      f.hostname = d.hostname := seedDomain_foldl_kept hd
  exact (eq_of_hostname hf (mem_seedDomains.mp he).1 (hkept.trans hname)).1

theorem nameless_not_configured : "" ∉ configuredNames hosts := by
  rw [mem_configuredNames]
  rintro ⟨raw, _, hne, heq⟩
  rw [← heq] at hne
  cases hne

/-- The seeder's rows, where no nameless one stays. -/
theorem config_seedDomains
    (horg : findOrganization db.toPanelDb cmsOrganizationKey = some (cms, o))
    (h : ¬KeepsNameless db hosts) {d : Domain} (hsource : d.source = .config) :
    (∃ i, (i, d) ∈ (seedDomains db hosts).domains.rows) ↔
      d.hostname ∈ configuredNames hosts ∧ d.organization_id = cms := by
  rw [mem_seedDomains_iff horg]
  constructor
  · rintro (⟨hname, hd⟩ | ⟨_, ⟨i, hold⟩, hblank⟩)
    · exact ⟨hname, by rw [hd]⟩
    · obtain ⟨hname, hraw⟩ := hblank hsource
      exact absurd ⟨⟨i, d, hold, hsource, hname⟩, hraw⟩ h
  · rintro ⟨hname, rfl⟩
    refine .inl ⟨hname, ?_⟩
    rw [← hsource]

theorem configName_seedDomains
    (horg : findOrganization db.toPanelDb cmsOrganizationKey = some (cms, o))
    (h : ¬KeepsNameless db hosts) {name : String} :
    ConfigName (seedDomains db hosts) name ↔ name ∈ configuredNames hosts := by
  constructor
  · rintro ⟨i, d, hd, hsource, rfl⟩
    exact ((config_seedDomains horg h hsource).mp ⟨i, hd⟩).1
  · intro hname
    obtain ⟨i, hd⟩ := (config_seedDomains horg h (d := ⟨name, cms, .config⟩) rfl).mpr ⟨hname, rfl⟩
    exact ⟨i, _, hd, rfl, rfl⟩

/-- Seeding an earlier list leaves no nameless row that was not there. -/
theorem KeepsNameless.of_seedDomains {earlier : List String}
    (horg : findOrganization db.toPanelDb cmsOrganizationKey = some (cms, o))
    (h : KeepsNameless (seedDomains db earlier) hosts) : KeepsNameless db hosts := by
  obtain ⟨⟨i, d, hd, hsource, hname⟩, hraw⟩ := h
  refine ⟨?_, hraw⟩
  rcases (mem_seedDomains_iff horg).mp ⟨i, hd⟩ with ⟨hlisted, _⟩ | ⟨_, ⟨j, hold⟩, _⟩
  · rw [hname] at hlisted
    exact absurd hlisted nameless_not_configured
  · exact ⟨j, d, hold, hsource, hname⟩

/-- **Seeding a list** does to every table what it is to do, except where the seeder
keeps a nameless row. -/
theorem seedsList_iff (db : TenantDb) (hosts : List String) {cms : ℕ} {o : Organization}
    (horg : findOrganization db.toPanelDb cmsOrganizationKey = some (cms, o)) :
    SeedsList cms db hosts ↔ ¬KeepsNameless db hosts := by
  constructor
  · rintro hlaw ⟨⟨i, d, hd, hsource, hname⟩, raw, hraw, hblank⟩
    -- the nameless row is kept, and no name of the list accounts for it
    have hfree : d.hostname ∉ configuredNames hosts := hname ▸ nameless_not_configured
    have hstays := (mem_seedDomains_iff horg).mpr
      (.inr ⟨hfree, ⟨i, hd⟩, fun _ => ⟨hname, raw, hraw, hblank⟩⟩)
    exact hfree ((hlaw.config d hsource).mp hstays).1
  · intro h
    have hpanel : ∀ earlier, findOrganization (seedDomains db earlier).toPanelDb
        cmsOrganizationKey = some (cms, o) := by
      intro earlier
      rw [toPanelDb_seedDomains]
      exact horg
    constructor
    · exact fun d => config_seedDomains horg h
    · exact fun i j d e => eq_of_hostname
    · intro i d hsource
      have hmem : (∃ i, (i, d) ∈ (seedDomains db hosts).domains.rows) ↔ _ :=
        mem_seedDomains_iff horg
      constructor
      · intro hd
        rcases hmem.mp ⟨i, hd⟩ with ⟨_, heq⟩ | ⟨hfree, ⟨j, hold⟩, _⟩
        · rw [heq] at hsource
          cases hsource
        · obtain rfl := id_seedDomains hold hd rfl
          exact ⟨hold, hfree⟩
      · rintro ⟨hold, hfree⟩
        obtain ⟨j, hd⟩ := hmem.mpr
          (.inr ⟨hfree, ⟨i, hold⟩, fun hconfig => by rw [hsource] at hconfig; cases hconfig⟩)
        obtain rfl := id_seedDomains hold hd rfl
        exact hd
    · exact fun i j d e => id_seedDomains
    · apply seedDomains_eq_self
      · intro raw hraw hne
        have hname : normalizeHostname raw ∈ configuredNames hosts :=
          mem_configuredNames.mpr ⟨raw, hraw, hne, rfl⟩
        obtain ⟨i, hd⟩ := (config_seedDomains horg h
          (d := ⟨normalizeHostname raw, cms, .config⟩) rfl).mpr ⟨hname, rfl⟩
        exact ⟨i, cms, o, hpanel hosts, hd⟩
      · exact fun i d hd => (mem_seedDomains.mp hd).2
    · intro earlier name
      rw [configName_seedDomains (hpanel earlier) fun hagain => h (hagain.of_seedDomains horg),
        configName_seedDomains horg h]

end

/-! ## A row without a name -/

/-- A row of the seeder's that has no name, and an operator's own. -/
def namelessRow : TenantDb :=
  { twoTenants with
    domains :=
      { rows := [(1, ⟨"", 3, .config⟩), (2, ⟨"acme.example", 3, .manual⟩)]
        seq := 2, ids_nodup := by decide, ids_le_seq := by decide
        checked := by decide, unique := by decide } }

theorem seedsList_namelessRow :
    SeedsList 2 namelessRow ["CMS.example."] ↔ ¬KeepsNameless namelessRow ["CMS.example."] :=
  seedsList_iff namelessRow ["CMS.example."]
    (show findOrganization namelessRow.toPanelDb cmsOrganizationKey =
      some (2, ⟨"cms", "CMS", "views", 0⟩) by decide)

/-- With a dot for a host name the nameless row stays, another organization's. -/
theorem nameless_not_pruned :
    findOrganization namelessRow.toPanelDb cmsOrganizationKey =
        some (2, ⟨"cms", "CMS", "views", 0⟩) ∧
      ¬SeedsList 2 namelessRow ["."] := by
  refine ⟨by decide, ?_⟩
  intro hlaw
  have hstays : (1, ⟨"", 3, .config⟩) ∈ (seedDomains namelessRow ["."]).domains.rows := by
    decide +kernel
  exact nameless_not_configured ((hlaw.config ⟨"", 3, .config⟩ rfl).mp ⟨1, hstays⟩).1

end Wallermax.Tenants
