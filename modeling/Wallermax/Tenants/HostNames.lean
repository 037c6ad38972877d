import Wallermax.Base.Csp
import Wallermax.Base.Trim
import Wallermax.Tenants.Dispatch
import Wallermax.Tenants.Seeding

/-!
# Host names in normal form

The table keeps one row for each stored name, and a request is matched against the
names as they are normalized again on the way out. The two agree where a stored name
is its own normal form. A name loses white space before it loses its dot, so white
space in front of the dot is stored, and so would be a second dot if the panel's
validation did not refuse it.
-/

namespace Wallermax.Tenants

open Wallermax.Base
open Wallermax.Accounts

def NormalForm (name : String) : Prop := normalizeHostname name = name

/-- The trimmed name has white space or another dot in front of its trailing dot. -/
def LooseDot (raw : String) : Prop :=
  ∃ front c, (trim raw).toList = front ++ [c, '.'] ∧ (isWhitespace c = true ∨ c = '.')

/-! ## The normal form -/

/-- `strip_suffix('.')`. -/
def stripDot (chars : List Char) : List Char :=
  if chars.getLast? = some '.' then chars.dropLast else chars

theorem toList_normalizeHostname (raw : String) :
    (normalizeHostname raw).toList = (stripDot (trim raw).toList).map Char.toLower :=
  String.toList_ofList

theorem toList_trim (raw : String) : (trim raw).toList = trimBy isWhitespace raw.toList :=
  String.toList_ofList

theorem isWhitespace_toLower (c : Char) : isWhitespace c.toLower = isWhitespace c :=
  Csp.toLower_cases (P := fun c d => isWhitespace d = isWhitespace c) (by decide)
    (fun _ => rfl) c

theorem length_stripDot_le (chars : List Char) : (stripDot chars).length ≤ chars.length := by
  unfold stripDot
  split
  · rw [List.length_dropLast]
    omega
  · exact Nat.le_refl _

/-- What starts and ends with a visible character, not with a dot, and is in lower
case. -/
theorem normalForm_iff {name : String} : NormalForm name ↔
    trimBy isWhitespace name.toList = name.toList ∧ name.toList.getLast? ≠ some '.' ∧
      name.toList.map Char.toLower = name.toList := by
  have hlist : NormalForm name ↔
      (stripDot (trimBy isWhitespace name.toList)).map Char.toLower = name.toList := by
    rw [NormalForm, ← String.toList_inj, toList_normalizeHostname, toList_trim]
  rw [hlist]
  constructor
  · intro h
    -- nothing was stripped, for the length is kept
    have hlength := congrArg List.length h
    rw [List.length_map] at hlength
    have hinfix := trimBy_isInfix isWhitespace name.toList
    have hle := length_stripDot_le (trimBy isWhitespace name.toList)
    have htrim : trimBy isWhitespace name.toList = name.toList :=
      hinfix.eq_of_length (by have := hinfix.length_le; omega)
    rw [htrim] at h hlength
    have hdot : name.toList.getLast? ≠ some '.' := by
      intro hdot
      rw [stripDot, if_pos hdot, List.length_dropLast] at hlength
      have hpos : 0 < name.toList.length := by
        rw [List.length_pos_iff]
        rintro hnil
        rw [hnil] at hdot
        cases hdot
      omega
    rw [stripDot, if_neg hdot] at h
    exact ⟨htrim, hdot, h⟩
  · rintro ⟨htrim, hdot, hlower⟩
    rw [htrim, stripDot, if_neg hdot, hlower]

theorem map_toLower_toLower (t : List Char) :
    (t.map Char.toLower).map Char.toLower = t.map Char.toLower :=
  Csp.lower_lower t

/-- A name in lower case, from its ends. -/
theorem normalForm_lower_iff {t : List Char} : NormalForm (String.ofList (t.map Char.toLower)) ↔
    (∀ c ∈ t.head?, isWhitespace c = false) ∧ ∀ c ∈ t.getLast?, isWhitespace c = false ∧ c ≠ '.' := by
  rw [normalForm_iff, String.toList_ofList, map_toLower_toLower, trimBy_eq_self_iff,
    List.head?_map, List.getLast?_map]
  simp only [Option.mem_def, Option.map_eq_some_iff, forall_exists_index, and_imp,
    forall_apply_eq_imp_iff₂, isWhitespace_toLower, ne_eq, not_exists, not_and,
    Csp.toLower_eq_dot, and_true]
  constructor
  · rintro ⟨⟨hfirst, hlast⟩, hdot⟩
    exact ⟨hfirst, fun c hc => ⟨hlast c hc, hdot c hc⟩⟩
  · rintro ⟨hfirst, hlast⟩
    exact ⟨⟨hfirst, fun c hc => (hlast c hc).1⟩, fun c hc => (hlast c hc).2⟩

/-- **The stored name is in normal form** unless its dot is loose. -/
theorem normalForm_normalizeHostname (raw : String) :
    NormalForm (normalizeHostname raw) ↔ ¬LooseDot raw := by
  have hname : normalizeHostname raw =
      String.ofList ((stripDot (trim raw).toList).map Char.toLower) := rfl
  have hfirst : ∀ c ∈ (trim raw).toList.head?, isWhitespace c = false := by
    rw [toList_trim]
    exact head_trimBy
  have hlast : ∀ c ∈ (trim raw).toList.getLast?, isWhitespace c = false := by
    rw [toList_trim]
    exact last_trimBy
  rw [hname, normalForm_lower_iff]
  unfold LooseDot
  generalize (trim raw).toList = t at hfirst hlast
  by_cases hdot : t.getLast? = some '.'
  · obtain ⟨front, rfl⟩ : ∃ front, t = front ++ ['.'] :=
      ⟨t.dropLast, (List.dropLast_append_getLast? '.' hdot).symm⟩
    rw [stripDot, if_pos hdot, List.dropLast_concat]
    have hhead : ∀ c ∈ front.head?, isWhitespace c = false := by
      intro c hc
      apply hfirst
      rw [List.head?_append, Option.mem_def.mp hc]
      rfl
    rw [and_iff_right hhead]
    constructor
    · rintro hvisible ⟨front', c, heq, hc⟩
      have hsnoc : front ++ ['.'] = (front' ++ [c]) ++ ['.'] := by simpa using heq
      obtain rfl := List.append_cancel_right hsnoc
      obtain ⟨hwhite, hne⟩ := hvisible c (by simp)
      rcases hc with hc | hc
      · rw [hwhite] at hc
        cases hc
      · exact hne hc
    · intro htight c hc
      obtain ⟨front', rfl⟩ : ∃ front', front = front' ++ [c] :=
        ⟨front.dropLast, (List.dropLast_append_getLast? c hc).symm⟩
      by_contra hnot
      refine htight ⟨front', c, by simp, ?_⟩
      rw [not_and_or, not_not] at hnot
      simpa using hnot
  · rw [stripDot, if_neg hdot]
    refine iff_of_true ⟨hfirst, fun c hc => ⟨hlast c hc, ?_⟩⟩ ?_
    · rintro rfl
      exact hdot hc
    · rintro ⟨front, c, rfl, -⟩
      exact hdot (by simp)

/-! ## The writers of the table -/

/-- `add_tenant_domain`, behind its guard. -/
def addTenantDomain (config : VhostConfig) (db : TenantDb) (key raw : String) : TenantDb :=
  match findOrganization db.toPanelDb key with
  | none => db
  | some (id, organization) =>
    match (Goal.addDomain key raw).loaded config id organization with
    | .mapDomain _ id hostname =>
        match addDomain db id hostname with
        | .ok db => db
        | .error _ => db
    | _ => db

inductive HostWrite : Type where
  | add (key raw : String)
  | seed (hosts : List String)

def hostWrite (config : VhostConfig) (db : TenantDb) : HostWrite → Option TenantDb
  | .add key raw => some (addTenantDomain config db key raw)
  | .seed hosts => some (seedDomains db hosts)

/-- No name of the write has a loose dot. -/
def HostWrite.Tight : HostWrite → Prop
  | .add _ raw => ¬LooseDot raw
  | .seed hosts => ∀ raw ∈ hosts, ¬LooseDot raw

/-- Every stored name is its own normal form. -/
def NamesNormal (db : TenantDb) : Prop :=
  ∀ i d, (i, d) ∈ db.domains.rows → NormalForm d.hostname

/-- The bindings have names of their own, and no request matches two of them. -/
def RoutesUniquely (db : TenantDb) : Prop :=
  ((loadHostBindings db).map HostBinding.hostname).Nodup ∧
    ∀ host, ∀ b ∈ loadHostBindings db, ∀ b' ∈ loadHostBindings db,
      b.names host = true → b'.names host = true → b = b'

section

variable {config : VhostConfig} {db : TenantDb}

/-- A validated name that is stored is the normalized one. -/
theorem domainForm_mapDomain {organization : Organization} {id id' : ℕ}
    {raw key hostname : String}
    (h : domainForm config organization id raw = .mapDomain key id' hostname) :
    hostname = normalizeHostname raw := by
  unfold domainForm at h
  simp only at h
  split at h
  · cases h
  · split at h
    · cases h
    · cases h
      rfl

theorem hostname_addDomain {db' : TenantDb} {id i : ℕ} {hostname : String} {d : Domain}
    (h : addDomain db id hostname = .ok db') (hd : (i, d) ∈ db'.domains.rows) :
    d.hostname = hostname ∨ (i, d) ∈ db.domains.rows := by
  unfold addDomain at h
  split at h
  · cases h
  · rename_i hinsert
    cases h
    rcases (Constrained.mem_insert? hinsert).mp hd with hold | ⟨w, hw, heq⟩
    · exact .inr hold
    · cases hw
      cases heq
      exact .inl rfl

theorem hostname_addTenantDomain {key raw : String} {i : ℕ} {d : Domain}
    (hd : (i, d) ∈ (addTenantDomain config db key raw).domains.rows) :
    d.hostname = normalizeHostname raw ∨ (i, d) ∈ db.domains.rows := by
  unfold addTenantDomain at hd
  split at hd
  · exact .inr hd
  · rename_i id organization _
    split at hd
    · rename_i hform
      have hform : domainForm config organization id raw = .mapDomain _ _ _ := hform
      split at hd
      · rename_i hadd
        rw [← domainForm_mapDomain hform]
        exact hostname_addDomain hadd hd
      · exact .inr hd
    · exact .inr hd

theorem hostname_upsertDomain {domains : Domains} {hostname : String} {cms i : ℕ} {d : Domain}
    (hd : (i, d) ∈ (upsertDomain domains hostname cms).rows) :
    d.hostname = hostname ∨ ∃ e, (i, e) ∈ domains.rows ∧ e.hostname = d.hostname := by
  rcases upsertDomain_cases domains hostname cms with ⟨t, hinsert, heq⟩ | ⟨_, hrows⟩
  · rw [heq] at hd
    rcases (Constrained.mem_insert? hinsert).mp hd with hold | ⟨w, hw, hrow⟩
    · exact .inr ⟨d, hold, rfl⟩
    · cases hw
      cases hrow
      exact .inl rfl
  · obtain ⟨e, he, hrow⟩ := (hrows i d).mp hd
    by_cases hname : e.hostname = hostname
    · rw [if_pos hname] at hrow
      exact .inl (by rw [← hrow])
    · rw [if_neg hname] at hrow
      exact .inr ⟨e, he, by rw [hrow]⟩

theorem hostname_seedDomain {raw : String} {i : ℕ} {d : Domain}
    (hd : (i, d) ∈ (seedDomain db raw).domains.rows) :
    d.hostname = normalizeHostname raw ∨ ∃ e, (i, e) ∈ db.domains.rows ∧
      e.hostname = d.hostname := by
  unfold seedDomain at hd
  simp only at hd
  split at hd
  · exact .inr ⟨d, hd, rfl⟩
  · split at hd
    · exact .inr ⟨d, hd, rfl⟩
    · exact hostname_upsertDomain hd

/-- A seeded name is one of the list's or was there. -/
theorem hostname_seedDomains {hosts : List String} {i : ℕ} {d : Domain}
    (hd : (i, d) ∈ (seedDomains db hosts).domains.rows) :
    (∃ raw ∈ hosts, d.hostname = normalizeHostname raw) ∨
      ∃ e, (i, e) ∈ db.domains.rows ∧ e.hostname = d.hostname := by
  have hrow := (mem_seedDomains.mp hd).1
  clear hd
  induction hosts using List.reverseRecOn generalizing d with
  | nil => exact .inr ⟨d, hrow, rfl⟩
  | append_singleton hosts raw ih =>
      rw [List.foldl_append, List.foldl_cons, List.foldl_nil] at hrow
      rcases hostname_seedDomain hrow with hname | ⟨e, he, hname⟩
      · exact .inl ⟨raw, by simp, hname⟩
      · rcases ih he with ⟨r, hr, hname'⟩ | ⟨f, hf, hname'⟩
        · exact .inl ⟨r, List.mem_append_left _ hr, hname.symm.trans hname'⟩
        · exact .inr ⟨f, hf, hname'.trans hname⟩

theorem namesNormal_hostWrite {w : HostWrite} {db' : TenantDb} (hnormal : NamesNormal db)
    (hw : w.Tight) (h : hostWrite config db w = some db') : NamesNormal db' := by
  cases w with
  | add key raw =>
      cases h
      intro i d hd
      rcases hostname_addTenantDomain hd with hname | hold
      · rw [hname]
        exact (normalForm_normalizeHostname raw).mpr hw
      · exact hnormal i d hold
  | seed hosts =>
      cases h
      intro i d hd
      rcases hostname_seedDomains hd with ⟨raw, hraw, hname⟩ | ⟨e, he, hname⟩
      · rw [hname]
        exact (normalForm_normalizeHostname raw).mpr (hw raw hraw)
      · rw [← hname]
        exact hnormal i e he

/-! ## The bindings -/

theorem hostname_of_mem_loadHostBindings {b : HostBinding} (hb : b ∈ loadHostBindings db) :
    ∃ i d, (i, d) ∈ db.domains.rows ∧ b.hostname = normalizeHostname d.hostname := by
  obtain ⟨⟨i, d⟩, hd, hjoin⟩ := List.mem_filterMap.mp hb
  obtain ⟨⟨_, o⟩, _, rfl⟩ := Option.map_eq_some_iff.mp hjoin
  exact ⟨i, d, (List.mem_insertionSort _).mp hd, rfl⟩

theorem sublist_hostnames (organizations : Table Organization) (rows : List (ℕ × Domain)) :
    ((rows.filterMap fun r => joinDomain organizations r.2).map HostBinding.hostname).Sublist
      (rows.map fun r => normalizeHostname r.2.hostname) := by
  induction rows with
  | nil => exact List.Sublist.refl _
  | cons r rows ih =>
      rw [List.map_cons]
      rw [List.filterMap_cons]
      cases hjoin : joinDomain organizations r.2 with
      | none => exact ih.cons _
      | some b =>
          obtain ⟨_, _, rfl⟩ := Option.map_eq_some_iff.mp hjoin
          exact ih.cons_cons _

theorem nodup_hostnames (db : TenantDb) : (db.domains.rows.map fun r => r.2.hostname).Nodup := by
  refine List.pairwise_map.mpr (db.domains.unique.imp ?_)
  intro r q h heq
  simp [heq] at h

theorem routesUniquely_of_namesNormal (h : NamesNormal db) : RoutesUniquely db := by
  have hperm := db.domains.rows.perm_insertionSort fun r q => r.1 ≤ q.1
  have hnames : ((loadHostBindings db).map HostBinding.hostname).Nodup := by
    refine List.Nodup.sublist (sublist_hostnames db.organizations _) ?_
    refine ((hperm.map _).nodup_iff).mpr ?_
    have hsame : (db.domains.rows.map fun r => normalizeHostname r.2.hostname) =
        db.domains.rows.map fun r => r.2.hostname :=
      List.map_congr_left fun r hr => h r.1 r.2 hr
    rw [hsame]
    exact nodup_hostnames db
  have hlower : ∀ b ∈ loadHostBindings db,
      b.hostname.toList.map Char.toLower = b.hostname.toList := by
    intro b hb
    obtain ⟨i, d, hd, hname⟩ := hostname_of_mem_loadHostBindings hb
    rw [hname, h i d hd]
    exact (normalForm_iff.mp (h i d hd)).2.2
  refine ⟨hnames, fun host b hb b' hb' hmatch hmatch' => ?_⟩
  have hsame : b.hostname.toList = b'.hostname.toList := by
    rw [← hlower b hb, ← hlower b' hb']
    exact (beq_iff_eq.mp hmatch).trans (beq_iff_eq.mp hmatch').symm
  exact List.inj_on_of_nodup_map hnames hb hb' (String.toList_inj.mp hsame)

end

/-- **Host names are stored in normal form** exactly where no dot is loose, and in every
run of such writes the bindings have names of their own. -/
theorem host_names_normal (config : VhostConfig) (db : TenantDb) (writes : List HostWrite)
    (hdb : NamesNormal db) (htight : ∀ w ∈ writes, w.Tight) :
    (∀ organization id raw key id' hostname,
      domainForm config organization id raw = .mapDomain key id' hostname →
        (NormalForm hostname ↔ ¬LooseDot raw)) ∧
    Throughout (hostWrite config) RoutesUniquely db writes := by
  constructor
  · intro organization id raw key id' hostname h
    rw [domainForm_mapDomain h]
    exact normalForm_normalizeHostname raw
  · have hnormal : Throughout (hostWrite config) NamesNormal db writes := by
      refine throughout_of_eachStep _ (C := fun _ w => w.Tight)
        (fun _ _ _ hs hc h => namesNormal_hostWrite hs hc h) hdb ?_
      intro pre w t u hpre _ _
      exact htight w (hpre.subset (by simp))
    exact hnormal.mono _ fun _ => routesUniquely_of_namesNormal

/-! ## One name twice -/

/-- The panel maps a name, and then the same name with a space in front of its dot. -/
def nameTwice : List HostWrite :=
  [.add "acme" "acme.example", .add "shop" "acme.example ."]

theorem host_names_normal_seeded :
    (∀ organization id raw key id' hostname,
      domainForm defaultConfig organization id raw = .mapDomain key id' hostname →
        (NormalForm hostname ↔ ¬LooseDot raw)) ∧
    Throughout (hostWrite defaultConfig) RoutesUniquely twoTenants
      [.seed [], .add "acme" "Acme.example."] := by
  refine host_names_normal defaultConfig twoTenants _ (fun i d hd => by cases hd) ?_
  intro w hw
  rcases List.mem_cons.mp hw with rfl | hw
  · exact fun raw hraw => by cases hraw
  · obtain rfl := List.mem_singleton.mp hw
    rw [HostWrite.Tight, ← normalForm_normalizeHostname]
    show normalizeHostname (normalizeHostname "Acme.example.") = normalizeHostname "Acme.example."
    decide +kernel

/-- The stored name is not its own normal form, and both rows answer to one name. -/
theorem name_twice_ambiguous :
    NamesNormal twoTenants ∧
    (∃ organization id key id' hostname,
      domainForm defaultConfig organization id "acme.example ." =
        .mapDomain key id' hostname ∧ ¬NormalForm hostname) ∧
    ¬Throughout (hostWrite defaultConfig) RoutesUniquely twoTenants nameTwice := by
  refine ⟨fun i d hd => ?_, ?_, ?_⟩
  · cases hd
  · refine ⟨⟨"shop", "Shop", "sites/shop", 0⟩, 4, "shop", 4, "acme.example ", rfl, ?_⟩
    unfold NormalForm
    decide
  · intro h
    have hrun : run (hostWrite defaultConfig) twoTenants nameTwice = some _ := rfl
    have hnodup := (h _ _ (List.prefix_refl _) hrun).1
    revert hnodup
    decide +kernel

end Wallermax.Tenants
