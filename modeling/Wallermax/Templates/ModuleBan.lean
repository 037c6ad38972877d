import Wallermax.Templates.RequireWorker

/-!
# What the banner says about files

The banner is asked about the specifier's first segment. A plain name in a tree
without links keeps that segment: the file found is, below the root or its
`node_modules`, at that name or at that name with `.js`.
-/

namespace Wallermax.Templates

open Wallermax.Base PathText LinkTree

/-! ## Names and paths -/

section Paths

theorem segments_eq_cons (p : PathText) : ∃ rest, segments p = packageOf p :: rest := by
  induction p with
  | nil => exact ⟨[], rfl⟩
  | cons c p ih =>
      rw [segments, List.splitOnP_cons_eq_if_modifyHead, packageOf]
      by_cases hc : c = '/'
      · rw [if_pos (by simp [hc]), List.takeWhile_cons_of_neg (by simp [hc])]
        exact ⟨_, rfl⟩
      · obtain ⟨rest, hrest⟩ := ih
        rw [segments] at hrest
        rw [if_neg (by simp [hc]), List.takeWhile_cons_of_pos (by simp [hc]), hrest]
        exact ⟨rest, rfl⟩

/-- A segment is a piece of the path. -/
theorem infix_of_mem_segments {p : PathText} {s : Component} (h : s ∈ segments p) : s <:+: p := by
  induction p generalizing s with
  | nil =>
      cases List.mem_singleton.mp h
      exact List.nil_infix
  | cons c p ih =>
      rw [segments, List.splitOnP_cons_eq_if_modifyHead] at h
      split at h
      · rcases List.mem_cons.mp h with rfl | h
        · exact List.nil_infix
        · exact (ih h).trans (List.suffix_cons c p).isInfix
      · obtain ⟨rest, hrest⟩ := segments_eq_cons p
        rw [segments] at hrest
        rw [hrest, List.modifyHead_cons] at h
        rcases List.mem_cons.mp h with rfl | h
        · have hpre : packageOf p <+: p := List.takeWhile_prefix _
          exact ((List.prefix_cons_inj c).mpr hpre).isInfix
        · have hmem : s ∈ segments p := by
            rw [segments, hrest]
            exact List.mem_cons_of_mem _ h
          exact (ih hmem).trans (List.suffix_cons c p).isInfix

theorem isAbsolute_withFileName (p : PathText) {name : Component} (hslash : '/' ∉ name)
    (hne : name ≠ []) : isAbsolute (withFileName p name) = isAbsolute p := by
  unfold withFileName
  by_cases hp : isAbsolute p = true
  · rw [if_pos hp, hp]
    rfl
  · have hrelative : isAbsolute p = false := by simpa using hp
    rw [if_neg hp, hrelative, List.nil_append]
    cases hinit : (components p).dropLast with
    | nil =>
        cases name with
        | nil => exact absurd rfl hne
        | cons c name =>
            have hc : c ≠ '/' := fun heq => hslash (heq ▸ List.mem_cons_self ..)
            simp [isAbsolute, List.intercalate, hc]
    | cons s init =>
        have hs : s ∈ components p :=
          List.mem_of_mem_dropLast (hinit ▸ List.mem_cons_self ..)
        obtain ⟨hseg, hkept⟩ := mem_components.mp hs
        cases s with
        | nil => cases hkept
        | cons c s =>
            have hc : c ≠ '/' := fun heq =>
              slash_not_mem_segment hseg (heq ▸ List.mem_cons_self ..)
            cases init <;> simp [isAbsolute, List.intercalate, hc]

theorem jsSuffix_append {s : Component} (hslash : '/' ∉ s) :
    '/' ∉ s ++ jsSuffix ∧ kept (s ++ jsSuffix) = true := by
  constructor
  · simp only [List.mem_append, not_or]
    exact ⟨hslash, by decide⟩
  · have hlen : 3 ≤ (s ++ jsSuffix).length := by
      rw [List.length_append]
      exact Nat.le_add_left 3 s.length
    rw [kept, Bool.and_eq_true, bne_iff_ne, bne_iff_ne]
    constructor <;>
    · intro heq
      rw [heq] at hlen
      simp at hlen

/-- A proper name's first segment is its first component. -/
theorem components_eq_cons {name : List Char} (hne : name ≠ []) (habs : isAbsolute name = false)
    (hdot : packageOf name ≠ ['.']) : ∃ more, components name = packageOf name :: more := by
  obtain ⟨rest, hrest⟩ := segments_eq_cons name
  have hpackage : packageOf name ≠ [] := by
    cases name with
    | nil => exact absurd rfl hne
    | cons c name =>
        have hc : c ≠ '/' := by
          rintro rfl
          cases habs
        rw [packageOf, List.takeWhile_cons_of_pos (by simp [hc])]
        exact List.cons_ne_nil _ _
  refine ⟨rest.filter kept, ?_⟩
  rw [components, hrest, List.filter_cons_of_pos]
  simp [kept, hpackage, hdot]

end Paths

/-! ## Where a plain name is found -/

/-- The path keeps the package's name, or that name with `.js`, right behind `pre`. -/
def Under (pre : List Component) (package : Component) (cs : List Component) : Prop :=
  ∃ c rest, cs = pre ++ c :: rest ∧ (c = package ∨ c = package ++ jsSuffix) ∧
    ['.', '.'] ∉ c :: rest

section Lookup

variable {tree : ModuleTree} {manifestMain : ManifestMain} {pre : List Component}
  {package : Component} {more : List Component}

theorem under_self {cs : List Component} (hcs : cs = pre ++ package :: more)
    (hup : ['.', '.'] ∉ package :: more) : Under pre package cs :=
  ⟨package, more, hcs, .inl rfl, hup⟩

/-- The last component with `.js`. -/
theorem under_withFileName {target : PathText} {file_name : Component}
    (hcs : components target = pre ++ package :: more) (hup : ['.', '.'] ∉ package :: more)
    (hname : fileName target = some file_name) :
    Under pre package (components (withFileName target (file_name ++ jsSuffix))) ∧
      isAbsolute (withFileName target (file_name ++ jsSuffix)) = isAbsolute target := by
  have hlast : (components target).getLast? = some file_name := by
    unfold fileName at hname
    split at hname
    · split at hname
      · cases hname
      · cases hname
        assumption
    · cases hname
  have hslash : '/' ∉ file_name :=
    slash_not_mem_segment (mem_components.mp (List.mem_of_getLast? hlast)).1
  obtain ⟨hjs, hkept⟩ := jsSuffix_append hslash
  refine ⟨?_, isAbsolute_withFileName target hjs (by simp [jsSuffix])⟩
  rw [components_withFileName target hjs hkept, hcs]
  have hdots : file_name ++ jsSuffix ≠ ['.', '.'] := by
    intro heq
    have := congrArg List.length heq
    simp [jsSuffix] at this
  rcases List.eq_nil_or_concat' more with rfl | ⟨init, last, rfl⟩
  · have hself : package = file_name := by
      rw [hcs] at hlast
      simpa using hlast
    refine ⟨file_name ++ jsSuffix, [], ?_, .inr (by rw [hself]), ?_⟩
    · rw [List.dropLast_concat]
    · simpa using hdots.symm
  · refine ⟨package, init ++ [file_name ++ jsSuffix], ?_, .inl rfl, ?_⟩
    · rw [← List.cons_append, ← List.append_assoc, List.dropLast_concat]
      simp
    · simp only [List.mem_cons, List.mem_append, List.not_mem_nil, or_false, not_or] at hup ⊢
      exact ⟨hup.1, hup.2.1, hdots.symm⟩

theorem indexJs_spec : components indexJs = [indexJs] ∧ isAbsolute indexJs = false ∧
    indexJs ≠ ['.', '.'] := by decide

theorem resolveMain_under {target : PathText} {main : List Char} {file : PathText}
    (hcs : components target = pre ++ package :: more) (hup : ['.', '.'] ∉ package :: more)
    (hmain : ¬ ['.', '.'] <:+: main) (hrel : isAbsolute main = false)
    (h : resolveMain tree target main = some file) :
    Under pre package (components file) ∧ isAbsolute file = isAbsolute target := by
  have hmain_cs : components (join target main) = pre ++ package :: (more ++ components main) := by
    rw [components_join_relative hrel, hcs, List.append_assoc, List.cons_append]
  have hmain_up : ['.', '.'] ∉ package :: (more ++ components main) := by
    have hin : ['.', '.'] ∉ components main := fun hmem =>
      hmain (infix_of_mem_segments (mem_components.mp hmem).1)
    simp only [List.mem_cons, List.mem_append, not_or] at hup ⊢
    exact ⟨hup.1, hup.2, hin⟩
  have habs : isAbsolute (join target main) = isAbsolute target := isAbsolute_join_relative hrel
  simp only [resolveMain] at h
  split at h
  · cases h
    exact ⟨under_self hmain_cs hmain_up, habs⟩
  · split at h
    · cases h
    · rename_i main_name hname
      split at h
      · cases h
        obtain ⟨hunder, hkeep⟩ := under_withFileName hmain_cs hmain_up hname
        exact ⟨hunder, hkeep.trans habs⟩
      · split at h
        · cases h
          obtain ⟨hindex, hindexrel, hindexup⟩ := indexJs_spec
          refine ⟨@under_self _ _ (more ++ components main ++ [indexJs]) _ ?_ ?_, ?_⟩
          · rw [components_join_relative hindexrel, hmain_cs, hindex]
            simp
          · simp only [List.mem_cons, List.mem_append, List.not_mem_nil, or_false, not_or]
              at hmain_up ⊢
            exact ⟨hmain_up.1, hmain_up.2, hindexup.symm⟩
          · rw [isAbsolute_join_relative hindexrel, habs]
        · cases h

theorem readPackageMain_some {manifest : PathText} {main : List Char}
    (h : readPackageMain tree manifestMain manifest = some main) :
    (∃ text, manifestMain text = some main) ∧ ¬ ['.', '.'] <:+: main := by
  simp only [readPackageMain, Option.bind_eq_bind, Option.bind_eq_some_iff] at h
  obtain ⟨file, -, raw, -, main', hmain, hcheck⟩ := h
  split at hcheck
  · cases hcheck
  · rename_i hsane
    cases hcheck
    simp only [not_or] at hsane
    exact ⟨⟨raw, hmain⟩, hsane.2.1⟩

theorem resolveModuleFile_under {target file : PathText}
    (hrel : ∀ text main, manifestMain text = some main → isAbsolute main = false)
    (hcs : components target = pre ++ package :: more) (hup : ['.', '.'] ∉ package :: more)
    (h : resolveModuleFile tree manifestMain target = some file) :
    Under pre package (components file) ∧ isAbsolute file = isAbsolute target := by
  simp only [resolveModuleFile] at h
  split at h
  · cases h
    exact ⟨under_self hcs hup, rfl⟩
  · split at h
    · cases h
    · rename_i file_name hname
      split at h
      · cases h
        exact under_withFileName hcs hup hname
      · split at h
        · split at h
          · cases h
            obtain ⟨hindex, hindexrel, hindexup⟩ := indexJs_spec
            refine ⟨@under_self _ _ (more ++ [indexJs]) _ ?_ ?_, isAbsolute_join_relative hindexrel⟩
            · rw [components_join_relative hindexrel, hcs, hindex]
              simp
            · simp only [List.mem_cons, List.mem_append, List.not_mem_nil, or_false, not_or]
                at hup ⊢
              exact ⟨hup.1, hup.2, hindexup.symm⟩
          · split at h
            · obtain ⟨main, hmain, hresolve⟩ := Option.bind_eq_some_iff.mp h
              obtain ⟨hfound, hdots⟩ := readPackageMain_some hmain
              obtain ⟨text, htext⟩ := hfound
              exact resolveMain_under hcs hup hdots (hrel text main htext) hresolve
            · cases h
        · cases h

end Lookup

/-! ## The banner over the file that is loaded -/

/-- A file, by its path below the root, belongs to a forbidden package. -/
def Belongs (forbidden : List (List Char)) (path : List Component) : Prop :=
  ∃ name ∈ forbidden, ∃ c, (c = name ∨ c = name ++ jsSuffix) ∧
    (path.head? = some c ∨ ∃ more, path = nodeModules :: c :: more)

/-- A bare name of proper segments whose package is not spelled like a forbidden one
up to `.js`. -/
structure Plain (forbidden : List (List Char)) (name : List Char) : Prop where
  nonempty : name ≠ []
  bare : isRelativeName name = false
  relative : isAbsolute name = false
  proper : packageOf name ≠ ['.']
  no_dotdot : ['.', '.'] ∉ components name
  no_js : packageOf name ++ jsSuffix ∉ forbidden
  not_js : ∀ entry ∈ forbidden, packageOf name ≠ entry ++ jsSuffix
  not_node_modules : packageOf name ≠ nodeModules
  node_modules_allowed : nodeModules ∉ forbidden

theorem append_jsSuffix_ne_nodeModules (s : Component) : s ++ jsSuffix ≠ nodeModules := by
  intro h
  have hsuffix : jsSuffix <:+ nodeModules := ⟨s, h⟩
  exact absurd hsuffix (by decide)

theorem not_belongs {forbidden : List (List Char)} {name : List Char} (h : Plain forbidden name)
    (hallowed : packageOf name ∉ forbidden) {c : Component}
    (hc : c = packageOf name ∨ c = packageOf name ++ jsSuffix) (rest : List Component) :
    ¬ Belongs forbidden (c :: rest) ∧ ¬ Belongs forbidden (nodeModules :: c :: rest) := by
  have hname : ∀ entry ∈ forbidden, c ≠ entry ∧ c ≠ entry ++ jsSuffix := by
    intro entry hentry
    rcases hc with rfl | rfl
    · exact ⟨fun heq => hallowed (heq ▸ hentry), h.not_js entry hentry⟩
    · refine ⟨fun heq => h.no_js (heq ▸ hentry), fun heq => ?_⟩
      exact hallowed (List.append_cancel_right heq ▸ hentry)
  have hnode : c ≠ nodeModules := by
    rcases hc with rfl | rfl
    · exact h.not_node_modules
    · exact append_jsSuffix_ne_nodeModules _
  constructor
  · rintro ⟨entry, hentry, d, hd, hhead | ⟨more, hmore⟩⟩
    · cases hhead
      rcases hd with hd | hd
      · exact (hname entry hentry).1 hd
      · exact (hname entry hentry).2 hd
    · exact hnode (List.cons.inj hmore).1
  · rintro ⟨entry, hentry, d, hd, hhead | ⟨more, hmore⟩⟩
    · cases hhead
      rcases hd with rfl | hd
      · exact h.node_modules_allowed hentry
      · exact append_jsSuffix_ne_nodeModules entry hd.symm
    · cases hmore
      rcases hd with hd | hd
      · exact (hname entry hentry).1 hd
      · exact (hname entry hentry).2 hd

/-- A manifest never names an absolute path. -/
def RelativeMains (manifestMain : ManifestMain) : Prop :=
  ∀ text main, manifestMain text = some main → isAbsolute main = false

/-- The directories a bare name is looked up in. -/
theorem mem_searchRoots {root dir : PathText} {name : List Char} {base : Option (List Char)}
    (hbare : isRelativeName name = false) (h : dir ∈ searchRoots root name base) :
    isAbsolute dir = isAbsolute root ∧
      (components dir = components root ∨ components dir = components root ++ [nodeModules]) := by
  have hnode : isAbsolute nodeModules = false ∧ components nodeModules = [nodeModules] := by
    decide
  simp only [searchRoots, hbare, Bool.false_eq_true, if_false, List.mem_cons, List.not_mem_nil,
    or_false] at h
  rcases h with rfl | rfl
  · exact ⟨rfl, .inl rfl⟩
  · exact ⟨isAbsolute_join_relative hnode.1, .inr (by rw [components_join_relative hnode.1, hnode.2])⟩

/-- **A plain name that is not banned loads no banned package's file**, in a tree
without links. -/
theorem plain_not_belongs {tree : ModuleTree} {manifestMain : ManifestMain}
    (hlinks : tree.Linkless) (hmains : RelativeMains manifestMain)
    {forbidden : List (List Char)} {name : List Char} (hplain : Plain forbidden name)
    (hallowed : packageOf name ∉ forbidden) {modules_dir dir file : PathText}
    {base : Option (List Char)} {root rest key : List Component}
    (hroot : tree.canonicalize modules_dir = some root)
    (hdir : dir ∈ searchRoots modules_dir name base)
    (hfound : resolveModuleFile tree manifestMain (join dir name) = some file)
    (hkey : tree.canonicalize file = some key) (hrest : key = root ++ rest) :
    ¬ Belongs forbidden rest := by
  obtain ⟨more, hmore⟩ := components_eq_cons hplain.nonempty hplain.relative hplain.proper
  have hup : ['.', '.'] ∉ packageOf name :: more := hmore ▸ hplain.no_dotdot
  obtain ⟨habs, hcs⟩ := mem_searchRoots hplain.bare hdir
  have htarget : components (join dir name) = components dir ++ packageOf name :: more := by
    rw [components_join_relative hplain.relative, hmore]
  obtain ⟨⟨c, tail, hfile, hc, hcup⟩, hfileabs⟩ := resolveModuleFile_under hmains htarget hup hfound
  have horigin : tree.origin file = tree.origin modules_dir := by
    rw [origin, origin, hfileabs, isAbsolute_join_relative hplain.relative, habs]
  have hroot' := canonicalize_linkless tree hlinks hroot
  have hkey' := canonicalize_linkless tree hlinks hkey
  obtain ⟨hdirect, hnested⟩ := not_belongs hplain hallowed hc tail
  have hnode : nodeModules ≠ ['.', '.'] := by decide
  rcases hcs with hcs | hcs
  · have : rest = c :: tail := by
      rw [horigin, hfile, hcs, lexical_append, ← hroot', lexical_of_no_dotdot hcup, hrest] at hkey'
      exact List.append_cancel_left hkey'
    rwa [this]
  · have hcup' : ['.', '.'] ∉ nodeModules :: c :: tail := by
      intro hmem
      rcases List.mem_cons.mp hmem with heq | hmem
      · exact hnode heq.symm
      · exact hcup hmem
    have : rest = nodeModules :: c :: tail := by
      rw [horigin, hfile, hcs, List.append_assoc, lexical_append, ← hroot',
        List.singleton_append, lexical_of_no_dotdot hcup', hrest] at hkey'
      exact List.append_cancel_left hkey'
    rwa [this]

/-! ## The module jail -/

/-- `/m/fs.js` and `/m/hi.js` under the modules root `/m`. -/
def twoModules : ModuleTree where
  node := fun p =>
    if p = [] ∨ p = [['m']] then some .dir
    else if p = [['m'], ['f', 's', '.', 'j', 's']] ∨ p = [['m'], ['h', 'i', '.', 'j', 's']] then
      some (.file ⟨.ok ['1'], some 0⟩)
    else none
  cwd := []

def noFs : RequireOptions where
  modules_dir := ['/', 'm']
  forbidden := [['f', 's']]

theorem linkless_twoModules : twoModules.Linkless := by
  intro p target h
  simp only [twoModules] at h
  split_ifs at h <;> cases h

theorem plain_hi : Plain noFs.forbidden (moduleName ['h', 'i']) where
  nonempty := by decide
  bare := by decide
  relative := by decide
  proper := by decide
  no_dotdot := by decide
  no_js := by decide
  not_js := by decide
  not_node_modules := by decide
  node_modules_allowed := by decide

end Wallermax.Templates
