import Wallermax.Templates.Renders

/-!
# The template cache is coherent

An entry is never right or wrong by itself: its texts were read at different
moments. What holds of it in every run is that each text was read behind a stamp
the entry keeps, so that the entry speaks for the files exactly while all its
stamps are theirs.
-/

namespace Wallermax.Templates

open Wallermax.Base

/-! ## What an entry and a render know -/

section Sound

variable (options : JhsOptions) (disk : Watched PathBuf Stamp ReadResult)

/-- The entry was compiled from texts read behind its stamps. -/
def CachedTemplate.Sound (path : PathBuf) (entry : CachedTemplate) : Prop :=
  ∃ log resolved acc, (loadSource options path).Reaches log (.done (resolved, acc)) ∧
    Base.Sound disk (log ++ [.stamp path entry.mtime]) ∧ entry.includes = acc.tracked ∧
    entry.program = compile resolved options.tags

def Render.Sound : Render → Prop
  | looking path mtime         => disk.Seen path mtime
  | comparing path mtime hit _ => disk.Seen path mtime ∧ hit.Sound options disk path
  | loading path mtime rest    => ∃ log, (loadSource options path).Reaches log rest ∧
      Base.Sound disk (log ++ [.stamp path mtime])
  | returned _ _               => True

structure Engine.Sound (engine : Engine) : Prop where
  cache : ∀ path entry, engine.cache path = some entry → entry.Sound options engine.disk path
  renders : ∀ id r, engine.renders id = some r → r.Sound options engine.disk

end Sound

section Runs

variable {options : JhsOptions}

/-! ## The invariant -/

theorem CachedTemplate.Sound.edit {disk : Watched PathBuf Stamp ReadResult} {path : PathBuf}
    {entry : CachedTemplate} (h : entry.Sound options disk path)
    {changes : List (PathBuf × FileState Stamp ReadResult)} (hfresh : disk.Fresh changes) :
    entry.Sound options (disk.edit changes) path := by
  obtain ⟨log, resolved, acc, hreach, hsound, hincludes, hprogram⟩ := h
  exact ⟨log, resolved, acc, hreach, hsound.edit hfresh, hincludes, hprogram⟩

theorem Render.Sound.edit {disk : Watched PathBuf Stamp ReadResult} {r : Render}
    (h : r.Sound options disk) {changes : List (PathBuf × FileState Stamp ReadResult)}
    (hfresh : disk.Fresh changes) : r.Sound options (disk.edit changes) := by
  cases r with
  | looking path mtime => exact Watched.Seen.edit h changes
  | comparing path mtime hit left => exact ⟨h.1.edit changes, h.2.edit hfresh⟩
  | loading path mtime rest =>
      obtain ⟨log, hreach, hsound⟩ := h
      exact ⟨log, hreach, hsound.edit hfresh⟩
  | returned path result => trivial

theorem loading_sound {disk : Watched PathBuf Stamp ReadResult} {path : PathBuf} {mtime : Stamp}
    (h : disk.Seen path mtime) :
    (Render.loading path mtime (loadSource options path)).Sound options disk :=
  ⟨[], .start, h, trivial⟩

theorem advance_sound {disk : Watched PathBuf Stamp ReadResult} {path : PathBuf} {mtime : Stamp}
    {rest : Load (List Char × Tracking)}
    (h : (Render.loading path mtime rest).Sound options disk) :
    (Render.loading path mtime (rest.advance disk.current)).Sound options disk := by
  obtain ⟨log, hreach, hsound⟩ := h
  cases rest with
  | done r => exact ⟨log, hreach, hsound⟩
  | fail e => exact ⟨log, hreach, hsound⟩
  | stat p k => exact ⟨_, hreach.stat _, disk.seen_current p, hsound⟩
  | read p k => exact ⟨_, hreach.read _, fun _ _ _ => rfl, hsound⟩

/-- **One access keeps what a render knows**, and stores only what it may. -/
theorem next_sound {engine : Engine} (h : engine.Sound options) {r : Render}
    (hr : r.Sound options engine.disk) :
    (r.next options engine).1.Sound options engine.disk ∧
      ∀ path entry, (r.next options engine).2 = some (path, entry) →
        entry.Sound options engine.disk path := by
  fun_cases Render.next options engine r with
  | case1 path hit hlook =>
      refine ⟨⟨hr, h.cache path hit ?_⟩, by simp⟩
      split at hlook
      · exact hlook
      · cases hlook
  | case2 path mtime hit hlook hmtime => exact ⟨loading_sound hr, by simp⟩
  | case3 path mtime hlook => exact ⟨loading_sound hr, by simp⟩
  | case4 path mtime hit => exact ⟨trivial, by simp⟩
  | case5 path mtime hit included left => exact ⟨hr, by simp⟩
  | case6 path mtime hit included stamp left hstamp => exact ⟨loading_sound hr.1, by simp⟩
  | case7 path mtime e => exact ⟨trivial, by simp⟩
  | case8 path mtime resolved acc =>
      refine ⟨trivial, fun path' entry hstored => ?_⟩
      obtain ⟨log, hreach, hsound⟩ := hr
      simp only [Option.ite_none_right_eq_some, Option.some.injEq, Prod.mk.injEq] at hstored
      obtain ⟨-, rfl, rfl⟩ := hstored
      exact ⟨log, resolved, acc, hreach, hsound, rfl, rfl⟩
  | case9 path mtime rest hdone hfail => exact ⟨advance_sound hr, by simp⟩
  | case10 path result => exact ⟨trivial, by simp⟩

theorem initial_sound (disk : Disk) : (Engine.initial disk).Sound options where
  cache := by
    intro path entry hentry
    cases hentry
  renders := by
    intro id r hr
    cases hr

/-- **Every step keeps the cache sound.** -/
theorem step_sound {engine engine' : Engine} {event : Event}
    (h : step options engine event = some engine') (hsound : engine.Sound options) :
    engine'.Sound options := by
  cases event with
  | edit changes =>
      simp only [step, Option.ite_none_right_eq_some, Option.some.injEq] at h
      obtain ⟨hfresh, rfl⟩ := h
      exact
        { cache := fun path entry hentry => (hsound.cache path entry hentry).edit hfresh
          renders := fun id r hr => (hsound.renders id r hr).edit hfresh }
  | start id path =>
      simp only [step] at h
      split at h
      · cases h
      · cases h
        refine ⟨hsound.cache, fun id' r hr => ?_⟩
        rcases setRender_some hr with ⟨-, rfl⟩ | hold
        · exact engine.disk.seen_current path
        · exact hsound.renders id' r hold
  | next id =>
      simp only [step] at h
      split at h
      · rename_i r hrender
        cases h
        have hnext := next_sound hsound (hsound.renders id r hrender)
        refine ⟨fun path entry hentry => ?_, fun id' r' hr' => ?_⟩
        · rw [setRender_disk, store_disk]
          rcases store_cache_some hentry with hold | hnew
          · exact hsound.cache path entry hold
          · exact hnext.2 path entry hnew
        · rw [setRender_disk, store_disk]
          rcases setRender_some hr' with ⟨-, rfl⟩ | hold
          · exact hnext.1
          · rw [store_renders] at hold
            exact hsound.renders id' r' hold
      · cases h
  | clear_cache =>
      cases h
      refine ⟨fun path entry hentry => ?_, hsound.renders⟩
      cases hentry

theorem run_sound {engine engine' : Engine} {events : List Event}
    (h : run (step options) engine events = some engine') (hsound : engine.Sound options) :
    engine'.Sound options :=
  run_invariant (step options) (fun _ _ _ hs hstep => step_sound hstep hs) hsound h

/-! ## A render no edit overtakes -/

/-- **An entry speaks for the files that carry its stamps.** -/
theorem CachedTemplate.Sound.program_eq {disk : Watched PathBuf Stamp ReadResult} {path : PathBuf}
    {entry : CachedTemplate} (h : entry.Sound options disk path)
    (hmtime : (disk.current path).stamp = entry.mtime)
    (hincludes : ∀ x ∈ entry.includes, (disk.current x.1).stamp = x.2) :
    programOver options disk.current path = .ok entry.program := by
  obtain ⟨log, resolved, acc, hreach, hsound, htracked, hprogram⟩ := h
  have hguarded := (loadSource_guarded options path entry.mtime).reaches hreach
  have hagrees := hsound.agrees hguarded (by
    intro x hx
    rcases List.mem_cons.mp hx with rfl | hx
    · exact hmtime
    · exact hincludes x (htracked ▸ hx))
  have heval := hreach.eval fun o ho => hagrees o (List.mem_append_left _ ho)
  rw [programOver, ← heval, hprogram]
  rfl

/-- What is settled about a render that began with the files as they are. -/
def Render.OnTime (options : JhsOptions) (disk : Disk) (path : PathBuf) : Render → Prop
  | looking path' mtime            => path' = path ∧ mtime = (disk path).stamp
  | comparing path' mtime hit left => path' = path ∧ mtime = (disk path).stamp ∧
      hit.mtime = mtime ∧ ∃ checked, hit.includes = checked ++ left ∧
        ∀ x ∈ checked, (disk x.1).stamp = x.2
  | loading path' _ rest           => path' = path ∧
      rest.eval disk = (loadSource options path).eval disk
  | returned path' result          => path' = path ∧ result = programOver options disk path

theorem next_onTime {engine : Engine} {r : Render} {path : PathBuf}
    (hr : r.Sound options engine.disk) (htime : r.OnTime options engine.disk.current path) :
    (r.next options engine).1.OnTime options engine.disk.current path := by
  fun_cases Render.next options engine r with
  | case1 path' hit hlook => exact ⟨htime.1, htime.2, rfl, [], rfl, by simp⟩
  | case2 path' mtime hit hlook hmtime => exact ⟨htime.1, htime.1 ▸ rfl⟩
  | case3 path' mtime hlook => exact ⟨htime.1, htime.1 ▸ rfl⟩
  | case4 path' mtime hit =>
      obtain ⟨rfl, rfl, hhit, checked, hchecked, hcurrent⟩ := htime
      refine ⟨rfl, (hr.2.program_eq hhit.symm fun x hx => hcurrent x ?_).symm⟩
      rwa [hchecked, List.append_nil] at hx
  | case5 path' mtime hit included left =>
      obtain ⟨hpath, hmtime, hhit, checked, hchecked, hcurrent⟩ := htime
      refine ⟨hpath, hmtime, hhit,
        checked ++ [(included, (engine.disk.current included).stamp)], ?_, ?_⟩
      · rw [hchecked, List.append_assoc]
        rfl
      · intro x hx
        rcases List.mem_append.mp hx with hold | hnew
        · exact hcurrent x hold
        · rw [List.mem_singleton.mp hnew]
  | case6 path' mtime hit included stamp left hstamp => exact ⟨htime.1, htime.1 ▸ rfl⟩
  | case7 path' mtime e =>
      obtain ⟨rfl, heval⟩ := htime
      refine ⟨rfl, ?_⟩
      rw [programOver, ← heval]
      rfl
  | case8 path' mtime resolved acc =>
      obtain ⟨rfl, heval⟩ := htime
      refine ⟨rfl, ?_⟩
      rw [programOver, ← heval]
      rfl
  | case9 path' mtime rest hdone hfail =>
      refine ⟨htime.1, ?_⟩
      rw [FileProgram.eval_advance]
      exact htime.2
  | case10 path' result => exact htime

/-- A step that edits nothing leaves the files as they are. -/
theorem step_disk {engine engine' : Engine} {event : Event}
    (h : step options engine event = some engine') (hquiet : event.isEdit = false) :
    engine'.disk = engine.disk := by
  cases event with
  | edit changes => cases hquiet
  | start id path =>
      simp only [step] at h
      split at h
      · cases h
      · cases h
        rfl
  | next id =>
      simp only [step] at h
      split at h
      · cases h
        simp
      · cases h
  | clear_cache =>
      cases h
      rfl

theorem run_disk {engine engine' : Engine} {events : List Event}
    (h : run (step options) engine events = some engine')
    (hquiet : ∀ event ∈ events, event.isEdit = false) : engine'.disk = engine.disk := by
  induction events generalizing engine with
  | nil =>
      cases h
      rfl
  | cons event events ih =>
      obtain ⟨t, hstep, hrest⟩ := run_cons_some (step options) h
      rw [ih hrest fun e he => hquiet e (List.mem_cons_of_mem _ he),
        step_disk hstep (hquiet event (List.mem_cons_self ..))]

/-- The step lemma of a render that began after the last edit. -/
theorem step_onTime {engine engine' : Engine} {event : Event} {id : ℕ} {path : PathBuf}
    (h : step options engine event = some engine') (hquiet : event.isEdit = false)
    (hsound : engine.Sound options)
    (htime : ∃ r, engine.renders id = some r ∧ r.OnTime options engine.disk.current path) :
    ∃ r, engine'.renders id = some r ∧ r.OnTime options engine'.disk.current path := by
  obtain ⟨r, hrender, hr⟩ := htime
  have hdisk := step_disk h hquiet
  rw [hdisk]
  cases event with
  | edit changes => cases hquiet
  | start id' path' =>
      simp only [step] at h
      split at h
      · cases h
      · rename_i hnew
        cases h
        have hid : id ≠ id' := by
          rintro rfl
          rw [hrender] at hnew
          cases hnew
        exact ⟨r, by rw [setRender_renders, Function.update_of_ne hid, hrender], hr⟩
  | next id' =>
      simp only [step] at h
      split at h
      · rename_i r' hrender'
        cases h
        by_cases hid : id = id'
        · subst hid
          cases hrender.symm.trans hrender'
          refine ⟨_, by rw [setRender_renders, Function.update_self], ?_⟩
          exact next_onTime (hsound.renders id r hrender) hr
        · exact ⟨r, by rw [setRender_renders, Function.update_of_ne hid, store_renders, hrender], hr⟩
      · cases h
  | clear_cache =>
      cases h
      exact ⟨r, hrender, hr⟩

theorem run_onTime {engine engine' : Engine} {events : List Event} {id : ℕ} {path : PathBuf}
    (h : run (step options) engine events = some engine')
    (hquiet : ∀ event ∈ events, event.isEdit = false) (hsound : engine.Sound options)
    (htime : ∃ r, engine.renders id = some r ∧ r.OnTime options engine.disk.current path) :
    ∃ r, engine'.renders id = some r ∧ r.OnTime options engine'.disk.current path := by
  have hinv : engine'.Sound options ∧
      ∃ r, engine'.renders id = some r ∧ r.OnTime options engine'.disk.current path := by
    refine run_invariant_of_eachStep (step options) (C := fun _ event => event.isEdit = false)
      (I := fun engine => engine.Sound options ∧
        ∃ r, engine.renders id = some r ∧ r.OnTime options engine.disk.current path)
      ?_ ⟨hsound, htime⟩ ?_ h
    · rintro s event t ⟨hs, ht⟩ hevent hstep
      exact ⟨step_sound hstep hs, step_onTime hstep hevent hs ht⟩
    · intro pre event s t hpre _ _
      exact hquiet event (hpre.subset (by simp))
  exact hinv.2

/-! ## A render comes to its end -/

/-- Left to itself the render returns. -/
def Finishes (options : JhsOptions) (engine : Engine) (id : ℕ) : Prop :=
  ∃ n engine' r, run (step options) engine (List.replicate n (.next id)) = some engine' ∧
    engine'.renders id = some r ∧ r.result.isSome

theorem Finishes.of_next {engine : Engine} {id : ℕ} {r : Render}
    (hrender : engine.renders id = some r)
    (h : Finishes options
      ((engine.store (r.next options engine).2).setRender id (r.next options engine).1) id) :
    Finishes options engine id := by
  obtain ⟨n, engine', r', hrun, hrender', hresult⟩ := h
  refine ⟨n + 1, engine', r', ?_, hrender', hresult⟩
  have hstep : step options engine (.next id) =
      some ((engine.store (r.next options engine).2).setRender id (r.next options engine).1) := by
    simp only [step, hrender]
  rw [List.replicate_succ, run_cons, hstep]
  exact hrun

theorem finishes_returned {engine : Engine} {id : ℕ} {path : PathBuf}
    {result : Except JhsError (List Char)}
    (h : engine.renders id = some (.returned path result)) : Finishes options engine id :=
  ⟨0, engine, _, rfl, h, rfl⟩

theorem finishes_loading {engine : Engine} {id : ℕ} {path : PathBuf} {mtime : Stamp}
    {rest : Load (List Char × Tracking)}
    (h : engine.renders id = some (.loading path mtime rest)) : Finishes options engine id := by
  induction rest generalizing engine with
  | done r => exact .of_next h (finishes_returned (Function.update_self ..))
  | fail e => exact .of_next h (finishes_returned (Function.update_self ..))
  | stat p k ih => exact .of_next h (ih _ (Function.update_self ..))
  | read p k ih => exact .of_next h (ih _ (Function.update_self ..))

theorem finishes_comparing {engine : Engine} {id : ℕ} {path : PathBuf} {mtime : Stamp}
    {hit : CachedTemplate} {left : List (PathBuf × Stamp)}
    (h : engine.renders id = some (.comparing path mtime hit left)) :
    Finishes options engine id := by
  induction left generalizing engine with
  | nil => exact .of_next h (finishes_returned (Function.update_self ..))
  | cons x left ih =>
      refine .of_next h ?_
      by_cases hstamp : (engine.disk.current x.1).stamp = x.2
      · refine ih ?_
        rw [setRender_renders, Function.update_self, Render.next, if_pos hstamp]
      · have hfresh : ((engine.store ((Render.comparing path mtime hit (x :: left)).next options
            engine).2).setRender id ((Render.comparing path mtime hit (x :: left)).next options
            engine).1).renders id = some (.loading path mtime (loadSource options path)) := by
          rw [setRender_renders, Function.update_self, Render.next, if_neg hstamp]
        exact finishes_loading hfresh

theorem finishes {engine : Engine} {id : ℕ} {r : Render} (h : engine.renders id = some r) :
    Finishes options engine id := by
  cases r with
  | looking path mtime =>
      refine .of_next h ?_
      cases hnext : (Render.looking path mtime).next options engine with
      | mk r' stored =>
          have hself : ((engine.store stored).setRender id r').renders id = some r' :=
            Function.update_self ..
          cases r' with
          | looking path' mtime' =>
              simp only [Render.next] at hnext
              split at hnext
              · split at hnext <;> cases hnext
              · cases hnext
          | comparing path' mtime' hit left => exact finishes_comparing hself
          | loading path' mtime' rest => exact finishes_loading hself
          | returned path' result => exact finishes_returned hself
  | comparing path mtime hit left => exact finishes_comparing h
  | loading path mtime rest => exact finishes_loading h
  | returned path result => exact finishes_returned h

end Runs

/-- **The template cache is coherent**: whatever ran and was edited before, a render
that starts after the last edit returns the program of the current files, be it
served from the cache or not, and it does return. -/
theorem load_coherent (options : JhsOptions) (disk : Disk) {before after : List Event}
    {engine engine' : Engine} {id : ℕ} {path : PathBuf}
    (hbefore : run (step options) (.initial disk) before = some engine)
    (hafter : run (step options) engine (.start id path :: after) = some engine')
    (hquiet : ∀ event ∈ after, event.isEdit = false) :
    (∀ r result, engine'.renders id = some r → r.result = some result →
      result = programOver options engine'.disk.current path) ∧
    ∃ n engine'', run (step options) engine' (List.replicate n (.next id)) = some engine'' ∧
      engine''.renders id =
        some (.returned path (programOver options engine'.disk.current path)) := by
  have hsound := run_sound hbefore (initial_sound disk)
  obtain ⟨started, hstart, hrun⟩ := run_cons_some (step options) hafter
  have hsound' := step_sound hstart hsound
  have htime : ∃ r, started.renders id = some r ∧
      r.OnTime options started.disk.current path := by
    simp only [step] at hstart
    split at hstart
    · cases hstart
    · cases hstart
      exact ⟨_, Function.update_self .., rfl, rfl⟩
  obtain ⟨r, hrender, hr⟩ := run_onTime hrun hquiet hsound' htime
  refine ⟨fun r' result hr' hresult => ?_, ?_⟩
  · cases hrender.symm.trans hr'
    cases r with
    | returned path' result' =>
        cases hresult
        exact hr.2
    | looking | comparing | loading => cases hresult
  · obtain ⟨n, engine'', r', hmore, hrender', hresult⟩ := finishes hrender
    have hsound'' := run_sound hrun hsound'
    have hquiet' : ∀ event ∈ List.replicate n (Event.next id), event.isEdit = false := by
      intro event hevent
      rw [List.eq_of_mem_replicate hevent]
      rfl
    have hdisk : engine''.disk = engine'.disk := run_disk hmore hquiet'
    obtain ⟨r'', hrender'', hr''⟩ := run_onTime hmore hquiet' hsound'' ⟨r, hrender, hr⟩
    refine ⟨n, engine'', hmore, ?_⟩
    cases hrender'.symm.trans hrender''
    cases r' with
    | returned path' result' =>
        obtain ⟨rfl, rfl⟩ := hr''
        rw [hrender', hdisk]
    | looking | comparing | loading => cases hresult

/-! ## A render the last edit overtook -/

def plainOptions : JhsOptions where
  views_path := []
  cache := true
  tags := .default

def pagePath : PathBuf := [['p']]

/-- One template with the given text. -/
def onePage (mtime : SystemTime) (text : List Char) : Disk := fun path =>
  if path = pagePath then ⟨some mtime, .ok text⟩ else ⟨none, .error []⟩

/-- Render 0 has read the old text, render 1 the old stamp, when the template is edited. -/
def edited : List Event :=
  [.start 0 pagePath, .next 0, .next 0, .start 1 pagePath,
    .edit [(pagePath, ⟨some 1, .ok ['b']⟩)]]

/-- Render 2 runs alone; then render 0 stores, and render 1 looks into the cache. -/
def afterwards : List Event := [.next 2, .next 2, .next 2, .next 0, .next 1]

def newDisk : Disk := ((⟨onePage 0 ['a'], []⟩ : Watched _ _ _).edit
  [(pagePath, ⟨some 1, .ok ['b']⟩)]).current

theorem resolveIncludes_letter {c : Char} (hc : c = 'a' ∨ c = 'b') (acc : Tracking) :
    resolveIncludes plainOptions.tags (readInclude plainOptions INCLUDE_MAX_DEPTH) [c] acc =
      .done ([c], acc) := by
  refine resolveIncludes_of_none ?_ acc
  rcases hc with rfl | rfl <;> decide

theorem compile_letters_ne :
    compile ['a'] plainOptions.tags ≠ compile ['b'] plainOptions.tags := by
  rw [compile_plain (by decide) (by decide) (by decide),
    compile_plain (by decide) (by decide) (by decide)]
  intro h
  exact absurd (wrap_injective h) (by decide)

theorem overtaken_run : ∃ engine,
    run (step plainOptions) (.initial (onePage 0 ['a']))
      (edited ++ .start 2 pagePath :: afterwards) = some engine ∧
    engine.disk.current = newDisk ∧
    engine.renders 2 = some (.returned pagePath (.ok (compile ['b'] plainOptions.tags))) ∧
    engine.renders 1 = some (.comparing pagePath (some 0)
      ⟨compile ['a'] plainOptions.tags, some 0, []⟩ []) := by
  have ha := resolveIncludes_letter (.inl rfl)
  have hb := resolveIncludes_letter (.inr rfl)
  have hcache : plainOptions.cache = true := rfl
  simp [run, step, edited, afterwards, newDisk, Engine.initial, Render.next, Engine.setRender,
    Engine.store, Function.update, loadSource, FileProgram.advance, onePage, ha, hb, hcache,
    Watched.Fresh, Watched.Seen, Watched.edit]

theorem programOver_newDisk :
    programOver plainOptions newDisk pagePath = .ok (compile ['b'] plainOptions.tags) := by
  have hb := resolveIncludes_letter (.inr rfl)
  simp [programOver, loadSource, FileProgram.eval, newDisk, Watched.edit, hb, Except.map]

/-- The render that started after the edit. -/
theorem load_coherent_overtaken : ∃ engine,
    run (step plainOptions) (.initial (onePage 0 ['a']))
      (edited ++ .start 2 pagePath :: afterwards) = some engine ∧
    engine.renders 2 =
      some (.returned pagePath (programOver plainOptions engine.disk.current pagePath)) := by
  obtain ⟨engine, hrun, -, hreturned, -⟩ := overtaken_run
  refine ⟨engine, hrun, ?_⟩
  rw [run_append] at hrun
  obtain ⟨before, hbefore, hafter⟩ := Option.bind_eq_some_iff.mp hrun
  have hcoherent := (load_coherent plainOptions (onePage 0 ['a']) hbefore hafter (by decide)).1
  rw [← hcoherent _ _ hreturned rfl]
  exact hreturned

/-- After the last edit, and after a render that started behind it has returned the new
program, the overtaken one is served the old program from the cache. -/
theorem overtaken_hit : ∃ engine engine' hit,
    run (step plainOptions) (.initial (onePage 0 ['a']))
      (edited ++ .start 2 pagePath :: afterwards) = some engine ∧
    (∀ event ∈ afterwards, event.isEdit = false) ∧
    engine.renders 2 =
      some (.returned pagePath (programOver plainOptions engine.disk.current pagePath)) ∧
    engine.renders 1 = some (.comparing pagePath (some 0) hit []) ∧
    step plainOptions engine (.next 1) = some engine' ∧
    engine'.renders 1 = some (.returned pagePath (.ok hit.program)) ∧
    .ok hit.program ≠ programOver plainOptions engine'.disk.current pagePath := by
  obtain ⟨engine, hrun, hdisk, hother, hlate⟩ := overtaken_run
  refine ⟨engine, engine.setRender 1 (.returned pagePath (.ok (compile ['a'] plainOptions.tags))),
    _, hrun, by decide, ?_, hlate, ?_, ?_, ?_⟩
  · rw [hdisk, programOver_newDisk, hother]
  · simp only [step, hlate]
    rfl
  · exact Function.update_self (1 : ℕ) _ engine.renders
  · rw [setRender_disk, hdisk, programOver_newDisk]
    intro h
    exact compile_letters_ne (Except.ok.inj h)

end Wallermax.Templates
