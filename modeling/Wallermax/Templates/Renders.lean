import Wallermax.Base.Runs
import Wallermax.Templates.Engine

/-!
# Renders side by side

`load_program` one access at a time: the template's stamp, the cache, the stamps
of the cached partials, the texts, the cache again. Any number of renders take
these steps in any order, between edits. The lock around the cache is not there:
while a cached entry is compared the others may go on, which only adds runs.
-/

namespace Wallermax.Templates

open Wallermax.Base

structure CachedTemplate : Type where
  program : List Char
  mtime : Stamp
  includes : List (PathBuf × Stamp)

/-- Where a render is in `load_program`. -/
inductive Render : Type where
  /-- The template is stamped, the cache not yet asked. -/
  | looking (path : PathBuf) (mtime : Stamp)
  /-- An entry with this stamp was found; the partials left have to be compared. -/
  | comparing (path : PathBuf) (mtime : Stamp) (hit : CachedTemplate)
      (left : List (PathBuf × Stamp))
  | loading (path : PathBuf) (mtime : Stamp) (rest : Load (List Char × Tracking))
  | returned (path : PathBuf) (result : Except JhsError (List Char))

def Render.result : Render → Option (Except JhsError (List Char))
  | returned _ result => some result
  | _                 => none

structure Engine : Type where
  disk : Watched PathBuf Stamp ReadResult
  cache : PathBuf → Option CachedTemplate
  renders : ℕ → Option Render

/-- Before the first render. -/
def Engine.initial (disk : Disk) : Engine where
  disk := ⟨disk, []⟩
  cache := fun _ => none
  renders := fun _ => none

def Engine.setRender (engine : Engine) (id : ℕ) (r : Render) : Engine :=
  { engine with renders := Function.update engine.renders id (some r) }

def Engine.store (engine : Engine) : Option (PathBuf × CachedTemplate) → Engine
  | none               => engine
  | some (path, entry) => { engine with cache := Function.update engine.cache path (some entry) }

/-- The next access of a render: where it is then, and the entry it stored. -/
def Render.next (options : JhsOptions) (engine : Engine) :
    Render → Render × Option (PathBuf × CachedTemplate)
  | looking path mtime =>
    match if options.cache then engine.cache path else none with
    | some hit =>
      if hit.mtime = mtime then (comparing path mtime hit hit.includes, none)
      else (loading path mtime (loadSource options path), none)
    | none => (loading path mtime (loadSource options path), none)
  | comparing path _ hit [] => (returned path (.ok hit.program), none)
  | comparing path mtime hit ((included, stamp) :: left) =>
    if (engine.disk.current included).stamp = stamp then (comparing path mtime hit left, none)
    else (loading path mtime (loadSource options path), none)
  | loading path _ (.fail e) => (returned path (.error e), none)
  | loading path mtime (.done (resolved, acc)) =>
    (returned path (.ok (compile resolved options.tags)),
      if options.cache then
        some (path, ⟨compile resolved options.tags, mtime, acc.tracked⟩)
      else none)
  | loading path mtime rest => (loading path mtime (rest.advance engine.disk.current), none)
  | returned path result => (returned path result, none)

inductive Event : Type where
  /-- Files change, each to a stamp it never had. -/
  | edit (changes : List (PathBuf × FileState Stamp ReadResult))
  /-- A render begins: the template's stamp is read. -/
  | start (id : ℕ) (path : PathBuf)
  | next (id : ℕ)
  | clear_cache

def Event.isEdit : Event → Bool
  | edit _ => true
  | _      => false

def step (options : JhsOptions) (engine : Engine) : Event → Option Engine
  | .edit changes =>
    if engine.disk.Fresh changes then some { engine with disk := engine.disk.edit changes } else none
  | .start id path =>
    match engine.renders id with
    | some _ => none
    | none   => some (engine.setRender id (.looking path (engine.disk.current path).stamp))
  | .next id =>
    match engine.renders id with
    | some r => some ((engine.store (r.next options engine).2).setRender id (r.next options engine).1)
    | none   => none
  | .clear_cache => some { engine with cache := fun _ => none }

/-! ## The fields after a step -/

@[simp] theorem setRender_disk (engine : Engine) (id : ℕ) (r : Render) :
    (engine.setRender id r).disk = engine.disk := rfl

@[simp] theorem setRender_cache (engine : Engine) (id : ℕ) (r : Render) :
    (engine.setRender id r).cache = engine.cache := rfl

@[simp] theorem setRender_renders (engine : Engine) (id : ℕ) (r : Render) :
    (engine.setRender id r).renders = Function.update engine.renders id (some r) := rfl

@[simp] theorem store_disk (engine : Engine) (stored : Option (PathBuf × CachedTemplate)) :
    (engine.store stored).disk = engine.disk := by
  cases stored <;> rfl

@[simp] theorem store_renders (engine : Engine) (stored : Option (PathBuf × CachedTemplate)) :
    (engine.store stored).renders = engine.renders := by
  cases stored <;> rfl

/-- A cached entry is an old one or the one just stored. -/
theorem store_cache_some {engine : Engine} {stored : Option (PathBuf × CachedTemplate)}
    {path : PathBuf} {entry : CachedTemplate} (h : (engine.store stored).cache path = some entry) :
    engine.cache path = some entry ∨ stored = some (path, entry) := by
  cases stored with
  | none => exact .inl h
  | some stored =>
      obtain ⟨path', entry'⟩ := stored
      change Function.update engine.cache path' (some entry') path = some entry at h
      by_cases hpath : path = path'
      · subst hpath
        rw [Function.update_self] at h
        cases h
        exact .inr rfl
      · rw [Function.update_of_ne hpath] at h
        exact .inl h

theorem setRender_some {engine : Engine} {id id' : ℕ} {r r' : Render}
    (h : (engine.setRender id r).renders id' = some r') :
    (id' = id ∧ r' = r) ∨ engine.renders id' = some r' := by
  by_cases hid : id' = id
  · subst hid
    rw [setRender_renders, Function.update_self] at h
    cases h
    exact .inl ⟨rfl, rfl⟩
  · rw [setRender_renders, Function.update_of_ne hid] at h
    exact .inr h

end Wallermax.Templates
