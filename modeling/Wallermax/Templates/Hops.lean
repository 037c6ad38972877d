import Wallermax.Templates.RequireWorker

/-!
# What a render gets out of `require`

A render of the worker runs the template, and each module it loads runs in the middle of
the call that asked for it, with a `require` of its own. The banner reads the name after
one `node:` was taken off, and Node reads that name once more in the same way.
-/

namespace Wallermax.Templates

open Wallermax.Base PathText LinkTree

/-! ## Node's own names -/

/-- The names of the built-ins, without the scheme. -/
structure NodeBuiltins : Type where
  names : List (List Char)
  bare : ∀ name ∈ names, ¬ nodeScheme <+: name

/-- `module.isBuiltin`: a built-in's name, with or without one `node:`. -/
def NodeBuiltins.isBuiltin (node : NodeBuiltins) (name : List Char) : Bool :=
  decide (name ∈ node.names) || (stripPrefix nodeScheme name).any (· ∈ node.names)

def NodeBuiltins.worker (node : NodeBuiltins) (modulesDir : PathText)
    (forbidden : List (List Char)) : Worker :=
  ⟨modulesDir, forbidden, node.isBuiltin⟩

/-- The name with every leading `node:` removed. -/
def bareName : List Char → List Char
  | 'n' :: 'o' :: 'd' :: 'e' :: ':' :: rest => bareName rest
  | name => name

/-! ## Templates and modules -/

/-- What a call of `require` returns: the built-in Node knows under the name, or the
`exports` object that a module started with. -/
inductive Value : Type where
  | builtin (name : List Char)
  | own (key : List Component)
deriving DecidableEq

/-- What a template or a module does, as far as `require` can see it. A value is named by
its place among those that the render has been given, whoever asked for it. -/
inductive Script : Type where
  | done
  | throw
  /-- `module.exports = value`; `none` is an object of its own -/
  | exports (value : Option ℕ) (next : Script)
  | require (spec : Option (List Char)) (next : Option Value → Script)

/-- One render: the module instances and their `exports`, the specifiers that were asked
for, and what the calls returned, the last one first. -/
structure Rendering : Type where
  modules : ModuleCache
  exports : List Component → Value
  asked : List (List Char)
  returned : List Value

def Rendering.start : Rendering := ⟨fun _ => none, Value.own, [], []⟩

/-- `module.exports = value`; a template has no module. -/
def Rendering.assign (r : Rendering) (self : Option (List Component)) (value : Option ℕ) :
    Rendering :=
  match self with
  | none     => r
  | some key => { r with
      exports := Function.update r.exports key ((value.bind (r.returned[·]?)).getD (.own key)) }

/-- `true` if it ended without throwing. -/
def Script.run (require : Rendering → Option (List Char) → Option Value × Rendering)
    (self : Option (List Component)) : Script → Rendering → Bool × Rendering
  | .done, r               => (true, r)
  | .throw, r              => (false, r)
  | .exports value next, r => next.run require self (r.assign self value)
  | .require spec next, r  => (next (require r spec).1).run require self (require r spec).2

def Rendering.answer (r : Rendering) (value : Value) : Option Value × Rendering :=
  (some value, { r with
    returned := value :: r.returned })

/-- `path.relative(modulesDir, path.dirname(canonical))`. -/
def moduleBase (tree : ModuleTree) (modulesDir : PathText) (canonical : List Component) :
    List Char :=
  let origin := lexical (tree.origin modulesDir) (components modulesDir)
  let dirname := canonical.dropLast
  let common := ((origin.zip dirname).takeWhile fun pair => pair.1 == pair.2).length
  ['/'].intercalate (List.replicate (origin.length - common) ['.', '.'] ++ dirname.drop common)

section

variable (tree : ModuleTree) (manifestMain : ManifestMain) (worker : Worker)
  (body : List Component → List Char → Option Script)

/-- `jhsRequire` with the evaluation of what it finds; a call for which no stack is left
throws. `body` reads a module's source, `none` where it does not parse. -/
def Rendering.require : ℕ → List Char → Rendering → Option (List Char) →
    Option Value × Rendering
  | 0, _, r, _ => (none, r)
  | stack + 1, base, r, spec =>
    let entered : Rendering := { r with
      asked := spec.toList ++ r.asked }
    match jhsRequire tree manifestMain worker r.modules base spec with
    | (.error _, modules) => (none, { entered with
        modules := modules })
    | (.ok (.builtin name), modules) => { entered with
        modules := modules : Rendering }.answer (.builtin name)
    | (.ok (.module key source), modules) =>
      match r.modules key with
      | some _ => { entered with
          modules := modules : Rendering }.answer (r.exports key)
      | none =>
        match body key source with
        | none        => (none, entered)
        | some script =>
          let ran := script.run
            (Rendering.require stack (moduleBase tree worker.modulesDir key)) (some key)
            { entered with
              modules := modules
              exports := Function.update r.exports key (.own key) }
          if ran.1 then ran.2.answer (ran.2.exports key) else (none, ran.2)

/-- The render of a template, from an empty module cache. -/
def Rendering.after (stack : ℕ) (template : Script) : Rendering :=
  (template.run (Rendering.require tree manifestMain worker body stack []) none Rendering.start).2

end

/-! ## The two readings of a name -/

/-- A built-in that the list forbids. -/
def Value.Banned (forbidden : List (List Char)) : Value → Prop
  | .builtin name => packageOf (bareName name) ∈ forbidden
  | .own _        => False

/-- The specifier names a forbidden built-in after `node:` twice. -/
def Doubled (node : NodeBuiltins) (forbidden : List (List Char)) (spec : List Char) : Prop :=
  Char.ofNat 0 ∉ spec ∧ '\\' ∉ spec ∧ ∃ name ∈ node.names,
    jsTrim spec = nodeScheme ++ (nodeScheme ++ name) ∧
    packageOf name ∈ forbidden ∧ nodeScheme ++ packageOf name ∉ forbidden

theorem bareName_append (name : List Char) : bareName (nodeScheme ++ name) = bareName name := rfl

theorem bareName_of_unprefixed {name : List Char} (h : ¬ nodeScheme <+: name) :
    bareName name = name := by
  unfold bareName
  split
  · rename_i rest
    exact absurd ⟨rest, rfl⟩ h
  · rfl

theorem stripPrefix_append (pat text : List Char) : stripPrefix pat (pat ++ text) = some text := by
  unfold stripPrefix
  rw [if_pos (List.prefix_append pat text), List.drop_left]

theorem stripPrefix_of_unprefixed {pat text : List Char} (h : ¬ pat <+: text) :
    stripPrefix pat text = none := if_neg h

theorem packageOf_nodeScheme (name : List Char) :
    packageOf (nodeScheme ++ name) = nodeScheme ++ packageOf name := rfl

theorem NodeBuiltins.isBuiltin_bare {node : NodeBuiltins} {name : List Char}
    (h : ¬ nodeScheme <+: name) : node.isBuiltin name = true ↔ name ∈ node.names := by
  unfold NodeBuiltins.isBuiltin
  rw [stripPrefix_of_unprefixed h]
  simp

theorem NodeBuiltins.isBuiltin_scheme {node : NodeBuiltins} {name : List Char} :
    node.isBuiltin (nodeScheme ++ name) = true ↔ name ∈ node.names := by
  have hnot : nodeScheme ++ name ∉ node.names := fun h =>
    node.bare _ h (List.prefix_append nodeScheme name)
  unfold NodeBuiltins.isBuiltin
  rw [stripPrefix_append]
  simp [hnot]

section Call

variable {tree : ModuleTree} {manifestMain : ManifestMain} {node : NodeBuiltins}
  {modulesDir : PathText} {forbidden : List (List Char)} {cache : ModuleCache} {base : List Char}

theorem evaluateModule_ne_builtin (canonical : List Component) (name : List Char) :
    (evaluateModule tree cache canonical).1 ≠ .ok (.builtin name) := by
  unfold evaluateModule
  split
  · simp
  · split
    · simp
    · simp

theorem loadLocalModule_ne_builtin {worker : Worker} {spec name name' : List Char} :
    (loadLocalModule tree manifestMain worker cache spec name base).1 ≠ .ok (.builtin name') := by
  unfold loadLocalModule
  dsimp only
  split
  · simp
  · split
    · simp
    · split
      · simp
      · split
        · exact evaluateModule_ne_builtin _ name'
        · simp

theorem jhsRequire_some {worker : Worker} (spec : List Char) :
    jhsRequire tree manifestMain worker cache base (some spec) =
      if Char.ofNat 0 ∈ spec then (.error (.nul spec), cache)
      else if '\\' ∈ spec then (.error (.backslash spec), cache)
      else if workerName spec = [] then (.error .empty, cache)
      else if packageOf (workerName spec) ∈ worker.forbidden then
        (.error (.forbidden spec (packageOf (workerName spec))), cache)
      else if worker.isBuiltin (workerName spec) then (.ok (.builtin (workerName spec)), cache)
      else loadLocalModule tree manifestMain worker cache spec (workerName spec) base := rfl

/-- **A call that returns a built-in**: the name passed the banner and Node knows it. -/
theorem jhsRequire_builtin_iff {worker : Worker} {spec name : List Char} :
    (jhsRequire tree manifestMain worker cache base (some spec)).1 = .ok (.builtin name) ↔
      (Char.ofNat 0 ∉ spec ∧ '\\' ∉ spec ∧ workerName spec ≠ []) ∧
        packageOf (workerName spec) ∉ worker.forbidden ∧
        worker.isBuiltin (workerName spec) = true ∧ name = workerName spec := by
  rw [jhsRequire_some]
  split_ifs with hnul hslash hempty hforbidden hbuiltin
  · simp [hnul]
  · simp [hslash]
  · simp [hempty]
  · simp [hforbidden]
  · simp [hnul, hslash, hempty, hforbidden, hbuiltin, eq_comm]
  · have hlocal := @loadLocalModule_ne_builtin tree manifestMain cache base worker spec
      (workerName spec)
    simp [hlocal, hbuiltin]

theorem workerName_cases (spec : List Char) :
    (∃ rest, jsTrim spec = nodeScheme ++ rest ∧ workerName spec = rest) ∨
      (¬ nodeScheme <+: jsTrim spec ∧ workerName spec = jsTrim spec) := by
  unfold workerName
  by_cases hscheme : nodeScheme <+: jsTrim spec
  · obtain ⟨rest, hrest⟩ := hscheme
    refine Or.inl ⟨rest, hrest.symm, ?_⟩
    rw [← hrest, stripPrefix_append]
    rfl
  · rw [stripPrefix_of_unprefixed hscheme]
    exact Or.inr ⟨hscheme, rfl⟩

/-- **The two readings part** at a doubled scheme and nowhere else. -/
theorem returns_banned_iff {spec : List Char} :
    (∃ name, (jhsRequire tree manifestMain (node.worker modulesDir forbidden) cache base
        (some spec)).1 = .ok (.builtin name) ∧ packageOf (bareName name) ∈ forbidden) ↔
      Doubled node forbidden spec := by
  constructor
  · rintro ⟨name, hcall, hbanned⟩
    obtain ⟨⟨hnul, hslash, -⟩, hallowed, hbuiltin, rfl⟩ := jhsRequire_builtin_iff.mp hcall
    -- a name that still has a scheme, or the banner has read it as Node does
    by_cases hscheme : nodeScheme <+: workerName spec
    · obtain ⟨rest, hrest⟩ := hscheme
      have hname : rest ∈ node.names := by
        apply NodeBuiltins.isBuiltin_scheme.mp
        rw [hrest]
        exact hbuiltin
      have htrim : jsTrim spec = nodeScheme ++ (nodeScheme ++ rest) := by
        rcases workerName_cases spec with ⟨rest', htrim, hrest'⟩ | ⟨hnot, heq⟩
        · rw [htrim, ← hrest', hrest]
        · exact absurd ⟨rest, hrest.trans heq⟩ hnot
      rw [← hrest, bareName_append, bareName_of_unprefixed (node.bare rest hname)] at hbanned
      rw [← hrest, packageOf_nodeScheme] at hallowed
      exact ⟨hnul, hslash, rest, hname, htrim, hbanned, hallowed⟩
    · rw [bareName_of_unprefixed hscheme] at hbanned
      exact absurd hbanned hallowed
  · rintro ⟨hnul, hslash, rest, hname, htrim, hbanned, hallowed⟩
    have hworker : workerName spec = nodeScheme ++ rest := by
      unfold workerName
      rw [htrim, stripPrefix_append]
      rfl
    refine ⟨nodeScheme ++ rest, jhsRequire_builtin_iff.mpr ⟨⟨hnul, hslash, ?_⟩, ?_, ?_, ?_⟩, ?_⟩
    · rw [hworker]
      exact List.cons_ne_nil _ _
    · rw [hworker, packageOf_nodeScheme]
      exact hallowed
    · rw [hworker]
      exact NodeBuiltins.isBuiltin_scheme.mpr hname
    · exact hworker.symm
    · rw [bareName_append, bareName_of_unprefixed (node.bare rest hname)]
      exact hbanned

end Call

/-! ## Renders -/

/-- Nothing forbidden has been returned if and only if no doubled scheme has been asked for, and
a module's `exports` are its own object or something that was returned. -/
structure Rendering.Traced (node : NodeBuiltins) (forbidden : List (List Char)) (r : Rendering) :
    Prop where
  returned : (∀ value ∈ r.returned, ¬ value.Banned forbidden) ↔
    ∀ spec ∈ r.asked, ¬ Doubled node forbidden spec
  exports : ∀ key, r.exports key = .own key ∨ r.exports key ∈ r.returned

section

variable {node : NodeBuiltins} {forbidden : List (List Char)}

theorem Rendering.traced_start : Rendering.start.Traced node forbidden :=
  ⟨by simp [Rendering.start], fun _ => Or.inl rfl⟩

theorem Rendering.Traced.assign {r : Rendering} (h : r.Traced node forbidden)
    (self : Option (List Component)) (value : Option ℕ) :
    (r.assign self value).Traced node forbidden := by
  unfold Rendering.assign
  cases self with
  | none => exact h
  | some key =>
      refine ⟨h.returned, fun key' => ?_⟩
      show Function.update r.exports key _ key' = .own key' ∨
        Function.update r.exports key _ key' ∈ r.returned
      by_cases heq : key' = key
      · subst heq
        rw [Function.update_self]
        cases hvalue : value.bind (r.returned[·]?) with
        | none => exact Or.inl rfl
        | some given =>
            obtain ⟨place, -, hplace⟩ := Option.bind_eq_some_iff.mp hvalue
            exact Or.inr (List.mem_of_getElem? hplace)
      · rw [Function.update_of_ne heq]
        exact h.exports key'

/-- A value that was there before, or an object of a module, adds nothing. -/
theorem Rendering.Traced.answer {r : Rendering} (h : r.Traced node forbidden)
    (key : List Component) :
    (r.answer (r.exports key)).2.Traced node forbidden := by
  have hkept : (∀ value ∈ r.exports key :: r.returned, ¬ value.Banned forbidden) ↔
      ∀ value ∈ r.returned, ¬ value.Banned forbidden := by
    rw [List.forall_mem_cons]
    refine ⟨And.right, fun hall => ⟨?_, hall⟩⟩
    rcases h.exports key with hown | hreturned
    · rw [hown]
      exact id
    · exact hall _ hreturned
  exact ⟨hkept.trans h.returned, fun key' => (h.exports key').imp_right (List.mem_cons_of_mem _)⟩

/-- A call that is asked for, before it is known what it returns. -/
theorem Rendering.Traced.entered {r : Rendering} (h : r.Traced node forbidden)
    {spec : Option (List Char)} (hspec : ∀ text ∈ spec, ¬ Doubled node forbidden text)
    (modules : ModuleCache) :
    Rendering.Traced node forbidden { r with
      asked := spec.toList ++ r.asked
      modules := modules } := by
  refine ⟨h.returned.trans ?_, h.exports⟩
  show _ ↔ ∀ text ∈ spec.toList ++ r.asked, _
  rw [List.forall_mem_append]
  refine ⟨fun hall => ⟨fun text htext => ?_, hall⟩, And.right⟩
  exact hspec text (Option.mem_toList.mp htext)

/-- **A script** keeps what each of its calls keeps. -/
theorem Script.run_traced {require : Rendering → Option (List Char) → Option Value × Rendering}
    (hrequire : ∀ r spec, r.Traced node forbidden → (require r spec).2.Traced node forbidden)
    (self : Option (List Component)) (script : Script) {r : Rendering}
    (h : r.Traced node forbidden) : (script.run require self r).2.Traced node forbidden := by
  induction script generalizing r with
  | done => exact h
  | throw => exact h
  | exports value next ih => exact ih (h.assign self value)
  | require spec next ih => exact ih _ (hrequire r spec h)

variable {tree : ModuleTree} {manifestMain : ManifestMain} {modulesDir : PathText}
  {body : List Component → List Char → Option Script}

/-- A built-in that is returned is forbidden if the specifier was doubled. -/
theorem Rendering.Traced.answer_builtin {r : Rendering} (h : r.Traced node forbidden)
    {base : List Char} {spec : Option (List Char)} {name : List Char}
    (hcall : (jhsRequire tree manifestMain (node.worker modulesDir forbidden) r.modules base
      spec).1 = .ok (.builtin name)) (modules : ModuleCache) :
    (Rendering.answer { r with
      asked := spec.toList ++ r.asked
      modules := modules } (.builtin name)).2.Traced node forbidden := by
  cases spec with
  | none => cases hcall
  | some text =>
      have hbanned : (Value.builtin name).Banned forbidden ↔ Doubled node forbidden text := by
        refine Iff.trans ⟨fun hname => ⟨name, hcall, hname⟩, ?_⟩ returns_banned_iff
        rintro ⟨name', hcall', hname'⟩
        cases hcall.symm.trans hcall'
        exact hname'
      refine ⟨?_, fun key => (h.exports key).imp_right (List.mem_cons_of_mem _)⟩
      show (∀ value ∈ Value.builtin name :: r.returned, ¬ value.Banned forbidden) ↔
        ∀ text' ∈ text :: r.asked, ¬ Doubled node forbidden text'
      rw [List.forall_mem_cons, List.forall_mem_cons, hbanned, h.returned]

/-- **One call**, with all the calls inside it. -/
theorem Rendering.require_traced (stack : ℕ) (base : List Char) {r : Rendering}
    (spec : Option (List Char)) (h : r.Traced node forbidden) :
    (Rendering.require tree manifestMain (node.worker modulesDir forbidden) body stack base r
      spec).2.Traced node forbidden := by
  induction stack generalizing base r spec with
  | zero => exact h
  | succ stack ih =>
      have hplain : (∀ name, (jhsRequire tree manifestMain (node.worker modulesDir forbidden)
          r.modules base spec).1 ≠ .ok (.builtin name)) →
          ∀ text ∈ spec, ¬ Doubled node forbidden text := by
        rintro hnone text rfl hdoubled
        obtain ⟨name, hcall, -⟩ := returns_banned_iff.mpr hdoubled
        exact hnone name hcall
      unfold Rendering.require
      dsimp only
      split
      · rename_i e modules hcall
        exact h.entered (hplain (by simp [hcall])) modules
      · rename_i name modules hcall
        exact h.answer_builtin (congrArg Prod.fst hcall) modules
      · rename_i key source modules hcall
        have hentered := h.entered (hplain (by simp [hcall]))
        split
        · exact (hentered modules).answer key
        · split
          · exact hentered r.modules
          · rename_i script _
            have hstarted : Rendering.Traced node forbidden { r with
                asked := spec.toList ++ r.asked
                modules := modules
                exports := Function.update r.exports key (.own key) } :=
              (hentered modules).assign (some key) none
            have hran := script.run_traced (fun r spec hr =>
              ih (moduleBase tree modulesDir key) spec hr) (some key) hstarted
            split
            · exact hran.answer key
            · exact hran

end

end Wallermax.Templates
