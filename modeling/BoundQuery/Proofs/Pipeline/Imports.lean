/-
**The imports of a pipeline.**

A query imports what it needs and what was asked for, and nothing else.  In the order of the stages,
a package is asked for by a change of the settings, the package of records is needed at every column
that is looked up, and the package of time zones at every time zone; each package is imported where
it is first asked for or needed.

Main definitions:

* `BoundQuery.Stage.paths` — the paths of the packages that a stage asks for or needs, in order;
* `BoundQuery.requiredPaths` — the paths of the packages that a block imports;
* `BoundQuery.Settings.importLines` — the lines of the imports.

Main results:

* `BoundQuery.Predicate.requiredPaths_plan`, `BoundQuery.Stage.paths_form` — what is written imports
  what it needs;
* `BoundQuery.Session.map_path_of_adds`, `BoundQuery.Session.map_path_of_foldlM` — the imports after
  a stage and after a pipeline;
* `BoundQuery.Session.imports_eq_of_foldlM` — **the imports are the packages that were asked for or
  needed, each of them once and in the order of the stages**.
-/

import BoundQuery.Pipeline.Query
import BoundQuery.Proofs.Pipeline.Texts
import Mathlib.Data.List.Nodup

set_option relaxedAutoImplicit false
set_option autoImplicit false

namespace BoundQuery

/-! ### What is asked for and needed -/

/-- The path of the package that a column needs. -/
def Column.paths : Column → List String
  | trusted _ => []
  | dynamic _ => ["experimental/record"]

/-- The path of the package that a time zone needs. -/
def Location.paths (_ : Location) : List String := ["timezone"]

/-- The paths that a change of the settings asks for. -/
def Change.paths : Change → List String
  | fixNow _ => []
  | require path => [path]
  | requireAll paths => paths

/-- The paths that a stage asks for or needs, in order. -/
def Stage.paths : Stage → List String
  | configure changes => changes.flatMap Change.paths
  | stage => stage.columns.flatMap Column.paths ++ stage.locations.flatMap Location.paths

/-! ### What blocks import -/

/-- The paths of the packages that a block imports, in order. -/
def requiredPaths (b : Block) : List String := (b.flatMap Action.packages).map Package.path

section Blocks

variable {b c : Block}

@[simp] theorem requiredPaths_nil : requiredPaths [] = [] := rfl

@[simp] theorem requiredPaths_append :
    requiredPaths (b ++ c) = requiredPaths b ++ requiredPaths c := by
  rw [requiredPaths, List.flatMap_append, List.map_append]
  rfl

@[simp] theorem requiredPaths_write {t : List Char} :
    requiredPaths (.write t :: b) = requiredPaths b := rfl

@[simp] theorem requiredPaths_place {label : String} {v : Value} :
    requiredPaths (.place label v :: b) = requiredPaths b := rfl

@[simp] theorem requiredPaths_give {label : String} {g : Given} :
    requiredPaths (.give label g :: b) = requiredPaths b := rfl

@[simp] theorem requiredPaths_fail {e : Error} :
    requiredPaths (.fail e :: b) = requiredPaths b := rfl

@[simp] theorem requiredPaths_require {p : Package} :
    requiredPaths (.require p :: b) = p.path :: requiredPaths b := rfl

end Blocks

@[simp] theorem Column.requiredPaths_block (c : Column) : requiredPaths c.block = c.paths := by
  cases c with
  | trusted name => simp [block, paths]
  | dynamic name => simp [block, paths, Package.record]

@[simp] theorem Operand.requiredPaths_block (label : String) (o : Operand) :
    requiredPaths (o.block label) = o.columns.flatMap Column.paths := by
  cases o with
  | column c => simp [block, columns]
  | value v => rfl
  | absent => rfl

@[simp] theorem Template.requiredPaths_block (t : Template) (label : String) :
    requiredPaths (t.block label) = [] := by
  unfold block
  induction t.parts with
  | nil => rfl
  | cons part parts ih => cases part <;> exact ih

@[simp] theorem Script.requiredPaths_block (s : Script) : requiredPaths s.block = [] := by
  unfold block
  induction s with
  | nil => rfl
  | cons step steps ih => cases step <;> exact ih

namespace Predicate

mutual

/-- **What a predicate writes imports what its columns need.** -/
theorem requiredPaths_plan : ∀ p : Predicate,
    requiredPaths p.plan.flatten = p.columns.flatMap Column.paths
  | compare left how right label => by simp [plan, columns]
  | group c [] => by simp [plan, columns, memberColumns]
  | group c (p :: ps) => by
      simp [plan, columns, memberColumns, requiredPaths_plan p, requiredPaths_restPlan c ps]
  | template t label => by simp [plan, columns]
  | script s => by simp [plan, columns]

theorem requiredPaths_restPlan (c : Connective) : ∀ ps : List Predicate,
    requiredPaths (restPlan c ps).flatten = (memberColumns ps).flatMap Column.paths
  | [] => rfl
  | p :: ps => by
      simp [restPlan, memberColumns, requiredPaths_plan p, requiredPaths_restPlan c ps]

end

end Predicate

@[simp] theorem Bound.requiredPaths_block (b : Bound) (label : String) :
    requiredPaths (b.block label) = [] := by
  cases b <;> simp [block]

@[simp] theorem Location.requiredPaths_block (l : Location) : requiredPaths l.block = l.paths := by
  cases l <;> simp [block, paths, Package.timezone]

/-- The path of the package that an argument needs. -/
def Argument.paths : Argument → List String
  | location l => l.paths
  | _ => []

@[simp] theorem Argument.paths_value (v : Value) : (value v).paths = [] := rfl

@[simp] theorem Argument.paths_name (t : String) : (name t).paths = [] := rfl

theorem Argument.requiredPaths_block (function name : String) (a : Argument) :
    requiredPaths (a.block function name) = a.paths := by
  cases a with
  | value v => rfl
  | location l => exact l.requiredPaths_block
  | name t => rfl

theorem Argument.requiredPaths_blocks (function : String) (as : List (String × Argument)) :
    requiredPaths (blocks function as) = as.flatMap fun a => a.2.paths := by
  induction as with
  | nil => rfl
  | cons a as ih =>
      cases as with
      | nil => simp [blocks, requiredPaths_block]
      | cons a' as => simp [blocks, requiredPaths_block, ih]

@[simp] theorem requiredPaths_callBlock (function : String) (as : List (String × Argument)) :
    requiredPaths (callBlock function as) = as.flatMap fun a => a.2.paths := by
  simp [callBlock, Argument.requiredPaths_blocks]

@[simp] theorem Argument.paths_ofValue? (name : String) (v : Option Value) :
    ((ofValue? name v).flatMap fun a => a.2.paths) = [] := by
  cases v <;> rfl

@[simp] theorem Argument.paths_ofLocation? (l : Option Location) :
    ((ofLocation? l).flatMap fun a => a.2.paths) = l.toList.flatMap Location.paths := by
  cases l <;> rfl

theorem Window.paths_arguments (every : Duration) (w : Window) :
    ((w.arguments every).flatMap fun a => a.2.paths) =
      w.location.toList.flatMap Location.paths := by
  unfold arguments
  split <;> simp [Argument.ofDuration?, Argument.ofText?]

theorem AggregateWindow.paths_arguments (function : Identifier) (every : Duration)
    (w : AggregateWindow) : ((w.arguments function every).flatMap fun a => a.2.paths) =
      w.location.toList.flatMap Location.paths := by
  unfold arguments
  split <;> simp [Argument.ofDuration?, Argument.ofText?]

/-- The paths that a stage of a form imports. -/
def Stage.Form.paths : Form → List String
  | source _ b => requiredPaths b
  | piped b => requiredPaths b
  | silent changes => changes.flatMap Change.paths

/-- **A stage imports what it asks for and needs.** -/
theorem Stage.paths_form (stage : Stage) : stage.form.paths = stage.paths := by
  cases stage with
  | source bucket => rfl
  | templateSource t => exact t.requiredPaths_block _
  | scriptSource s => exact s.requiredPaths_block
  | range start stop =>
      cases stop <;> simp [form, Form.paths, paths, columns, locations, rangeBlock]
  | filter p => simp [form, Form.paths, paths, columns, locations, p.requiredPaths_plan]
  | aggregate f column =>
      simp [form, Form.paths, paths, columns, locations, Argument.ofText?]
  | movingAverage n =>
      simp only [form, Form.paths]
      split <;> rfl
  | timedMovingAverage every period column =>
      simp [form, Form.paths, paths, columns, locations, Argument.ofText?]
  | window every w => simp [form, Form.paths, paths, columns, locations, w.paths_arguments]
  | aggregateWindow f every w =>
      simp [form, Form.paths, paths, columns, locations, w.paths_arguments]
  | yield name => simp [form, Form.paths, paths, columns, locations, Argument.ofText?]
  | configure changes => rfl

/-! ### Imports one after the other -/

theorem Package.path_injective : Function.Injective Package.path := by
  rintro ⟨p, hp⟩ ⟨q, hq⟩ h
  cases h
  rfl

theorem Package.path_of_ofPath {path : String} {p : Package} (h : ofPath path = .ok p) :
    p.path = path := by
  unfold ofPath at h
  split at h
  · cases h
    rfl
  · cases h

theorem Package.map_path_of_mapM {paths : List String} {ps : List Package}
    (h : paths.mapM ofPath = .ok ps) : ps.map path = paths := by
  induction paths generalizing ps with
  | nil =>
      cases h
      rfl
  | cons path paths ih =>
      rw [List.mapM_cons] at h
      cases hp : ofPath path with
      | error e =>
          rw [hp] at h
          cases h
      | ok p =>
          cases hps : paths.mapM ofPath with
          | error e =>
              rw [hp, hps] at h
              cases h
          | ok qs =>
              rw [hp, hps] at h
              cases h
              rw [List.map_cons, path_of_ofPath hp, ih hps]

/-- A text behind others is a first occurrence unless it is among them. -/
theorem eraseDups_concat (xs : List String) (x : String) :
    (xs ++ [x]).eraseDups = if x ∈ xs then xs.eraseDups else xs.eraseDups ++ [x] := by
  rw [List.eraseDups_append]
  by_cases h : x ∈ xs <;> simp [List.removeAll, List.eraseDups_cons, h]

/-- Where no text is repeated, each of them is a first occurrence. -/
theorem eraseDups_of_nodup {xs : List String} (h : xs.Nodup) : xs.eraseDups = xs := by
  induction xs with
  | nil => rfl
  | cons x xs ih =>
      obtain ⟨hx, hxs⟩ := List.nodup_cons.1 h
      have hfilter : (xs.filter fun y => !y == x) = xs := by
        refine List.filter_eq_self.2 fun y hy => ?_
        have hne : y ≠ x := fun heq => hx (heq ▸ hy)
        simpa using hne
      rw [List.eraseDups_cons, hfilter, ih hxs]

section Names

-- the imports are the first occurrences of `names`
variable {names : List String}

theorem map_path_addPackage {ps : List Package} (h : ps.map Package.path = names.eraseDups)
    (q : Package) : (addPackage ps q).map Package.path = (names ++ [q.path]).eraseDups := by
  have hmem : q ∈ ps ↔ q.path ∈ names := by
    rw [← List.mem_eraseDups (l := names), ← h]
    exact (List.mem_map_of_injective Package.path_injective).symm
  rw [eraseDups_concat, addPackage]
  by_cases hq : q ∈ ps
  · rw [if_pos hq, if_pos (hmem.1 hq), h]
  · rw [if_neg hq, if_neg (fun hpath => hq (hmem.2 hpath)), List.map_append, h]
    rfl

theorem map_path_addPackages {ps : List Package} (h : ps.map Package.path = names.eraseDups)
    (qs : List Package) :
    (addPackages ps qs).map Package.path = (names ++ qs.map Package.path).eraseDups := by
  induction qs generalizing ps names with
  | nil =>
      rw [List.map_nil, List.append_nil]
      exact h
  | cons q qs ih =>
      have hnext := ih (map_path_addPackage h q)
      rwa [List.append_assoc] at hnext

namespace Settings

/-- A change of the settings imports the packages that it asks for. -/
theorem map_path_change {s s' : Settings} (h : s.imports.map Package.path = names.eraseDups)
    {c : Change} (hc : s.change c = .ok s') :
    s'.imports.map Package.path = (names ++ c.paths).eraseDups := by
  cases c with
  | fixNow t =>
      obtain ⟨u, -, rfl⟩ := exists_of_fixNow hc
      rw [Change.paths, List.append_nil]
      exact h
  | require path =>
      obtain ⟨q, hq, rfl⟩ := Template.exists_of_map_eq_ok hc
      rw [addImport_eq, Change.paths, ← Package.path_of_ofPath hq]
      exact map_path_addPackage h q
  | requireAll paths =>
      obtain ⟨qs, hqs, rfl⟩ := Template.exists_of_map_eq_ok hc
      rw [addImports_eq, Change.paths, ← Package.map_path_of_mapM hqs]
      exact map_path_addPackages h qs

/-- So do changes one after the other. -/
theorem map_path_changes {s s' : Settings} (h : s.imports.map Package.path = names.eraseDups)
    {changes : List Change} (hc : changes.foldlM change s = .ok s') :
    s'.imports.map Package.path = (names ++ changes.flatMap Change.paths).eraseDups := by
  induction changes generalizing s names with
  | nil =>
      cases hc
      rw [List.flatMap_nil, List.append_nil]
      exact h
  | cons c changes ih =>
      obtain ⟨s₁, hone, hc⟩ := exists_of_foldlM_cons hc
      have hnext := ih (map_path_change h hone) hc
      rwa [List.append_assoc] at hnext

end Settings

/-! ### Stages -/

namespace Session

variable {s s' : Session}

/-- Actions import the packages that they ask for. -/
theorem map_path_after (h : s.settings.imports.map Package.path = names.eraseDups) (b : Block) :
    (s.after b).settings.imports.map Package.path = (names ++ requiredPaths b).eraseDups :=
  map_path_addPackages h (b.flatMap Action.packages)

/-- **The imports after a stage.** -/
theorem map_path_of_adds (h : s.settings.imports.map Package.path = names.eraseDups)
    {f : Stage.Form} (hadds : s.Adds f s') :
    s'.settings.imports.map Package.path = (names ++ f.paths).eraseDups := by
  cases hadds with
  | @source argument b _ _ => exact map_path_after h b
  | @piped b _ => exact map_path_after h (.write s.pipe :: b)
  | silent hfold => exact Settings.map_path_changes h hfold

/-- **The imports after a pipeline.** -/
theorem map_path_of_foldlM (hsound : s.Sound)
    (h : s.settings.imports.map Package.path = names.eraseDups) {stages : List Stage}
    (hs : stages.foldlM add s = .ok s') :
    s'.settings.imports.map Package.path = (names ++ stages.flatMap Stage.paths).eraseDups := by
  induction stages generalizing s names with
  | nil =>
      cases hs
      rw [List.flatMap_nil, List.append_nil]
      exact h
  | cons stage stages ih =>
      obtain ⟨s₁, hstage, hs⟩ := exists_of_foldlM_cons hs
      have hone := map_path_of_adds h (adds_of_addForm hsound.table.numbered hstage)
      have hnext := ih (hsound.add hstage) hone hs
      rwa [Stage.paths_form, List.append_assoc] at hnext

end Session

end Names

/-! ### Where imports are written -/

/-- The lines of the imports. -/
def Settings.importLines (s : Settings) : List Char :=
  s.imports.flatMap fun p => p.importText ++ ['\n']

theorem Settings.importLines_prefix (s : Settings) : s.importLines <+: s.importsText.getD [] := by
  unfold importsText importLines
  cases s.imports with
  | nil => exact List.prefix_refl _
  | cons p ps => exact List.prefix_append _ _

namespace Session

variable {s : Session}

theorem importLines_prefix_queryText (s : Session) : s.settings.importLines <+: s.queryText := by
  rw [queryText, List.append_assoc, List.append_assoc]
  exact s.settings.importLines_prefix.trans (List.prefix_append _ _)

theorem importLines_prefix_request (s : Session) :
    s.settings.importLines <+: s.request.query.toList := by
  rw [request, String.toList_ofList]
  exact s.settings.importLines_prefix.trans (List.prefix_append _ _)

end Session

/-! ### Texts that need an import -/

/-- The packages are imported with whose names a text begins. -/
def Imported (ps : List Package) (t : List Char) : Prop :=
  ("record.get(".toList <+: t → .record ∈ ps) ∧ ("timezone.".toList <+: t → .timezone ∈ ps)

theorem imported_of_pointless {ps : List Package} {t : List Char} (h : '.' ∉ t) :
    Imported ps t := by
  constructor
  · intro hbegins
    exact absurd (hbegins.subset (by decide)) h
  · intro hbegins
    exact absurd (hbegins.subset (by decide)) h

theorem Column.imported_opening {ps : List Package} {c : Column}
    (h : ∀ name, c = .dynamic name → .record ∈ ps) : Imported ps c.opening := by
  cases c with
  | trusted name =>
      constructor
      · rintro ⟨rest, hrest⟩
        cases hrest
      · rintro ⟨rest, hrest⟩
        cases hrest
  | dynamic name =>
      constructor
      · exact fun _ => h name rfl
      · rintro ⟨rest, hrest⟩
        cases hrest

theorem Location.imported_opening {ps : List Package} (h : .timezone ∈ ps) (l : Location) :
    Imported ps l.opening := by
  refine ⟨?_, fun _ => h⟩
  rintro ⟨rest, hrest⟩
  cases l <;> cases hrest

namespace Stage

/-- A stage in which a column is looked up needs the package of records. -/
theorem record_mem_paths {stage : Stage} {name : String} (h : .dynamic name ∈ stage.columns) :
    Package.record.path ∈ stage.paths := by
  have hcolumn : Package.record.path ∈ (Column.dynamic name).paths := List.mem_singleton_self _
  cases stage with
  | filter p => exact List.mem_append_left _ (List.mem_flatMap.2 ⟨_, h, hcolumn⟩)
  | _ => cases h

/-- A stage with a time zone needs the package of time zones. -/
theorem timezone_mem_paths {stage : Stage} {l : Location} (h : l ∈ stage.locations) :
    Package.timezone.path ∈ stage.paths := by
  have hlocation : Package.timezone.path ∈ l.paths := List.mem_singleton_self _
  cases stage with
  | window every w => exact List.mem_append_right _ (List.mem_flatMap.2 ⟨l, h, hlocation⟩)
  | aggregateWindow f every w =>
      exact List.mem_append_right _ (List.mem_flatMap.2 ⟨l, h, hlocation⟩)
  | _ => cases h

end Stage

/-! ### Pipelines -/

namespace Session

variable {s : Session}

/-- **The imports of a pipeline** are the packages that were imported at its start and those that
its stages ask for or need, each of them once, where it comes first.  So the package of records is
imported where a column is looked up, and the package of time zones where there is one; without
scripts, they are imported wherever the body has a text of a stage that begins with their name.
The imports stand in the syntax tree, in the query and in the text of the request. -/
theorem imports_eq_of_foldlM {settings : Settings} {stages : List Stage}
    (hnodup : settings.imports.Nodup) (hs : stages.foldlM add (.ofSettings settings) = .ok s) :
    s.settings.imports.map Package.path =
      (settings.imports.map Package.path ++ stages.flatMap Stage.paths).eraseDups ∧
    (∀ stage ∈ stages, (∀ name, .dynamic name ∈ stage.columns → .record ∈ s.settings.imports) ∧
      ∀ l ∈ stage.locations, .timezone ∈ s.settings.imports) ∧
    ((∀ stage ∈ stages, stage.Scriptless) → ∀ t, .fixed t ∈ s.output →
      t ∉ stages.flatMap Stage.rawTexts → Imported s.settings.imports t) ∧
    s.file.imports = s.settings.imports.map Package.importNode ∧
    s.settings.importLines <+: s.queryText ∧ s.settings.importLines <+: s.request.query.toList := by
  have hstart : settings.imports.map Package.path =
      (settings.imports.map Package.path).eraseDups :=
    (eraseDups_of_nodup (hnodup.map Package.path_injective)).symm
  have hpaths := map_path_of_foldlM (.ofSettings settings) hstart hs
  have hmem : ∀ stage ∈ stages, ∀ p : Package, p.path ∈ stage.paths →
      p ∈ s.settings.imports := by
    intro stage hstage p hp
    have hpath : p.path ∈ s.settings.imports.map Package.path := by
      rw [hpaths, List.mem_eraseDups]
      exact List.mem_append_right _ (List.mem_flatMap.2 ⟨stage, hstage, hp⟩)
    exact (List.mem_map_of_injective Package.path_injective).1 hpath
  have hcolumns : ∀ stage ∈ stages, ∀ name, .dynamic name ∈ stage.columns →
      .record ∈ s.settings.imports := fun stage hstage name hname =>
    hmem stage hstage .record (Stage.record_mem_paths hname)
  have hlocations : ∀ stage ∈ stages, ∀ l ∈ stage.locations, .timezone ∈ s.settings.imports :=
    fun stage hstage l hl => hmem stage hstage .timezone (Stage.timezone_mem_paths hl)
  refine ⟨hpaths, fun stage hstage => ⟨hcolumns stage hstage, hlocations stage hstage⟩, ?_, rfl,
    s.importLines_prefix_queryText, s.importLines_prefix_request⟩
  intro hscriptless
  refine writes_of_foldlM (P := fun t => t ∉ stages.flatMap Stage.rawTexts →
    Imported s.settings.imports t) (fun t ht _ => imported_of_pointless ht) ?_ hs
  intro stage hstage
  refine Stage.writes_form (fun t ht _ => imported_of_pointless ht) (hscriptless stage hstage)
    ?_ ?_ ?_
  · intro c hc _
    refine Column.imported_opening fun name heq => ?_
    subst heq
    exact hcolumns stage hstage name hc
  · intro l hl _
    exact l.imported_opening (hlocations stage hstage l hl)
  · intro t ht hraws
    exact absurd (List.mem_flatMap.2 ⟨stage, hstage, ht⟩) hraws

/-- Two columns are looked up and two packages are imported once more than needed. -/
theorem imports_eq_of_foldlM_twoColumns : ∃ (settings : Settings) (s : Session),
    settings = ⟨.none, none, [.strings]⟩ ∧ settings.imports.Nodup ∧
    [Stage.configure [.requireAll ["date", "strings"]],
      .filter (.everyTag [("host", "a"), ("cpu", "b")]),
      .window .zero ⟨none, none, some .utc, none, none, none, false⟩,
      .configure [.require "experimental/record"]].foldlM add (.ofSettings settings) = .ok s ∧
    s.settings.imports.map Package.path =
      ["strings", "date", "experimental/record", "timezone"] ∧
    s.settings.importLines <+: s.queryText := by
  obtain ⟨s, hs⟩ : ∃ s, [Stage.configure [.requireAll ["date", "strings"]],
      .filter (.everyTag [("host", "a"), ("cpu", "b")]),
      .window .zero ⟨none, none, some .utc, none, none, none, false⟩,
      .configure [.require "experimental/record"]].foldlM add
        (.ofSettings ⟨.none, none, [.strings]⟩) = .ok s := ⟨_, rfl⟩
  have hnodup : [Package.strings].Nodup := List.nodup_singleton _
  obtain ⟨hpaths, -, -, -, hlines, -⟩ := imports_eq_of_foldlM hnodup hs
  exact ⟨_, s, rfl, hnodup, hs, hpaths.trans (by decide), hlines⟩

end Session

end BoundQuery
