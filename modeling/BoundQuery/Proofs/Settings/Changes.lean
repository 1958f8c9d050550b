/-
**Settings after any changes.**

Settings may be changed in any order and any number of times, and some of the changes may fail: the
present is fixed already or would be out of range, or a text is no path of a package.  A change that
fails leaves the settings as they were.  So the changes that are tried, the failing ones among them,
decide what the settings are: the present is the first instant in range that was asked for, and the
packages are those that were added, in the order in which each of them was added first.

Main definitions:

* `BoundQuery.Package.IsPath` — a text is made of identifiers with slashes between them;
* `BoundQuery.Change.added` — the packages that a change adds;
* `BoundQuery.Settings.attempt`, `BoundQuery.Settings.attempts` — the settings that a change leaves,
  and the settings that changes leave one after the other;
* `BoundQuery.Settings.Records` — settings are what changes make of a policy.

Main results:

* `BoundQuery.isPackagePath_iff` — a path is tested for what it is made of;
* `BoundQuery.Settings.change_fixNow` — what becomes of fixing the present;
* `BoundQuery.Settings.attempt_eq`, `BoundQuery.Settings.attempts_eq` — what one change and what
  any changes leave;
* `BoundQuery.Settings.records_attempts` — **the present is fixed once and packages are only ever
  added, whatever is tried**.
-/

import BoundQuery.Proofs.Binding.Continuation
import BoundQuery.Proofs.Binding.Name
import BoundQuery.Proofs.Pipeline.Imports
import BoundQuery.Proofs.Pipeline.Instants

set_option relaxedAutoImplicit false
set_option autoImplicit false

namespace BoundQuery

/-! ### Paths -/

/-- A text is made of identifiers with slashes between them, of one at least. -/
def Package.IsPath (s : String) : Prop :=
  ∃ names : List String, names ≠ [] ∧ (∀ x ∈ names, isIdentifier x = true) ∧
    s = "/".intercalate names

theorem segments_eq_splitOn (s : List Char) : segments s = s.splitOn '/' := by
  induction s with
  | nil => rfl
  | cons c s ih =>
      rw [List.splitOn, List.splitOnP_cons_eq_if_modifyHead, segments, ih, List.splitOn]
      by_cases hc : c = '/'
      · rw [if_pos hc, if_pos (beq_iff_eq.2 hc)]
      · rw [if_neg hc, if_neg (fun h => hc (beq_iff_eq.1 h))]
        cases h : s.splitOnP (· == '/') with
        | nil => exact absurd h (List.splitOnP_ne_nil _ _)
        | cons part parts => rfl

/-- **A text is the path of a package if it is made of identifiers with slashes between them.** -/
theorem isPackagePath_iff (s : String) : isPackagePath s = true ↔ Package.IsPath s := by
  unfold isPackagePath
  rw [segments_eq_splitOn, List.all_eq_true]
  constructor
  · intro h
    refine ⟨(s.toList.splitOn '/').map String.ofList, ?_, ?_, ?_⟩
    · exact fun hnil => List.splitOn_ne_nil _ _ (List.map_eq_nil_iff.1 hnil)
    · intro x hx
      obtain ⟨part, hpart, rfl⟩ := List.mem_map.1 hx
      rw [isIdentifier, String.toList_ofList]
      exact h part hpart
    · have hmap : (s.toList.splitOn '/').map (String.toList ∘ String.ofList) =
          s.toList.splitOn '/' := by simp [Function.comp_def]
      rw [← String.toList_inj, String.toList_intercalate, List.map_map, hmap]
      exact (List.intercalate_splitOn '/').symm
  · rintro ⟨names, hne, hnames, rfl⟩ part hpart
    -- no identifier has a slash, so taking the path apart gives the names back
    have hslash : ∀ l ∈ names.map String.toList, '/' ∉ l := by
      intro l hl
      obtain ⟨x, hx, rfl⟩ := List.mem_map.1 hl
      exact notMem_of_isIdentifier (hnames x hx) (by decide)
    have hsplit := List.splitOn_intercalate '/' hslash (by simpa using hne)
    rw [String.toList_intercalate] at hpart
    obtain ⟨x, hx, rfl⟩ := List.mem_map.1 (hsplit ▸ hpart)
    exact hnames x hx

namespace Package

theorem ofPath_path (q : Package) : ofPath q.path = .ok q := dif_pos q.isPackagePath_path

theorem mapM_ofPath_map_path (qs : List Package) : (qs.map path).mapM ofPath = .ok qs := by
  induction qs with
  | nil => rfl
  | cons q qs ih =>
      rw [List.map_cons, List.mapM_cons, ofPath_path, ih]
      rfl

end Package

/-! ### What a change asks for -/

/-- The packages that a change adds: all that it asks for, or none if a text is no path. -/
def Change.added (c : Change) : List Package :=
  match c.paths.mapM Package.ofPath with
  | .ok qs => qs
  | .error _ => []

namespace Settings

/-- The settings that a change leaves; if it fails, they are those from before.  A change that is
made in place and one that hands the settings on are the same change. -/
def attempt (s : Settings) (c : Change) : Settings :=
  match s.change c with
  | .ok s' => s'
  | .error _ => s

/-- The settings that changes leave one after the other. -/
def attempts (s : Settings) (cs : List Change) : Settings := cs.foldl attempt s

@[simp] theorem attempts_nil (s : Settings) : s.attempts [] = s := rfl

@[simp] theorem attempts_cons (s : Settings) (c : Change) (cs : List Change) :
    s.attempts (c :: cs) = (s.attempt c).attempts cs := rfl

/-! ### One change -/

/-- **What becomes of fixing the present.**  That it is fixed already counts before the range. -/
theorem change_fixNow (s : Settings) (t : Instant) :
    s.change (.fixNow t) =
      if s.now.isSome then .error (.argument "now" .alreadyFixed)
      else if t.InRange then .ok { s with now := some t }
      else .error (.argument "now" (.outsideRange t)) := by
  simp only [change, fixNow]
  split
  · rfl
  · by_cases ht : t.InRange
    · rw [Instant.checked, if_pos ht, if_pos ht]
    · rw [Instant.checked_of_not_inRange ht, if_neg ht]
      rfl

theorem change_fixNow_of_some {s : Settings} {t : Instant} (h : s.now = some t) (u : Instant) :
    s.change (.fixNow u) = .error (.argument "now" .alreadyFixed) := by
  rw [change_fixNow, h]
  rfl

theorem change_fixNow_of_none {s : Settings} (h : s.now = none) (t : Instant) :
    s.change (.fixNow t) =
      if t.InRange then .ok { s with now := some t }
      else .error (.argument "now" (.outsideRange t)) := by
  rw [change_fixNow, h]
  rfl

/-- A package that is asked for by its path is imported. -/
theorem change_require (s : Settings) (q : Package) :
    s.change (.require q.path) = .ok (s.addImport q) := by
  rw [change, q.ofPath_path]
  rfl

/-- Packages that are asked for by their paths are imported. -/
theorem change_requireAll (s : Settings) (qs : List Package) :
    s.change (.requireAll (qs.map Package.path)) = .ok (s.addImports qs) := by
  rw [change, Package.mapM_ofPath_map_path]
  rfl

/-- **What a change leaves.** -/
theorem attempt_eq (s : Settings) (c : Change) :
    s.attempt c =
      { policy := s.policy
        now := s.now.or (c.instant?.filter fun t => t.InRange)
        imports := addPackages s.imports c.added } := by
  cases c with
  | fixNow t =>
      obtain ⟨policy, now, imports⟩ := s
      have hadded : (Change.fixNow t).added = [] := rfl
      rw [attempt, change_fixNow, hadded, addPackages, List.foldl_nil, Change.instant?]
      cases now with
      | some u => rfl
      | none => by_cases ht : t.InRange <;> simp [ht, Option.filter_some]
  | require path =>
      simp only [attempt, change, Change.added, Change.paths, Change.instant?, List.mapM_cons,
        List.mapM_nil]
      cases Package.ofPath path with
      | error e => simp [Except.map, addPackages]
      | ok q => simp [Except.map, addPackages, addImport_eq]
  | requireAll paths =>
      simp only [attempt, change, Change.added, Change.paths, Change.instant?]
      cases paths.mapM Package.ofPath with
      | error e => simp [Except.map, addPackages]
      | ok qs => simp [Except.map, addImports_eq]

/-! ### Any changes -/

/-- The first instant in range comes from the first change or from the others. -/
theorem find?_instants_cons (c : Change) (cs : List Change) :
    (((c :: cs).filterMap Change.instant?).find? fun t => t.InRange) =
      (c.instant?.filter fun t => t.InRange).or
        ((cs.filterMap Change.instant?).find? fun t => t.InRange) := by
  rw [List.filterMap_cons]
  cases c.instant? with
  | none => rfl
  | some t => by_cases ht : t.InRange <;> simp [ht, Option.filter_some]

/-- **What any changes leave.** -/
theorem attempts_eq (s : Settings) (cs : List Change) :
    s.attempts cs =
      { policy := s.policy
        now := s.now.or ((cs.filterMap Change.instant?).find? fun t => t.InRange)
        imports := addPackages s.imports (cs.flatMap Change.added) } := by
  induction cs generalizing s with
  | nil => simp [addPackages]
  | cons c cs ih =>
      rw [attempts_cons, ih, attempt_eq, find?_instants_cons, Option.or_assoc, addPackages,
        addPackages, ← List.foldl_append]
      rfl

/-- Packages that are imported stay, in front of the ones that changes add. -/
theorem imports_prefix_attempts (s : Settings) (cs : List Change) :
    s.imports <+: (s.attempts cs).imports := by
  rw [attempts_eq]
  exact prefix_addPackages s.imports (cs.flatMap Change.added)

/-! ### A policy and changes -/

/-- Settings are what changes make of a policy; some of the changes may have failed. -/
structure Records (p : Policy) (cs : List Change) (s : Settings) : Prop where
  /-- The policy stays. -/
  policy : s.policy = p
  /-- The present is the first instant in range that was asked for. -/
  now : s.now = (cs.filterMap Change.instant?).find? fun t => t.InRange
  /-- Once fixed, the present stays whatever is tried, and fixing it fails. -/
  fixed : ∀ t, s.now = some t → ∀ ds, (s.attempts ds).now = some t ∧
    ∀ u, (s.attempts ds).change (.fixNow u) = .error (.argument "now" .alreadyFixed)
  /-- Until then it can be fixed to any instant in range, and to no other. -/
  free : s.now = none → ∀ t, s.change (.fixNow t) =
    if t.InRange then .ok { s with now := some t } else .error (.argument "now" (.outsideRange t))
  /-- The imports are the packages that were added, each in the place where it was first. -/
  imports : s.imports.map Package.path =
    ((cs.flatMap Change.added).map Package.path).eraseDups
  /-- Imports stay, in front of those that any further changes add. -/
  kept : ∀ ds, s.imports <+: (s.attempts ds).imports
  /-- Their paths are made of identifiers. -/
  isPath : ∀ q ∈ s.imports, Package.IsPath q.path
  /-- A package may be added as such or by its path: both are the same. -/
  added : ∀ q : Package, s.change (.require q.path) = .ok (s.addImport q)
  /-- So may several. -/
  addedAll : ∀ qs : List Package,
    s.change (.requireAll (qs.map Package.path)) = .ok (s.addImports qs)

/-- **The present is fixed once and packages are only ever added, whatever is tried.** -/
theorem records_attempts (p : Policy) (cs : List Change) :
    Records p cs ((ofPolicy p).attempts cs) where
  policy := by rw [attempts_eq, ofPolicy]
  now := by rw [attempts_eq, ofPolicy, Option.none_or]
  fixed t ht ds := by
    have hnow : (((ofPolicy p).attempts cs).attempts ds).now = some t := by
      rw [attempts_eq _ ds, ht, Option.some_or]
    exact ⟨hnow, change_fixNow_of_some hnow⟩
  free := change_fixNow_of_none
  imports := by
    have hnone : (ofPolicy p).imports.map Package.path = ([] : List String).eraseDups := rfl
    rw [attempts_eq]
    exact map_path_addPackages hnone (cs.flatMap Change.added)
  kept := imports_prefix_attempts _
  isPath q _ := (isPackagePath_iff q.path).1 q.isPackagePath_path
  added := change_require _
  addedAll := change_requireAll _

-- changes that fail leave nothing behind, and an import stays in its first place
example :
    let s := standard.attempts [.fixNow ⟨9246182400, 0, by decide⟩, .require "not a path",
      .require "strings", .fixNow ⟨60, 0, by decide⟩, .fixNow ⟨0, 0, by decide⟩,
      .requireAll ["date", "strings"]]
    s.now = some ⟨60, 0, by decide⟩ ∧ s.imports = [.strings, .date] := by
  decide

end Settings

end BoundQuery
