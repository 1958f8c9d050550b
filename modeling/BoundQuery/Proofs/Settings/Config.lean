/-
**Settings from a configuration, as changes of a policy.**

A configuration asks for what changes of the settings ask for, and gives the settings that these
changes leave, unless one of them would fail: then it is refused as a whole.  A text that is no
configuration is refused with an error about the configuration, and so is one with a text that is no
path of a package; a present that is out of range is refused like the argument of a change.

Main definitions:

* `BoundQuery.Config.changes` — the changes that a configuration asks for;
* `BoundQuery.Config.refusal?` — why a configuration is refused;
* `BoundQuery.Error.isConfiguration` — an error is about the configuration.

Main results:

* `BoundQuery.Config.settings_eq` — the settings of a configuration, or why it has none;
* `BoundQuery.Config.settings_eq_ok_iff` — **a configuration gives what its changes leave**, if the
  present is in range and all paths are paths;
* `BoundQuery.Settings.changed_and_configured` — both ways to settings;
* `BoundQuery.Settings.ofText_refused_iff` — **what a configuration text is refused for**;
* `BoundQuery.Settings.late_present_refused` — a present out of range, which is not reported as an
  error about the configuration.
-/

import BoundQuery.Proofs.Settings.Changes
import BoundQuery.Settings.Config

set_option relaxedAutoImplicit false
set_option autoImplicit false

namespace BoundQuery

/-- An error is about the configuration. -/
def Error.isConfiguration : Error → Bool
  | configuration => true
  | configuredImport _ => true
  | _ => false

namespace Config

/-- The changes that a configuration asks for: the present first, then the imports in order. -/
def changes (c : Config) : List Change :=
  c.now.toList.map .fixNow ++ c.imports.map .require

/-- Why a configuration is refused: for its present, else for the first text that is no path. -/
def refusal? (c : Config) : Option Error :=
  ((c.now.filter fun t => !decide t.InRange).map fun t => .argument "now" (.outsideRange t)).or
    ((c.imports.find? fun path => !isPackagePath path).map .configuredImport)

/-- Imports one after the other are changes, up to the first text that is no path. -/
theorem importPaths_eq (s : Settings) (paths : List String) :
    importPaths s paths =
      match paths.find? fun path => !isPackagePath path with
      | some path => .error (.configuredImport path)
      | none => .ok (s.attempts (paths.map .require)) := by
  induction paths generalizing s with
  | nil => rfl
  | cons path paths ih =>
      rw [importPaths, List.find?_cons]
      by_cases hpath : isPackagePath path = true
      · have hq : Package.ofPath path = .ok ⟨path, hpath⟩ := dif_pos hpath
        have hattempt : s.attempt (.require path) = s.addImport ⟨path, hpath⟩ := by
          rw [Settings.attempt, s.change_require ⟨path, hpath⟩]
        simp only [hq, hpath, Bool.not_true, List.map_cons, Settings.attempts_cons, hattempt]
        exact ih _
      · have hq : Package.ofPath path = .error (.argument "package" (.notPackagePath path)) :=
          dif_neg hpath
        simp only [hq, hpath, Bool.not_false]

/-- The present can be fixed if nothing else was said. -/
theorem fixNow_ofPolicy (p : Policy) (t : Instant) :
    (Settings.ofPolicy p).fixNow t =
      if t.InRange then .ok ((Settings.ofPolicy p).attempt (.fixNow t))
      else .error (.argument "now" (.outsideRange t)) := by
  have hchange := Settings.change_fixNow_of_none (s := Settings.ofPolicy p) rfl t
  rw [Settings.attempt, hchange]
  refine hchange.trans ?_
  by_cases ht : t.InRange
  · rw [if_pos ht, if_pos ht]
  · rw [if_neg ht, if_neg ht]

/-- **The settings of a configuration, or why it has none.** -/
theorem settings_eq (c : Config) :
    c.settings =
      match c.refusal? with
      | some e => .error e
      | none => .ok ((Settings.ofPolicy c.policy).attempts c.changes) := by
  obtain ⟨policy, now, imports⟩ := c
  cases now with
  | none =>
      simp only [settings, refusal?, changes]
      refine (importPaths_eq _ imports).trans ?_
      cases imports.find? fun path => !isPackagePath path <;> rfl
  | some t =>
      simp only [settings, refusal?, changes, fixNow_ofPolicy]
      by_cases ht : t.InRange
      · simp only [Option.filter_some, ht]
        refine (importPaths_eq _ imports).trans ?_
        cases imports.find? fun path => !isPackagePath path <;> rfl
      · simp only [Option.filter_some, ht]
        rfl

theorem refusal?_eq_none_iff (c : Config) :
    c.refusal? = none ↔
      (∀ t, c.now = some t → t.InRange) ∧ ∀ path ∈ c.imports, Package.IsPath path := by
  simp [refusal?, Option.or_eq_none_iff, isPackagePath_iff]

/-- **A configuration gives what its changes leave**, if the present is in range and all paths are
paths; else it gives nothing. -/
theorem settings_eq_ok_iff (c : Config) (s : Settings) :
    c.settings = .ok s ↔
      (∀ t, c.now = some t → t.InRange) ∧ (∀ path ∈ c.imports, Package.IsPath path) ∧
        s = (Settings.ofPolicy c.policy).attempts c.changes := by
  rw [← and_assoc, ← refusal?_eq_none_iff, settings_eq]
  cases c.refusal? with
  | none => simp [eq_comm]
  | some e => simp

/-- A configuration is refused for its present, and else for the first text that is no path. -/
theorem settings_eq_error_iff (c : Config) (e : Error) :
    c.settings = .error e ↔
      (∃ t, c.now = some t ∧ ¬t.InRange ∧ e = .argument "now" (.outsideRange t)) ∨
        (∀ t, c.now = some t → t.InRange) ∧
          ∃ path, (c.imports.find? fun path => !isPackagePath path) = some path ∧
            e = .configuredImport path := by
  have hrefusal : c.settings = .error e ↔ c.refusal? = some e := by
    rw [settings_eq]
    cases c.refusal? <;> simp
  rw [hrefusal, refusal?, Option.or_eq_some_iff]
  simp only [Option.map_eq_some_iff, Option.map_eq_none_iff, Option.filter_eq_some_iff,
    Option.filter_eq_none_iff, Bool.not_eq_true', decide_eq_false_iff_not, Classical.not_not,
    and_assoc, eq_comm (b := e)]

end Config

namespace Settings

/-- **Both ways to settings.**  Whatever changes of a policy are tried, the present is fixed once
and packages are only ever added; and a configuration gives settings if and only if its present is
in range and all its paths are paths, namely those that its changes leave. -/
theorem changed_and_configured :
    (∀ (p : Policy) (cs : List Change), Records p cs ((ofPolicy p).attempts cs)) ∧
      ∀ (c : Config) (s : Settings), c.settings = .ok s ↔
        (∀ t, c.now = some t → t.InRange) ∧ (∀ path ∈ c.imports, Package.IsPath path) ∧
          s = (ofPolicy c.policy).attempts c.changes :=
  ⟨records_attempts, Config.settings_eq_ok_iff⟩

/-! ### Configuration texts -/

/-- What a configuration text is refused for. -/
inductive Refused (s : String) : Error → Prop
  /-- It is no configuration: it breaks the rules of such texts, or of the policy, or of the
  present, or it gives another name. -/
  | text (h : ∀ c, Config.ofText s ≠ .ok c) : Refused s .configuration
  /-- Its present is out of range. -/
  | present {c : Config} {t : Instant} (h : Config.ofText s = .ok c) (hnow : c.now = some t)
      (ht : ¬t.InRange) : Refused s (.argument "now" (.outsideRange t))
  /-- It imports a text that is no path; this is the first one. -/
  | imports {c : Config} {path : String} (h : Config.ofText s = .ok c)
      (hnow : ∀ t, c.now = some t → t.InRange)
      (hpath : (c.imports.find? fun path => !isPackagePath path) = some path) :
      Refused s (.configuredImport path)

theorem ofText_of_config {s : String} {c : Config} (h : Config.ofText s = .ok c) :
    ofText s = c.settings := by
  rw [ofText, h]
  rfl

theorem ofText_of_no_config {s : String} (h : ∀ c, Config.ofText s ≠ .ok c) :
    ofText s = .error .configuration := by
  cases hc : (Document.read s.toList).bind Config.ofEntries? with
  | none => rw [ofText, Config.ofText, hc]; rfl
  | some c => exact absurd (by rw [Config.ofText, hc]) (h c)

/-- A text is refused for what is said of it. -/
theorem ofText_eq_error_iff (s : String) (e : Error) : ofText s = .error e ↔ Refused s e := by
  constructor
  · intro h
    by_cases hconfig : ∃ c, Config.ofText s = .ok c
    · obtain ⟨c, hc⟩ := hconfig
      rw [ofText_of_config hc, Config.settings_eq_error_iff] at h
      obtain ⟨t, hnow, ht, rfl⟩ | ⟨hnow, path, hpath, rfl⟩ := h
      · exact .present hc hnow ht
      · exact .imports hc hnow hpath
    · rw [not_exists] at hconfig
      rw [ofText_of_no_config hconfig] at h
      cases h
      exact .text hconfig
  · intro h
    cases h with
    | text h => exact ofText_of_no_config h
    | present h hnow ht =>
        rw [ofText_of_config h, Config.settings_eq_error_iff]
        exact .inl ⟨_, hnow, ht, rfl⟩
    | imports h hnow hpath =>
        rw [ofText_of_config h, Config.settings_eq_error_iff]
        exact .inr ⟨hnow, _, hpath, rfl⟩

/-- **What a configuration text is refused for**, also as the contents of a file.  The error is
about the configuration, except if the text is a configuration with a present out of range. -/
theorem ofText_refused_iff (s : String) :
    ofFile (some s) = ofText s ∧ (∀ e, ofText s = .error e ↔ Refused s e) ∧
      ((∃ e, ofText s = .error e ∧ e.isConfiguration = false) ↔
        ∃ c t, Config.ofText s = .ok c ∧ c.now = some t ∧ ¬t.InRange) := by
  refine ⟨rfl, ofText_eq_error_iff s, ?_, ?_⟩
  · rintro ⟨e, he, hkind⟩
    cases (ofText_eq_error_iff s e).1 he with
    | text => cases hkind
    | present h hnow ht => exact ⟨_, _, h, hnow, ht⟩
    | imports => cases hkind
  · rintro ⟨c, t, h, hnow, ht⟩
    exact ⟨_, (ofText_eq_error_iff s _).2 (.present h hnow ht), rfl⟩

/-- A present in the year after the last one of the range is not reported as an error about the
configuration. -/
theorem late_present_refused :
    ∃ e, ofText "now = \"2263-01-01T00:00:00Z\"" = .error e ∧ e.isConfiguration = false :=
  ⟨.argument "now" (.outsideRange ⟨9246182400, 0, by decide⟩), by rfl, rfl⟩

end Settings

end BoundQuery
