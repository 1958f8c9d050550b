/-
**Sessions in use.**

A caller begins with the settings of a policy or of a configuration, changes them, binds values and
writes predicates and stages, in any order, and goes on where something fails.  Whatever is done,
every value in the session has a literal.  So no instant out of range gets into it: whoever brings
one is told so, and what is refused by itself leaves the session as it was.

Main definitions:

* `BoundQuery.Settings.Initial` — the settings that a caller can begin with;
* `BoundQuery.Use`, `BoundQuery.Session.use` — what a caller can do with a session;
* `BoundQuery.Session.InRange`, `BoundQuery.Session.HasLiterals` — every instant in a session is in
  range, and every value has a literal.

Main results:

* `BoundQuery.Session.HasLiterals.use`, `BoundQuery.Session.HasLiterals.uses` — whatever is done
  with a session, its values have literals;
* `BoundQuery.Session.exists_of_add`, `BoundQuery.Session.exists_of_use` — a stage with an instant
  out of range fails, and so does everything else that brings one;
* `BoundQuery.Session.inRange_of_uses` — **every instant in a session is in range, and one that is
  not is refused**.
-/

import BoundQuery.Proofs.Binding.Calls
import BoundQuery.Proofs.Pipeline.Instants
import BoundQuery.Settings.Config

set_option relaxedAutoImplicit false
set_option autoImplicit false

namespace BoundQuery

/-! ### Settings to begin with -/

namespace Settings

/-- The settings that a caller can begin with: those of a policy, of a configuration, and of a
configuration file. -/
inductive Initial : Settings → Prop where
  | ofPolicy (p : Policy) : Initial (.ofPolicy p)
  | ofConfig {c : Config} {s : Settings} (h : c.settings = .ok s) : Initial s
  | ofFile {contents : Option String} {s : Settings} (h : Settings.ofFile contents = .ok s) :
      Initial s

theorem nowHasLiteral_ofPolicy (p : Policy) : (ofPolicy p).NowHasLiteral := nofun

/-- Imports leave the present as it is. -/
theorem NowHasLiteral.importPaths {paths : List String} {s s' : Settings} (hs : s.NowHasLiteral)
    (h : Config.importPaths s paths = .ok s') : s'.NowHasLiteral := by
  induction paths generalizing s with
  | nil =>
      cases h
      exact hs
  | cons path paths ih =>
      rw [Config.importPaths] at h
      split at h
      · refine ih ?_ h
        rw [addImport_eq]
        exact hs
      · cases h

/-- The present of a configuration has a literal. -/
theorem nowHasLiteral_of_config {c : Config} {s : Settings} (h : c.settings = .ok s) :
    s.NowHasLiteral := by
  unfold Config.settings at h
  cases hc : c.now with
  | none =>
      rw [hc] at h
      exact (nowHasLiteral_ofPolicy c.policy).importPaths h
  | some t =>
      rw [hc] at h
      change (do Config.importPaths (← (ofPolicy c.policy).fixNow t) c.imports) = .ok s at h
      cases hnow : (ofPolicy c.policy).fixNow t with
      | error e =>
          rw [hnow] at h
          cases h
      | ok s₁ =>
          rw [hnow] at h
          have hchange : (ofPolicy c.policy).change (.fixNow t) = .ok s₁ := hnow
          exact ((nowHasLiteral_ofPolicy c.policy).change hchange).importPaths h

theorem Initial.nowHasLiteral {s : Settings} (h : s.Initial) : s.NowHasLiteral := by
  cases h with
  | ofPolicy p => exact nowHasLiteral_ofPolicy p
  | ofConfig h => exact nowHasLiteral_of_config h
  | @ofFile contents s h =>
      cases contents with
      | none => cases h
      | some text =>
          rw [Settings.ofFile, Settings.ofText] at h
          cases hconfig : Config.ofText text with
          | error e =>
              rw [hconfig] at h
              cases h
          | ok c =>
              rw [hconfig] at h
              exact nowHasLiteral_of_config h

end Settings

/-! ### What callers do -/

/-- What a caller can do with a session: change the settings, bind values, write an end of a range,
a time zone, a column or a predicate, and add a stage. -/
inductive Use where
  | change (c : Change)
  | call (c : Table.Call)
  | bound (label : String) (b : Bound)
  | location (l : Location)
  | column (c : Column)
  | predicate (p : Predicate)
  | stage (st : Stage)

/-- The instants that a caller brings. -/
def Use.instants : Use → List Instant
  | change c => c.instant?.toList
  | call (.bind _ g) => g.instant?.toList
  | call (.bindValue _ v) => v.instant?.toList
  | call (.bindTemplate _ t) => t.instants
  | bound _ b => b.instant?.toList
  | predicate p => p.instants
  | stage st => st.instants
  | _ => []

namespace Session

/-- The result of a step that leaves nothing behind where it fails. -/
def orElse (s : Session) : Except Error Session → Session × Option Error
  | .ok s' => (s', none)
  | .error e => (s, some e)

/-- The session after a caller has used it, and the error if there is one. -/
def use (s : Session) : Use → Session × Option Error
  | .change c => s.orElse (s.changed [c])
  | .call c => s.performBlock c.block
  | .bound label b => s.performBlock (b.block label)
  | .location l => s.performBlock l.block
  | .column c => s.performBlock c.block
  | .predicate p => s.run p.plan
  | .stage st => s.orElse (s.add st)

/-- The session after a caller has used it several times, with success or without. -/
def uses (s : Session) (us : List Use) : Session := us.foldl (fun s u => (s.use u).1) s

/-- Every instant in a session is in range: those in the table, those that are written, by their
literals or by references, and the present. -/
structure InRange (s : Session) : Prop where
  entries : ∀ name t, (name, .instant t) ∈ s.table.entries → t.InRange
  written : ∀ name t, .place name (.instant t) ∈ s.output → t.InRange
  now : ∀ t ∈ s.settings.now, t.InRange

/-- Every value in a session has a literal: those of the table, those that are written, and the
present. -/
structure HasLiterals (s : Session) : Prop where
  table : s.table.Sound
  written : ∀ name v, .place name v ∈ s.output → v.HasLiteral
  now : s.settings.NowHasLiteral

namespace HasLiterals

variable {s s' : Session}

theorem ofSettings {settings : Settings} (h : settings.Initial) :
    (Session.ofSettings settings).HasLiterals where
  table := .empty settings.policy
  written := nofun
  now := h.nowHasLiteral

theorem after (h : s.HasLiterals) {b : Block} (hb : Clean b) : (s.after b).HasLiterals where
  table := h.table.after hb
  written name v hv := by
    rcases List.mem_append.1 hv with hv | hv
    · exact h.written name v hv
    · obtain ⟨⟨label, hslot⟩, -⟩ := slot_of_mem_fill hv
      obtain ⟨a, ha, hmark⟩ := List.mem_flatMap.1 hslot
      exact (Action.held_of_error?_eq_none (hb a ha) hmark rfl).2
  now := h.now

theorem perform (h : s.HasLiterals) (b : Block) : (s.perform b).1.HasLiterals := by
  rw [perform_eq h.table.numbered]
  exact h.after (clean_takeWhile b)

/-- A block that fails leaves the output as it was. -/
theorem performBlock (h : s.HasLiterals) (b : Block) : (s.performBlock b).1.HasLiterals := by
  have hperform := h.perform b
  unfold Session.performBlock
  split
  · next heq =>
      rw [heq] at hperform
      exact hperform
  · next heq =>
      rw [heq] at hperform
      exact ⟨hperform.table, h.written, hperform.now⟩

theorem run (h : s.HasLiterals) (plan : Plan) : (s.run plan).1.HasLiterals := by
  induction plan generalizing s with
  | nil => exact h
  | cons b plan ih =>
      have hblock := h.performBlock b
      rw [Session.run]
      split
      · next heq =>
          rw [heq] at hblock
          exact ih hblock
      · next heq =>
          rw [heq] at hblock
          exact hblock

theorem of_adds (h : s.HasLiterals) {f : Stage.Form} (hadds : s.Adds f s') : s'.HasLiterals := by
  cases hadds with
  | source _ hclean => exact h.after hclean
  | piped hclean => exact h.after hclean
  | silent hfold => exact ⟨h.table, h.written, h.now.foldlM hfold⟩

theorem orElse (h : s.HasLiterals) {r : Except Error Session}
    (hr : ∀ s', r = .ok s' → s'.HasLiterals) : (s.orElse r).1.HasLiterals := by
  cases r with
  | ok s' => exact hr s' rfl
  | error e => exact h

/-- **Whatever a caller does with a session, its values have literals**, whether it succeeds or
not. -/
theorem use (h : s.HasLiterals) (u : Use) : (s.use u).1.HasLiterals := by
  -- changes and stages are the forms of stages, and everything else is made of blocks
  have hform : ∀ f s', s.addForm f = .ok s' → s'.HasLiterals := fun f s' hadd =>
    h.of_adds (adds_of_addForm h.table.numbered hadd)
  cases u with
  | change c => exact h.orElse (hform (.silent [c]))
  | call c => exact h.performBlock c.block
  | bound label b => exact h.performBlock (b.block label)
  | location l => exact h.performBlock l.block
  | column c => exact h.performBlock c.block
  | predicate p => exact h.run p.plan
  | stage st => exact h.orElse (hform st.form)

theorem uses (h : s.HasLiterals) (us : List Use) : (s.uses us).HasLiterals := by
  induction us generalizing s with
  | nil => exact h
  | cons u us ih => exact ih (h.use u)

theorem inRange (h : s.HasLiterals) : s.InRange where
  entries _ _ hmem := h.table.hasLiteral _ hmem
  written name _ hmem := h.written name _ hmem
  now := h.now

end HasLiterals

/-! ### What callers are refused -/

variable {s : Session} {t : Instant}

theorem exists_of_orElse_error {r : Except Error Session} (h : ∃ e, r = .error e) :
    ∃ e, s.orElse r = (s, some e) := by
  obtain ⟨e, rfl⟩ := h
  exact ⟨e, rfl⟩

theorem exists_of_complete {b : Block} (hb : ¬Clean b) : ∃ e, s.complete b = .error e := by
  obtain ⟨e, he⟩ := exists_findSome?_of_not_clean hb
  have herror := perform_error s b
  rw [he] at herror
  refine ⟨e, ?_⟩
  unfold complete
  split
  · next heq =>
      rw [heq] at herror
      cases herror
  · next heq =>
      rw [heq] at herror
      cases herror
      rfl

/-- A stage behind a pipe with an action that fails is refused. -/
theorem exists_of_addForm_piped {b : Block} (hb : ¬Clean b) :
    ∃ e, s.addForm (.piped b) = .error e :=
  exists_of_complete fun hclean => hb hclean.tail

/-- **A stage with an instant out of range fails.** -/
theorem exists_of_add {stage : Stage} (hmem : t ∈ stage.instants) (ht : ¬t.InRange) :
    ∃ e, s.add stage = .error e := by
  have hsource : ∀ argument b, t ∈ placedInstants b →
      ∃ e, s.addForm (.source argument b) = .error e := by
    intro argument b hb
    rw [addForm]
    split
    · exact exists_of_complete (not_clean_of_mem_placedInstants hb ht)
    · exact ⟨_, rfl⟩
  have hpiped : ∀ b, t ∈ placedInstants b → ∃ e, s.addForm (.piped b) = .error e := fun b hb =>
    exists_of_addForm_piped (not_clean_of_mem_placedInstants hb ht)
  cases stage with
  | templateSource u => exact hsource _ _ (by simpa [Stage.instants] using hmem)
  | scriptSource steps => exact hsource _ _ (by simpa [Stage.instants] using hmem)
  | range start stop =>
      refine hpiped _ ?_
      cases stop <;> simpa [Stage.instants, Stage.rangeBlock] using hmem
  | filter p =>
      refine hpiped _ ?_
      simpa [Stage.instants, Predicate.placedInstants_plan] using hmem
  | configure changes =>
      obtain ⟨e, he⟩ := Settings.exists_of_foldlM_change hmem ht s.settings
      refine ⟨e, ?_⟩
      simp only [add, Stage.form, addForm, changed, he, Except.map]
  | _ => cases hmem

/-- **Whoever brings an instant out of range is told so.** -/
theorem exists_of_use {u : Use} (hmem : t ∈ u.instants) (ht : ¬t.InRange) :
    ∃ e, (s.use u).2 = some e := by
  have hblock : ∀ b, t ∈ placedInstants b → ∃ e, (s.performBlock b).2 = some e := by
    intro b hb
    rw [performBlock_error]
    exact exists_findSome?_of_not_clean (not_clean_of_mem_placedInstants hb ht)
  have hstage : ∀ stage : Stage, t ∈ stage.instants → ∃ e, (s.orElse (s.add stage)).2 = some e := by
    intro stage hstage
    obtain ⟨e, he⟩ := exists_of_orElse_error (s := s) (exists_of_add hstage ht)
    exact ⟨e, congrArg Prod.snd he⟩
  cases u with
  | change c =>
      refine hstage (.configure [c]) ?_
      cases c with
      | fixNow u => exact hmem
      | _ => cases hmem
  | call c =>
      refine hblock _ ?_
      cases c <;> simpa [Table.Call.block, Use.instants] using hmem
  | bound label b => exact hblock _ (by simpa [Use.instants] using hmem)
  | predicate p =>
      have hplan : t ∈ placedInstants p.plan.flatten := by
        rw [p.placedInstants_plan]
        exact hmem
      rw [use, run_error]
      exact exists_findSome?_of_not_clean (not_clean_of_mem_placedInstants hplan ht)
  | stage st => exact hstage st hmem
  | location l => cases hmem
  | column c => cases hmem

/-- A predicate in which a side of a comparison is made of an instant out of range fails, and so
does the filter by it. -/
theorem exists_of_operand {p : Predicate} {g : Given} (hp : .ofGiven g ∈ p.operands)
    (hg : g.instant? = some t) (ht : ¬t.InRange) :
    (∃ e, (s.use (.predicate p)).2 = some e) ∧ ∃ e, s.use (.stage (.filter p)) = (s, some e) := by
  have hplan := Predicate.not_clean_plan hp hg ht
  constructor
  · rw [use, run_error]
    exact exists_findSome?_of_not_clean hplan
  · refine exists_of_orElse_error (exists_of_addForm_piped fun hclean => hplan fun a ha => ?_)
    exact hclean a (List.mem_cons_of_mem _ (List.mem_append_left _ ha))

/-- An action that is refused by itself leaves the session as it was. -/
theorem performBlock_singleton {a : Action} {e : Error} (ha : a.error? = some e) :
    s.performBlock [a] = (s, some e) := by
  rw [performBlock, perform, act_eq_error_iff.2 ha]

/-- An instant is bound under an identifier exactly if it is in range. -/
theorem use_bindValue_eq_none_iff {label : String} (hlabel : isIdentifier label = true) :
    (s.use (.call (.bindValue label (.instant t)))).2 = none ↔ t.InRange := by
  have herror : (s.use (.call (.bindValue label (.instant t)))).2 =
      bindingError? label (.instant t) := by
    rw [use, performBlock_error, Table.Call.block, List.findSome?_singleton]
    rfl
  rw [herror, bindingError?_eq_none_iff]
  exact ⟨fun h => h.2, fun h => ⟨hlabel, h⟩⟩

/-- A present out of range is refused and leaves the session as it was. -/
theorem use_fixNow (ht : ¬t.InRange) (hnow : s.settings.now = none) :
    s.use (.change (.fixNow t)) = (s, some (.argument "now" (.outsideRange t))) := by
  have hfix : s.settings.fixNow t = .error (.argument "now" (.outsideRange t)) := by
    simp only [Settings.fixNow, hnow, Option.isSome_none, Bool.false_eq_true, if_false,
      t.checked_of_not_inRange ht, Error.renamed]
  simp only [use, changed, List.foldlM_cons, Settings.change, hfix]
  rfl

/-- **No instant out of range gets into a session.**  Whatever a caller does, in any order and with
success or without, every instant in the table, every one that is written and the present are in
range; and those that are can be bound.  Whatever brings one that is not fails, be it a value or a
date.  To bind it by itself under an identifier, to write it as an end of a range and to fix the
present to it is refused by the name it has there and leaves the session as it was, and so does
every stage that has one. -/
theorem inRange_of_uses {settings : Settings} (h : settings.Initial) (us : List Use) :
    ((ofSettings settings).uses us).InRange ∧
    (∀ (s : Session) (t : Instant) (label : String), isIdentifier label = true →
      ((s.use (.call (.bindValue label (.instant t)))).2 = none ↔ t.InRange)) ∧
    ∀ (s : Session) (t : Instant), ¬t.InRange →
      (∀ u : Use, t ∈ u.instants → ∃ e, (s.use u).2 = some e) ∧
      (∀ stage : Stage, t ∈ stage.instants → ∃ e, s.use (.stage stage) = (s, some e)) ∧
      (∀ (p : Predicate) (g : Given), .ofGiven g ∈ p.operands → g.instant? = some t →
        (∃ e, (s.use (.predicate p)).2 = some e) ∧
          ∃ e, s.use (.stage (.filter p)) = (s, some e)) ∧
      (∀ label, isIdentifier label = true →
        (∀ g : Given, g.instant? = some t →
          s.use (.call (.bind label g)) = (s, some (.argument label (.outsideRange t)))) ∧
        s.use (.call (.bindValue label (.instant t))) =
          (s, some (.argument label (.outsideRange t))) ∧
        s.use (.bound label (.absolute t)) = (s, some (.argument label (.outsideRange t)))) ∧
      (s.settings.now = none →
        s.use (.change (.fixNow t)) = (s, some (.argument "now" (.outsideRange t)))) := by
  refine ⟨((HasLiterals.ofSettings h).uses us).inRange,
    fun s t label hlabel => use_bindValue_eq_none_iff hlabel, fun s t ht => ?_⟩
  have hgive : ∀ label (g : Given), g.instant? = some t →
      (Action.give label g).error? = some (.argument label (.outsideRange t)) := by
    intro label g hg
    rw [Action.error?, Given.resolve_of_not_inRange hg ht]
    rfl
  refine ⟨fun u hmem => exists_of_use hmem ht, fun stage hmem => ?_,
    fun p g hp hg => exists_of_operand hp hg ht, fun label hlabel => ?_, use_fixNow ht⟩
  · exact exists_of_orElse_error (exists_of_add hmem ht)
  · refine ⟨fun g hg => performBlock_singleton (hgive label g hg), ?_, ?_⟩
    · exact performBlock_singleton (bindingError?_instant hlabel ht)
    · exact performBlock_singleton (hgive label (.value (.instant t)) rfl)

/-- The beginning of the first day out of range is refused by itself, as the end of a range, behind
a value that is in range, in a template, as a date and as the present. -/
theorem inRange_of_uses_late : ∃ (settings : Settings) (s : Session) (t : Instant),
    (Config.mk .none none []).settings = .ok settings ∧ t = ⟨9223372800, 0, by decide⟩ ∧
    ¬t.InRange ∧
    s = (ofSettings settings).uses [.bound "start" (.absolute t),
      .stage (.range (.absolute ⟨5, 0, by decide⟩) none),
      .call (.bindTemplate "a" ((Template.empty.value (.text "x")).value (.instant t))),
      .call (.bindValue "1" (.instant t)), .change (.fixNow t)] ∧
    s.InRange ∧ s.text = "  |> range(start: 1970-01-01T00:00:05Z)".toList ∧
    s.use (.call (.bind "b" (.value (.instant t)))) =
      (s, some (.argument "b" (.outsideRange t))) ∧
    s.use (.change (.fixNow t)) = (s, some (.argument "now" (.outsideRange t))) ∧
    (∃ e, s.use (.stage (.range .now (some (.absolute t)))) = (s, some e)) ∧
    ∃ e, s.use (.stage (.filter (.all [.fieldIs "f", .compared (.column .time) .less
      (.ofGiven (.date ⟨2262, 4, 12⟩))]))) = (s, some e) := by
  obtain ⟨settings, hsettings⟩ : ∃ settings, (Config.mk .none none []).settings = .ok settings :=
    ⟨_, rfl⟩
  have ht : ¬(⟨9223372800, 0, by decide⟩ : Instant).InRange := by decide
  obtain ⟨hall, -, hrefused⟩ := inRange_of_uses (.ofConfig hsettings) [
    .bound "start" (.absolute ⟨9223372800, 0, by decide⟩),
    .stage (.range (.absolute ⟨5, 0, by decide⟩) none),
    .call (.bindTemplate "a"
      ((Template.empty.value (.text "x")).value (.instant ⟨9223372800, 0, by decide⟩))),
    .call (.bindValue "1" (.instant ⟨9223372800, 0, by decide⟩)),
    .change (.fixNow ⟨9223372800, 0, by decide⟩)]
  cases hsettings
  obtain ⟨-, hstage, hdate, hlabel, hnow⟩ := hrefused _ _ ht
  refine ⟨_, _, _, rfl, rfl, ht, rfl, hall, by decide +kernel, (hlabel "b" (by decide)).1 _ rfl,
    hnow rfl, hstage _ (List.mem_singleton.2 rfl), (hdate _ (.date ⟨2262, 4, 12⟩) ?_ rfl).2⟩
  exact List.mem_append_right _ (List.mem_append_left _ (.tail _ (.head _)))

end Session

end BoundQuery
