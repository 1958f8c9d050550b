/-
**A source comes first.**

A pipeline keeps no record of its stages.  Whether a source may come next is told by the text that
is written: a source is refused unless there is none.  So it is refused exactly when some stage
before it has written something.  Every stage behind a pipe has, and so has the source of a bucket;
a template without parts and a script of empty texts write nothing, and behind these another source
is taken.  A script stands for any function of a caller (`BoundQuery.Session.exists_source`), which
may bind what it likes: all that counts is whether its text is empty.

Main definitions:

* `BoundQuery.Stage.writes` — a stage writes something when it succeeds;
* `BoundQuery.Stage.sourceArgument?` — what is to blame for a source that does not come first;
* `BoundQuery.Session.accepted` — the stages that succeed when those that fail are passed over.

Main results:

* `BoundQuery.Session.foldlM_accepted` — a pipeline with stages that fail is the one without them;
* `BoundQuery.Session.isEmpty_foldlM` — the text is empty as long as no stage writes;
* `BoundQuery.Session.source_refused_iff` — **a source is refused exactly when a stage before it
  has written something**.
-/

import BoundQuery.Proofs.Binding.Closure
import BoundQuery.Proofs.Pipeline.Invariant
import BoundQuery.Proofs.Predicate.Faults

set_option relaxedAutoImplicit false
set_option autoImplicit false

namespace BoundQuery

/-! ### Stages that write -/

/-- A step of a script writes something when it succeeds. -/
def Step.writes : Step → Bool
  | write t => !t.toList.isEmpty
  | keep _ _ => false
  | _ => true

namespace Stage

/-- A stage writes something when it succeeds. -/
def writes : Stage → Bool
  | templateSource t => !t.parts.isEmpty
  | scriptSource s => s.any Step.writes
  | configure _ => false
  | _ => true

/-- What is to blame for a source that does not come first; other stages may follow. -/
def sourceArgument? : Stage → Option String
  | source _ => some "bucket"
  | templateSource _ => some "template"
  | scriptSource _ => some "flux"
  | _ => none

end Stage

/-- A block that does not fail writes nothing. -/
def Mute (b : Block) : Prop := ∀ m ∈ b.flatMap Action.marks, m.isEmpty = true

theorem not_mute_write {t : List Char} {b : Block} (ht : t ≠ []) : ¬Mute (.write t :: b) := by
  intro h
  have hfirst : (Mark.fixed t).isEmpty = true := h _ List.mem_cons_self
  exact ht (List.isEmpty_iff.1 hfirst)

/-- The texts of a template are not empty, so it writes something unless it has no parts. -/
theorem Template.mute_block_iff {t : Template} {label : String} :
    Mute (t.block label) ↔ t.parts = [] := by
  obtain ⟨parts, hnormal⟩ := t
  cases parts with
  | nil => exact iff_of_true (fun m hm => by cases hm) rfl
  | cons part parts =>
      refine iff_of_false (fun h => ?_) (by simp)
      cases part with
      | raw u => exact not_mute_write hnormal.1 h
      | value v => cases h (.slot label v) List.mem_cons_self

/-- A script that does not fail writes nothing if all its steps write empty texts, or none. -/
theorem Script.mute_block_iff {s : Script} (hclean : Clean s.block) :
    Mute s.block ↔ s.any Step.writes = false := by
  induction s with
  | nil => exact iff_of_true (fun m hm => by cases hm) rfl
  | cons step s ih =>
      have hrest := ih hclean.tail
      have hsplit : Mute (block (step :: s)) ↔
          (∀ m ∈ step.action.marks, m.isEmpty = true) ∧ Mute (block s) := List.forall_mem_append
      have hstep : (∀ m ∈ step.action.marks, m.isEmpty = true) ↔ step.writes = false := by
        have haction : step.action.error? = none := hclean _ List.mem_cons_self
        cases step with
        | write t => simp [Step.action, Action.marks, Mark.isEmpty, Step.writes]
        | bindValue label v => simp [Step.action, Action.marks, Mark.isEmpty, Step.writes]
        | giveUp e => cases haction
        | keep label g =>
            refine iff_of_true (fun m hm => ?_) rfl
            obtain ⟨v, rfl, -⟩ := Action.exists_of_mem_marks_keep hm
            rfl
        | bind label g =>
            cases hg : g.resolve with
            | error e =>
                rw [Step.action, Action.error?, hg] at haction
                cases haction
            | ok v => simp [Step.action, Action.marks, hg, Mark.isEmpty, Step.writes]
      rw [hsplit, hrest, hstep, List.any_cons, Bool.or_eq_false_iff]

/-! ### The text after a stage -/

namespace Session

variable {s s' : Session}

theorem isEmpty_after (s : Session) (b : Block) :
    (s.after b).isEmpty = true ↔ s.isEmpty = true ∧ Mute b := by
  have hmarks := piecesText_fill_isEmpty s.table.policy s.table.size (b.flatMap Action.marks)
  rw [isEmpty, isEmpty, text_after, filledText, List.isEmpty_iff, List.append_eq_nil_iff,
    ← List.isEmpty_iff, ← List.isEmpty_iff, hmarks, List.all_eq_true]
  rfl

/-- The text is empty after a stage if it was before, and the stage writes nothing. -/
theorem isEmpty_of_adds {stage : Stage} (h : s.Adds stage.form s') :
    s'.isEmpty = (s.isEmpty && !stage.writes) := by
  have hpipe : s.pipe ≠ [] := by
    unfold pipe
    split <;> simp
  -- behind a pipe there is always text
  have hpiped : ∀ {b : Block} {s' : Session}, s.Adds (.piped b) s' → s'.isEmpty = false := by
    intro b s' hadds
    cases hadds with
    | piped _ =>
        refine Bool.eq_false_iff.2 fun hempty => ?_
        exact not_mute_write hpipe ((isEmpty_after s _).1 hempty).2
  have hsource : ∀ {argument : String} {b : Block} {s' : Session},
      s.Adds (.source argument b) s' →
        Clean b ∧ (s'.isEmpty = true ↔ s.isEmpty = true ∧ Mute b) := by
    intro argument b s' hadds
    cases hadds with
    | source _ hclean => exact ⟨hclean, isEmpty_after s b⟩
  cases stage with
  | source bucket =>
      obtain ⟨-, hempty⟩ := hsource h
      have hmute : ¬Mute (.write "from(bucket: ".toList ::
          [.place "from_bucket" (.text bucket), .write [')']]) := not_mute_write (by decide)
      have hfalse : s'.isEmpty = false := Bool.eq_false_iff.2 fun h' => hmute (hempty.1 h').2
      simp [Stage.writes, hfalse]
  | templateSource t =>
      obtain ⟨-, hempty⟩ := hsource h
      rw [Bool.eq_iff_iff, hempty, Template.mute_block_iff]
      simp [Stage.writes]
  | scriptSource steps =>
      obtain ⟨hclean, hempty⟩ := hsource h
      rw [Bool.eq_iff_iff, hempty, Script.mute_block_iff hclean]
      simp [Stage.writes]
  | configure changes =>
      cases h with
      | silent _ => simp [Stage.writes, isEmpty, text]
  | _ => simp [Stage.writes, hpiped h]

/-! ### Stages that succeed -/

/-- The stages that succeed when those that fail are passed over. -/
def accepted (s : Session) : List Stage → List Stage
  | [] => []
  | stage :: stages =>
      match s.add stage with
      | .ok s' => stage :: s'.accepted stages
      | .error _ => s.accepted stages

/-- **A pipeline with stages that fail is the one without them.** -/
theorem foldlM_accepted (s : Session) (stages : List Stage) :
    (s.accepted stages).foldlM add s = .ok (s.attempt stages).1 := by
  induction stages generalizing s with
  | nil => rfl
  | cons stage stages ih =>
      rw [accepted, attempt]
      cases hadd : s.add stage with
      | error e => exact ih s
      | ok s' =>
          rw [List.foldlM_cons, hadd]
          exact ih s'

theorem mem_of_mem_accepted {stages : List Stage} {stage : Stage} (h : stage ∈ s.accepted stages) :
    stage ∈ stages := by
  induction stages generalizing s with
  | nil => cases h
  | cons first stages ih =>
      rw [accepted] at h
      cases hadd : s.add first with
      | error e =>
          rw [hadd] at h
          exact List.mem_cons_of_mem first (ih h)
      | ok s' =>
          rw [hadd] at h
          rcases List.mem_cons.1 h with rfl | h
          · exact List.mem_cons_self
          · exact List.mem_cons_of_mem first (ih h)

/-- **The text is empty as long as no stage writes.** -/
theorem isEmpty_foldlM {stages : List Stage} (hsound : s.Sound)
    (h : stages.foldlM add s = .ok s') :
    s'.isEmpty = (s.isEmpty && stages.all fun stage => !stage.writes) := by
  induction stages generalizing s with
  | nil =>
      cases h
      simp
  | cons stage stages ih =>
      obtain ⟨s₁, hadd, h⟩ := exists_of_foldlM_cons h
      rw [ih (hsound.add hadd) h, isEmpty_of_adds (adds_of_addForm hsound.table.numbered hadd),
        List.all_cons, Bool.and_assoc]

/-! ### Sources -/

/-- A source behind some text is refused. -/
theorem add_source_of_not_isEmpty {source : Stage} {argument : String}
    (hsource : source.sourceArgument? = some argument) (h : s.isEmpty = false) :
    s.add source = .error (.argument argument .sourceNotFirst) := by
  cases source with
  | source bucket => cases hsource; simp [add, Stage.form, addForm, h]
  | templateSource t => cases hsource; simp [add, Stage.form, addForm, h]
  | scriptSource steps => cases hsource; simp [add, Stage.form, addForm, h]
  | _ => cases hsource

/-- No stage behind some text is a source. -/
theorem sourceArgument?_of_foldlM {stages : List Stage} (hsound : s.Sound)
    (h : s.isEmpty = false) (hs : stages.foldlM add s = .ok s') :
    ∀ stage ∈ stages, stage.sourceArgument? = none := by
  induction stages generalizing s with
  | nil => exact fun stage hstage => by cases hstage
  | cons first stages ih =>
      obtain ⟨s₁, hadd, hs⟩ := exists_of_foldlM_cons hs
      have hempty : s₁.isEmpty = false := by
        rw [isEmpty_of_adds (adds_of_addForm hsound.table.numbered hadd), h, Bool.false_and]
      refine List.forall_mem_cons.2 ⟨?_, ih (hsound.add hadd) hempty hs⟩
      cases hfirst : first.sourceArgument? with
      | none => rfl
      | some argument =>
          rw [add_source_of_not_isEmpty hfirst h] at hadd
          cases hadd

/-- No source stands behind a stage that writes. -/
theorem pairwise_foldlM {stages : List Stage} (hsound : s.Sound)
    (hs : stages.foldlM add s = .ok s') :
    stages.Pairwise fun before behind =>
      before.writes = true → behind.sourceArgument? = none := by
  induction stages generalizing s with
  | nil => exact .nil
  | cons first stages ih =>
      obtain ⟨s₁, hadd, hs⟩ := exists_of_foldlM_cons hs
      refine .cons (fun stage hstage hwrites => ?_) (ih (hsound.add hadd) hs)
      have hempty : s₁.isEmpty = false := by
        rw [isEmpty_of_adds (adds_of_addForm hsound.table.numbered hadd), hwrites]
        simp
      exact sourceArgument?_of_foldlM (hsound.add hadd) hempty hs stage hstage

/-! ### Why a source is refused -/

/-- A value is not refused for the place of a stage. -/
theorem bindingError?_ne {label name : String} {v : Value} :
    bindingError? label v ≠ some (.argument name .sourceNotFirst) := by
  intro h
  obtain ⟨_, heq | ⟨_, heq⟩⟩ := exists_reason_of_bindingError? h
  · cases heq
  · cases heq

/-- Nor is what a caller holds. -/
theorem renamed_resolve_ne {label name : String} {g : Given} {e : Error}
    (hg : g.resolve = .error e) : e.renamed label ≠ .argument name .sourceNotFirst := by
  have hchecked : ∀ {v : Value}, v.checked = .error e →
      e.renamed label ≠ .argument name .sourceNotFirst := by
    intro v hv
    cases v with
    | instant t =>
        rw [Value.checked, Instant.checked] at hv
        split at hv
        · cases hv
        · cases hv
          intro h
          cases h
    | _ => cases hv
  cases g with
  | value v => exact hchecked hg
  | date d => exact hchecked (v := .instant (.midnight d)) hg
  | absent => cases hg; intro h; cases h
  | json j => cases j <;> cases hg <;> intro h <;> cases h

/-- An action is refused for the place of a stage only if it gives up for that reason. -/
theorem error?_ne {a : Action} {name : String}
    (hfail : a ≠ .fail (.argument name .sourceNotFirst)) :
    a.error? ≠ some (.argument name .sourceNotFirst) := by
  intro h
  cases a with
  | write t => cases h
  | keep label g => cases h
  | require p => cases h
  | fail e => exact hfail (congrArg Action.fail (Option.some.inj h))
  | place label v => exact bindingError?_ne h
  | give label g =>
      rw [Action.error?] at h
      cases hg : g.resolve with
      | error e =>
          rw [hg] at h
          exact renamed_resolve_ne hg (Option.some.inj h)
      | ok v =>
          rw [hg] at h
          exact bindingError?_ne h

/-- The reason that a script gives is its own. -/
theorem stated_ne {e : Error} {name : String} : e.stated ≠ .argument name .sourceNotFirst := by
  cases e with
  | argument n reason =>
      intro h
      cases h
  | _ => exact Error.noConfusion

/-- A source that may come first is not refused for its place. -/
theorem add_source_ne {source : Stage} {argument : String}
    (hsource : source.sourceArgument? = some argument) (hempty : s.isEmpty = true) :
    s.add source ≠ .error (.argument argument .sourceNotFirst) := by
  have hcomplete : ∀ b : Block, (∀ a ∈ b, a ≠ .fail (.argument argument .sourceNotFirst)) →
      s.complete b ≠ .error (.argument argument .sourceNotFirst) := by
    intro b hb h
    have herror := perform_error s b
    rw [complete] at h
    split at h
    · cases h
    · next e hperform =>
        cases h
        rw [hperform] at herror
        obtain ⟨a, ha, he⟩ := List.exists_of_findSome?_eq_some herror.symm
        exact error?_ne (hb a ha) he
  cases source with
  | source bucket =>
      simp only [add, Stage.form, addForm, hempty, if_true]
      exact hcomplete _ (by simp)
  | templateSource t =>
      simp only [add, Stage.form, addForm, hempty, if_true]
      refine hcomplete _ fun a ha => ?_
      obtain ⟨part, -, rfl⟩ := List.mem_map.1 ha
      cases part <;> simp [Template.Part.action]
  | scriptSource steps =>
      simp only [add, Stage.form, addForm, hempty, if_true]
      refine hcomplete _ fun a ha => ?_
      obtain ⟨step, -, rfl⟩ := List.mem_map.1 ha
      cases step with
      | giveUp e =>
          intro h
          exact stated_ne (Action.fail.inj h)
      | _ => exact Action.noConfusion
  | _ => cases hsource

/-- **A source is refused exactly when a stage before it has written something.**  So no source
that succeeds stands behind such a stage, whatever the stages between them did; a stage behind a
pipe and the source of a bucket always write, and a template or a script does unless all of it is
empty.  A caller's function is refused alike.  The scripts among the stages stand for such
functions: they may have bound values that they did not write, passed over values that were
refused, or given up. -/
theorem source_refused_iff (settings : Settings) (stages : List Stage) :
    (∀ source argument, source.sourceArgument? = some argument →
      (((ofSettings settings).attempt stages).1.add source =
          .error (.argument argument .sourceNotFirst) ↔
        ∃ stage ∈ (ofSettings settings).accepted stages, stage.writes = true)) ∧
    (∀ f : Closure, ((ofSettings settings).attempt stages).1.addClosure f =
        .error (.argument "flux" .sourceNotFirst) ↔
      ∃ stage ∈ (ofSettings settings).accepted stages, stage.writes = true) ∧
    ((ofSettings settings).accepted stages).Pairwise fun before behind =>
      before.writes = true → behind.sourceArgument? = none := by
  have hfold := (ofSettings settings).foldlM_accepted stages
  have hsound := Sound.ofSettings settings
  have hempty := isEmpty_foldlM hsound hfold
  have hsource : ∀ source argument, source.sourceArgument? = some argument →
      (((ofSettings settings).attempt stages).1.add source =
          .error (.argument argument .sourceNotFirst) ↔
        ∃ stage ∈ (ofSettings settings).accepted stages, stage.writes = true) := by
    intro source argument hsource
    constructor
    · intro hrefused
      by_contra hnone
      have hall :
          ((ofSettings settings).accepted stages).all (fun stage => !stage.writes) = true := by
        simpa using hnone
      rw [hall] at hempty
      exact add_source_ne hsource hempty hrefused
    · rintro ⟨stage, hmem, hwrites⟩
      refine add_source_of_not_isEmpty hsource (hempty.trans (Bool.and_eq_false_iff.2 (Or.inr ?_)))
      exact List.all_eq_false.2 ⟨stage, hmem, by simp [hwrites]⟩
  refine ⟨hsource, fun f => ?_, pairwise_foldlM hsound hfold⟩
  have hattempt : ((ofSettings settings).attempt stages).1.Sound :=
    invariant_attempt (fun _ _ _ _ h hadd => h.add hadd) hsound
  obtain ⟨script, hscript⟩ := exists_source hattempt.table f
  rw [← hscript]
  exact hsource (.scriptSource script) "flux" rfl

/-- A script binds a value in its text; a template comes too late, and a bucket does too. -/
theorem source_refused_iff_script : ∃ (stages : List Stage) (s : Session),
    stages = [.configure [.require "date"], .scriptSource [.write "", .bindValue "b" (.text "x")],
      .templateSource (.literal "from(bucket: \"y\")")] ∧
    s = ((ofSettings .standard).attempt stages).1 ∧ s.text = "params.b_0".toList ∧
    (ofSettings .standard).accepted stages = stages.take 2 ∧
    (Stage.source "z").sourceArgument? = some "bucket" ∧
    s.add (.source "z") = .error (.argument "bucket" .sourceNotFirst) := by
  refine ⟨_, _, rfl, rfl, by decide, rfl, rfl, ?_⟩
  refine ((source_refused_iff _ _).1 _ _ rfl).2 ?_
  exact ⟨.scriptSource [.write "", .bindValue "b" (.text "x")], .tail _ (.head _), rfl⟩

/-- A source that succeeds does not always keep out another one: a template without parts comes
first, and the source of a bucket is taken behind it. -/
theorem source_behind_empty_template : ∃ s s' : Session,
    (ofSettings (.ofPolicy .none)).add (.templateSource (.literal "")) = .ok s ∧
    s.add (.source "b") = .ok s' ∧ s'.text = "from(bucket: \"b\")".toList :=
  ⟨_, _, rfl, rfl, by decide⟩

end Session

end BoundQuery
