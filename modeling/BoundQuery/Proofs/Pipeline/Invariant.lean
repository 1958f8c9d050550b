/-
**What holds of every session that stages have built.**

A stage that succeeds adds a block none of whose actions fails, or it changes the settings.  So the
table of every session stays sound, what the session has written refers to entries of the table
in order, to each of them if no script keeps a value that it does not write, and the present that
is fixed has a literal.

Main definitions:

* `BoundQuery.Piece.entry?` — the entry that a piece refers to;
* `BoundQuery.Session.Adds` — how a stage of a form changes a session when it succeeds;
* `BoundQuery.Session.Sound` — the invariant;
* `BoundQuery.Session.Referred` — every entry is referred to.

Main results:

* `BoundQuery.Session.adds_of_addForm` — what a stage does;
* `BoundQuery.Session.invariant_foldlM`, `BoundQuery.Session.invariant_attempt` — what stages keep
  holds behind a pipeline, whether stages that fail end it or are passed over;
* `BoundQuery.Session.Sound.add` — a stage keeps the invariant;
* `BoundQuery.Session.Referred.add` — an overt stage refers to every entry that it makes.
-/

import BoundQuery.Proofs.Pipeline.PolicyIndependence

set_option relaxedAutoImplicit false
set_option autoImplicit false

namespace BoundQuery

/-! ### Pieces and their entries -/

/-- The entry that a piece refers to. -/
def Piece.entry? : Piece → Option (String × Value)
  | place (some n) v => some (n, v)
  | _ => none

/-- The pieces that a policy makes of marks refer to their entries, in order; an entry is passed
over only if its value is kept without a slot. -/
theorem filterMap_entry?_fill_sublist (p : Policy) (n : Nat) (ms : List Mark) :
    ((fill p n ms).filterMap Piece.entry?).Sublist (bound p n ms) := by
  induction ms generalizing n with
  | nil => exact .slnil
  | cons m ms ih =>
      cases m with
      | fixed t => exact ih n
      | slot label v =>
          by_cases h : p.binds v.kind = true
          · simp only [fill, bound, h, if_true]
            exact (ih (n + 1)).cons_cons _
          · simp only [fill, bound, h, if_false, Bool.false_eq_true]
            exact ih n
      | kept label v =>
          by_cases h : p.binds v.kind = true
          · simp only [fill, bound, h, if_true]
            exact (ih (n + 1)).cons _
          · simp only [fill, bound, h, if_false, Bool.false_eq_true]
            exact ih n

/-- Without values that are kept, the pieces refer to every entry. -/
theorem filterMap_entry?_fill (p : Policy) (n : Nat) {ms : List Mark}
    (hms : ∀ label v, .kept label v ∉ ms) :
    (fill p n ms).filterMap Piece.entry? = bound p n ms := by
  induction ms generalizing n with
  | nil => rfl
  | cons m ms ih =>
      have hrest : ∀ k, (fill p k ms).filterMap Piece.entry? = bound p k ms := fun k =>
        ih k fun label v hmem => hms label v (List.mem_cons_of_mem m hmem)
      cases m with
      | fixed t => exact hrest n
      | slot label v =>
          by_cases h : p.binds v.kind = true
          · simp only [fill, bound, h, if_true]
            rw [← hrest (n + 1)]
            rfl
          · simp only [fill, bound, h, if_false, Bool.false_eq_true]
            exact hrest n
      | kept label v => exact absurd List.mem_cons_self (hms label v)

/-- A place holds the value of a slot, and by its literal it stands only if its kind is not
bound. -/
theorem slot_of_mem_fill {p : Policy} {n : Nat} {ms : List Mark} {name : Option String} {v : Value}
    (h : .place name v ∈ fill p n ms) :
    (∃ label, .slot label v ∈ ms) ∧ (name = none → p.binds v.kind = false) := by
  induction ms generalizing n with
  | nil => cases h
  | cons m ms ih =>
      have hrest : ∀ {k}, .place name v ∈ fill p k ms →
          (∃ label, .slot label v ∈ m :: ms) ∧ (name = none → p.binds v.kind = false) := by
        intro k hk
        obtain ⟨⟨label, hmem⟩, hfree⟩ := ih hk
        exact ⟨⟨label, List.mem_cons_of_mem m hmem⟩, hfree⟩
      cases m with
      | fixed t =>
          rcases List.mem_cons.1 h with h | h
          · cases h
          · exact hrest h
      | slot label w =>
          rw [fill] at h
          split at h
          · rcases List.mem_cons.1 h with h | h
            · cases h
              exact ⟨⟨label, List.mem_cons_self⟩, fun hname => by cases hname⟩
            · exact hrest h
          · next hfree =>
              rcases List.mem_cons.1 h with h | h
              · cases h
                exact ⟨⟨label, List.mem_cons_self⟩, fun _ => Bool.eq_false_iff.2 hfree⟩
              · exact hrest h
      | kept label w =>
          rw [fill] at h
          split at h
          · exact hrest h
          · exact hrest h

/-! ### The present -/

/-- The present, if one is fixed, has a literal. -/
def Settings.NowHasLiteral (s : Settings) : Prop :=
  ∀ t ∈ s.now, (Value.instant t).HasLiteral

namespace Settings

/-- The present is fixed to an instant that can be written, and nothing else changes. -/
theorem exists_of_fixNow {s s' : Settings} {t : Instant} (h : s.fixNow t = .ok s') :
    ∃ u, t.checked = .ok u ∧ s' = { s with now := some u } := by
  unfold fixNow at h
  split at h
  · cases h
  · cases ht : t.checked with
    | error e =>
        rw [ht] at h
        cases h
    | ok u =>
        rw [ht] at h
        cases h
        exact ⟨u, rfl, rfl⟩

theorem NowHasLiteral.change {s s' : Settings} {c : Change} (hs : s.NowHasLiteral)
    (h : s.change c = .ok s') : s'.NowHasLiteral := by
  cases c with
  | fixNow t =>
      obtain ⟨u, ht, rfl⟩ := exists_of_fixNow h
      intro v hv
      cases hv
      have hchecked : (Value.instant t).checked = .ok (.instant u) := by
        rw [Value.checked, ht]
        rfl
      obtain ⟨hliteral, heq⟩ := Value.checked_eq_ok_iff.1 hchecked
      rw [← heq]
      exact hliteral
  | require path =>
      obtain ⟨q, -, rfl⟩ := Template.exists_of_map_eq_ok h
      rw [addImport_eq]
      exact hs
  | requireAll paths =>
      obtain ⟨qs, -, rfl⟩ := Template.exists_of_map_eq_ok h
      rw [addImports_eq]
      exact hs

theorem NowHasLiteral.foldlM {changes : List Change} {s s' : Settings} (hs : s.NowHasLiteral)
    (h : changes.foldlM Settings.change s = .ok s') : s'.NowHasLiteral := by
  induction changes generalizing s with
  | nil =>
      cases h
      exact hs
  | cons c changes ih =>
      obtain ⟨s₁, hc, h⟩ := exists_of_foldlM_cons h
      exact ih (hs.change hc) h

end Settings

namespace Session

variable {s s' : Session} {P : String → Prop}

/-! ### What a stage does -/

/-- How a stage of a form changes a session when it succeeds. -/
inductive Adds (s : Session) : Stage.Form → Session → Prop where
  | source {argument : String} {b : Block} (hempty : s.isEmpty = true) (hclean : Clean b) :
      Adds s (.source argument b) (s.after b)
  | piped {b : Block} (hclean : Clean (.write s.pipe :: b)) :
      Adds s (.piped b) (s.after (.write s.pipe :: b))
  | silent {changes : List Change} {settings : Settings}
      (h : changes.foldlM Settings.change s.settings = .ok settings) :
      Adds s (.silent changes) { s with settings := settings }

theorem eq_of_complete (hs : Numbered P 0 s.table.entries) {b : Block}
    (h : s.complete b = .ok s') : Clean b ∧ s' = s.after b := by
  rw [complete_eq hs] at h
  cases hb : b.findSome? Action.error? with
  | some e =>
      rw [hb] at h
      cases h
  | none =>
      rw [hb] at h
      cases h
      exact ⟨List.findSome?_eq_none_iff.1 hb, rfl⟩

/-- **A stage that succeeds adds a block none of whose actions fails, or changes the settings.** -/
theorem adds_of_addForm (hs : Numbered P 0 s.table.entries) {f : Stage.Form}
    (h : s.addForm f = .ok s') : s.Adds f s' := by
  cases f with
  | source argument b =>
      rw [addForm] at h
      split at h
      · next hempty =>
          obtain ⟨hclean, rfl⟩ := eq_of_complete hs h
          exact .source hempty hclean
      · cases h
  | piped b =>
      obtain ⟨hclean, rfl⟩ := eq_of_complete hs h
      exact .piped hclean
  | silent changes =>
      obtain ⟨settings, hfold, rfl⟩ := Template.exists_of_map_eq_ok h
      exact .silent hfold

/-! ### Pipelines -/

/-- What every stage of a pipeline keeps holds at its end, when none of them fails. -/
theorem invariant_foldlM {I : Session → Prop} {stages : List Stage}
    (hadd : ∀ stage ∈ stages, ∀ {s s' : Session}, I s → s.add stage = .ok s' → I s') (h : I s)
    (hs : stages.foldlM add s = .ok s') : I s' := by
  induction stages generalizing s with
  | nil =>
      cases hs
      exact h
  | cons stage stages ih =>
      obtain ⟨s₁, hstage, hs⟩ := exists_of_foldlM_cons hs
      have hrest : ∀ stage ∈ stages, ∀ {s s' : Session}, I s → s.add stage = .ok s' → I s' :=
        fun stage' hmem => hadd stage' (List.mem_cons_of_mem stage hmem)
      exact ih hrest (hadd stage List.mem_cons_self h hstage) hs

/-- What every stage of a pipeline keeps holds at its end, when those that fail are passed over. -/
theorem invariant_attempt {I : Session → Prop} {stages : List Stage}
    (hadd : ∀ stage ∈ stages, ∀ {s s' : Session}, I s → s.add stage = .ok s' → I s') (h : I s) :
    I (s.attempt stages).1 := by
  induction stages generalizing s with
  | nil => exact h
  | cons stage stages ih =>
      have hrest : ∀ stage ∈ stages, ∀ {s s' : Session}, I s → s.add stage = .ok s' → I s' :=
        fun stage' hmem => hadd stage' (List.mem_cons_of_mem stage hmem)
      rw [attempt]
      cases hstage : s.add stage with
      | error e => exact ih hrest h
      | ok s₁ => exact ih hrest (hadd stage List.mem_cons_self h hstage)

/-! ### The invariant -/

/-- The table is sound; what is written refers to entries of the table, to none of them twice
and in order; and a value that stands by its literal is of a kind that is not bound. -/
structure Sound (s : Session) : Prop where
  table : s.table.Sound
  refers : (s.output.filterMap Piece.entry?).Sublist s.table.entries
  free : ∀ v, .place none v ∈ s.output → s.table.policy.binds v.kind = false

namespace Sound

theorem ofSettings (settings : Settings) : (Session.ofSettings settings).Sound where
  table := .empty settings.policy
  refers := .slnil
  free v hv := by cases hv

theorem after (h : s.Sound) {b : Block} (hb : Clean b) : (s.after b).Sound where
  table := h.table.after hb
  refers := by
    rw [Session.after, List.filterMap_append]
    exact h.refers.append (filterMap_entry?_fill_sublist _ _ _)
  free v hv := by
    rcases List.mem_append.1 hv with hv | hv
    · exact h.free v hv
    · exact (slot_of_mem_fill hv).2 rfl

theorem of_adds (h : s.Sound) {f : Stage.Form} (hadds : s.Adds f s') : s'.Sound := by
  cases hadds with
  | source _ hclean => exact h.after hclean
  | piped hclean => exact h.after hclean
  | silent hfold => exact ⟨h.table, h.refers, h.free⟩

/-- **A stage keeps the invariant.** -/
theorem add (h : s.Sound) {stage : Stage} (hadd : s.add stage = .ok s') : s'.Sound :=
  h.of_adds (adds_of_addForm h.table.numbered hadd)

end Sound

/-! ### Entries that are referred to -/

/-- What is written refers to every entry of the table, once and in order. -/
def Referred (s : Session) : Prop := s.output.filterMap Piece.entry? = s.table.entries

namespace Referred

theorem after (h : s.Referred) {b : Block} (hb : Overt b) : (s.after b).Referred := by
  rw [Referred, Session.after, List.filterMap_append, h, filterMap_entry?_fill _ _ hb.kept_notMem]

theorem of_adds (h : s.Referred) {f : Stage.Form} (hf : Overt f.block) (hadds : s.Adds f s') :
    s'.Referred := by
  cases hadds with
  | source _ _ => exact h.after hf
  | piped _ => exact h.after (hf.write s.pipe)
  | silent _ => exact h

/-- **A stage that keeps nothing without writing it refers to every entry that it makes.** -/
theorem add (h : s.Referred) (hs : s.Sound) {stage : Stage} (hstage : stage.Overt)
    (hadd : s.add stage = .ok s') : s'.Referred :=
  h.of_adds hstage (adds_of_addForm hs.table.numbered hadd)

end Referred

/-- A stage keeps it that the present has a literal. -/
theorem nowHasLiteral_add (h : s.Sound) (hnow : s.settings.NowHasLiteral) {stage : Stage}
    (hadd : s.add stage = .ok s') : s'.settings.NowHasLiteral := by
  have hkeep : ∀ {f : Stage.Form}, s.Adds f s' → s'.settings.NowHasLiteral := by
    intro f hadds
    cases hadds with
    | source _ _ => exact hnow
    | piped _ => exact hnow
    | silent hfold => exact hnow.foldlM hfold
  exact hkeep (adds_of_addForm h.table.numbered hadd)

end Session

end BoundQuery
