/-
**A line for every stage.**

The first stage of a pipeline begins its text, and every other one begins a line of its own.  No
value can add a line or join two of them: no literal has a line break, and a reference is made of
identifiers.  So the lines of the text are those of the stages that succeed, in order; stages that
change the settings have none.

What a stage writes begins and ends with texts of its own, between which all its values stand.

Main definitions:

* `BoundQuery.Stage.head`, `BoundQuery.Stage.opening` — the text with which a stage begins, behind
  its pipe and with it;
* `BoundQuery.Stage.IsLine` — a line of a stage;
* `BoundQuery.Stage.OnOneLine` — no text from outside can have a line break in a stage, but for its
  values;
* `BoundQuery.Session.lines`, `BoundQuery.Session.written` — the lines of the text, and the stages
  that have written something.

Main results:

* `BoundQuery.Session.newline_notMem_blockText` — what a block writes has no line break if its fixed
  texts have none;
* `BoundQuery.Session.isLine_of_adds` — a stage adds a line;
* `BoundQuery.Session.Lined.foldlM` — a pipeline has the lines of its stages;
* `BoundQuery.Session.lines_eq_stages` — **there is a line for every stage**.
-/

import BoundQuery.Proofs.Pipeline.Source
import BoundQuery.Proofs.Pipeline.Texts
import BoundQuery.Proofs.Value.Characters
import Mathlib.Data.List.Basic
import Mathlib.Data.List.Forall2

set_option relaxedAutoImplicit false
set_option autoImplicit false

namespace BoundQuery

/-! ### What a block writes -/

/-- The text of a block that does not fail, in a session. -/
def Session.blockText (s : Session) (b : Block) : List Char :=
  filledText s.table.policy s.table.size (b.flatMap Action.marks)

namespace Session

variable {s : Session} {b : Block}

theorem text_after_eq (s : Session) (b : Block) : (s.after b).text = s.text ++ s.blockText b :=
  s.text_after b

theorem blockText_write (t : List Char) (b : Block) :
    s.blockText (.write t :: b) = t ++ s.blockText b := rfl

/-- What stands at the end of a block is written at the end. -/
theorem suffix_blockText (s : Session) (b : Block) (t : List Char) :
    t <:+ s.blockText (b ++ [.write t]) := by
  unfold blockText
  rw [List.flatMap_append, filledText_append]
  exact ⟨_, congrArg (_ ++ ·) (List.append_nil t).symm⟩

/-- The pieces of marks have no line break, if the fixed ones have none and all labels are
identifiers. -/
theorem newline_notMem_fill {p : Policy} {n : Nat} {ms : List Mark}
    (hfixed : ∀ t, .fixed t ∈ ms → '\n' ∉ t)
    (hslot : ∀ label v, .slot label v ∈ ms → isIdentifier label = true) :
    '\n' ∉ piecesText (fill p n ms) := by
  induction ms generalizing n with
  | nil => exact List.not_mem_nil
  | cons m ms ih =>
      have hrest : ∀ k, '\n' ∉ piecesText (fill p k ms) := fun k =>
        ih (fun t ht => hfixed t (List.mem_cons_of_mem m ht))
          (fun label v hv => hslot label v (List.mem_cons_of_mem m hv))
      have hcons : ∀ (q : Piece) k, '\n' ∉ q.text → '\n' ∉ piecesText (q :: fill p k ms) := by
        intro q k hq hmem
        rcases List.mem_append.1 hmem with hmem | hmem
        · exact hq hmem
        · exact hrest k hmem
      cases m with
      | fixed t => exact hcons (.fixed t) n (hfixed t List.mem_cons_self)
      | slot label v =>
          rw [fill]
          split
          · refine hcons _ (n + 1) ?_
            have hlabel := hslot label v List.mem_cons_self
            have hname : '\n' ∉ (entryName label n).toList :=
              notMem_of_isIdentifier (isIdentifier_entryName hlabel n) rfl
            have htable : '\n' ∉ tableName.toList := by decide
            simp [Piece.text, hname, htable]
          · exact hcons _ n v.newline_notMem_literal
      | kept label v =>
          rw [fill]
          split
          · exact hrest (n + 1)
          · exact hrest n

/-- **A block that does not fail writes no line break**, if its fixed texts have none. -/
theorem newline_notMem_blockText (hclean : Clean b) (hb : BoundQuery.Writes ('\n' ∉ ·) b) :
    '\n' ∉ s.blockText b := by
  refine newline_notMem_fill (fun t ht => hb.of_mem (write_mem_of_fixed_mem ht)) ?_
  intro label v hv
  obtain ⟨a, ha, hmark⟩ := List.mem_flatMap.1 hv
  exact (Action.held_of_error?_eq_none (hclean a ha) hmark rfl).1

end Session

/-! ### Lines of stages -/

namespace Stage

/-- The text with which a stage begins behind its pipe, if it has one. -/
def head : Stage → List Char
  | source _ => "from(bucket: ".toList
  | range _ _ => "range(start: ".toList
  | filter _ => "filter(fn: (r) => ".toList
  | aggregate f _ => f.name.toList ++ ['(']
  | movingAverage _ => "movingAverage(".toList
  | timedMovingAverage _ _ _ => "timedMovingAverage(".toList
  | window _ _ => "window(".toList
  | aggregateWindow _ _ _ => "aggregateWindow(".toList
  | yield _ => "yield(".toList
  | templateSource _ => []
  | scriptSource _ => []
  | configure _ => []

/-- The text with which the line of a stage begins: a source has no pipe. -/
def opening (stage : Stage) : List Char :=
  match stage.sourceArgument? with
  | some _ => stage.head
  | none => "  |> ".toList ++ stage.head

theorem opening_source (bucket : String) : (source bucket).opening = "from(bucket: ".toList := rfl

/-- A line of a stage: it begins as the stage does, and ends with the parenthesis of its call. -/
structure IsLine (stage : Stage) (line : List Char) : Prop where
  opening : stage.opening <+: line
  closing : [')'] <:+ line
  newline_notMem : '\n' ∉ line

/-- No text from outside can have a line break in a stage, but for its values: there is no script,
and no template but in a filter, and neither the raw texts of templates nor the names of columns
that the program gives have one. -/
structure OnOneLine (stage : Stage) : Prop where
  scriptless : stage.Scriptless
  ne_templateSource : ∀ t, stage ≠ .templateSource t
  trusted : ∀ name, .trusted name ∈ stage.columns → '\n' ∉ name.toList
  rawTexts : ∀ t ∈ stage.rawTexts, '\n' ∉ t

theorem OnOneLine.writes_form {stage : Stage} (h : stage.OnOneLine) :
    stage.form.Writes ('\n' ∉ ·) := by
  refine writes_form_of_plainText (fun t ht => ht.2) h.scriptless ?_ ?_ h.rawTexts
  · intro c hc
    cases c with
    | trusted name =>
        have hdot : '\n' ∉ "r.".toList := by decide
        exact fun hmem => (List.mem_append.1 hmem).elim hdot (h.trusted name hc)
    | dynamic name => exact (by decide : '\n' ∉ "record.get(r: r, key: ".toList)
  · intro l _
    cases l with
    | utc => exact (by decide : '\n' ∉ "timezone.utc".toList)
    | named name => exact (by decide : '\n' ∉ "timezone.location(name: ".toList)
    | fixed offset => exact (by decide : '\n' ∉ "timezone.fixed(offset: ".toList)

/-- Such a stage writes, unless it changes the settings. -/
theorem OnOneLine.eq_configure {stage : Stage} (h : stage.OnOneLine)
    (hwrites : stage.writes = false) : ∃ changes, stage = .configure changes := by
  cases stage with
  | configure changes => exact ⟨changes, rfl⟩
  | templateSource t => exact absurd rfl (h.ne_templateSource t)
  | scriptSource steps => exact h.scriptless.elim
  | _ => cases hwrites

/-- What a stage writes behind its pipe begins with its head and ends with a parenthesis. -/
theorem exists_piped {stage : Stage} {b : Block} (hform : stage.form = .piped b)
    (hclean : Clean b) : ∃ mid, b = .write stage.head :: (mid ++ [.write [')']]) := by
  cases stage with
  | range start stop => cases hform; exact ⟨_, rfl⟩
  | filter p => cases hform; exact ⟨_, rfl⟩
  | aggregate f column => cases hform; exact ⟨_, rfl⟩
  | timedMovingAverage every period column => cases hform; exact ⟨_, rfl⟩
  | window every w => cases hform; exact ⟨_, rfl⟩
  | aggregateWindow f every w => cases hform; exact ⟨_, rfl⟩
  | yield name => cases hform; exact ⟨_, rfl⟩
  | movingAverage n =>
      rw [form] at hform
      split at hform
      · cases hform
        cases hclean _ List.mem_cons_self
      · cases hform
        exact ⟨_, rfl⟩
  | _ => cases hform

/-- The form of a stage tells whether it is a source. -/
theorem sourceArgument?_eq_form (stage : Stage) :
    stage.sourceArgument? = match stage.form with
      | .source argument _ => some argument
      | _ => none := by
  cases stage <;> rfl

/-- On one line, only the source of a bucket is a source. -/
theorem OnOneLine.eq_source {stage : Stage} (h : stage.OnOneLine) {argument : String}
    (hsource : stage.sourceArgument? = some argument) : ∃ bucket, stage = .source bucket := by
  cases stage with
  | source bucket => exact ⟨bucket, rfl⟩
  | templateSource t => exact absurd rfl (h.ne_templateSource t)
  | scriptSource steps => exact h.scriptless.elim
  | _ => cases hsource

namespace IsLine

variable {stage : Stage} {line : List Char}

/-- The line of a stage that is no source begins with a pipe. -/
theorem pipe_prefix (h : stage.IsLine line) (hnone : stage.sourceArgument? = none) :
    "  |> ".toList <+: line := by
  have hopening := h.opening
  rw [Stage.opening, hnone] at hopening
  exact (List.prefix_append _ _).trans hopening

/-- The lines of stages that are no sources begin with pipes. -/
theorem pipe_prefix_of_forall₂ {stages : List Stage} {lines : List (List Char)}
    (h : List.Forall₂ IsLine stages lines)
    (hnone : ∀ stage ∈ stages, stage.sourceArgument? = none) :
    ∀ line ∈ lines, "  |> ".toList <+: line := by
  induction h with
  | nil => exact fun line hmem => by cases hmem
  | @cons stage line stages lines hline _ ih =>
      refine List.forall_mem_cons.2 ⟨hline.pipe_prefix (hnone stage List.mem_cons_self), ?_⟩
      exact ih fun stage hmem => hnone stage (List.mem_cons_of_mem _ hmem)

/-- A line begins as a source does exactly when it is that of a source. -/
theorem source_prefix_iff (h : stage.IsLine line) (hstage : stage.OnOneLine) :
    "from(bucket: ".toList <+: line ↔ ∃ bucket, stage = .source bucket := by
  constructor
  · intro hsource
    cases hnone : stage.sourceArgument? with
    | some argument => exact hstage.eq_source hnone
    | none =>
        -- the two texts begin with different characters
        have hpipe := h.pipe_prefix hnone
        obtain ⟨_, rfl⟩ := hsource
        obtain ⟨_, heq⟩ := hpipe
        cases heq
  · rintro ⟨bucket, rfl⟩
    exact h.opening

end IsLine

end Stage

/-! ### A stage adds a line -/

namespace Session

variable {s s' : Session} {stage : Stage}

/-- What begins and ends with texts of its own is framed by them. -/
theorem framed_blockText (s : Session) (head : List Char) (mid : Block) :
    head <+: s.blockText (.write head :: (mid ++ [.write [')']])) ∧
      [')'] <:+ s.blockText (.write head :: (mid ++ [.write [')']])) := by
  rw [blockText_write]
  exact ⟨List.prefix_append _ _, (s.suffix_blockText mid [')']).trans (List.suffix_append _ _)⟩

/-- **A stage that succeeds and writes adds a line**, behind a line break unless it is the first
one. -/
theorem isLine_of_adds (hstage : stage.OnOneLine) (hwrites : stage.writes = true)
    (h : s.Adds stage.form s') : ∃ line, stage.IsLine line ∧
      s'.text = if s.isEmpty then line else s.text ++ '\n' :: line := by
  have hbreak := hstage.writes_form
  -- the form of the stage, not the stage, decides how the text grows
  generalize hform : stage.form = f at h hbreak
  cases h with
  | @silent changes settings _ =>
      cases stage with
      | configure changes => cases hwrites
      | _ => cases hform
  | @source argument b hempty hclean =>
      obtain ⟨bucket, rfl⟩ := hstage.eq_source (stage.sourceArgument?_eq_form.trans (by rw [hform]))
      cases hform
      obtain ⟨hopen, hclose⟩ := s.framed_blockText "from(bucket: ".toList
        [.place "from_bucket" (.text bucket)]
      rw [List.singleton_append] at hopen hclose
      have htext : s.text = [] := List.isEmpty_iff.1 hempty
      refine ⟨_, ⟨?_, hclose, newline_notMem_blockText hclean hbreak⟩, ?_⟩
      · rw [Stage.opening_source]
        exact hopen
      · rw [if_pos hempty, text_after_eq, htext, List.nil_append]
  | @piped b hclean =>
      obtain ⟨mid, rfl⟩ := stage.exists_piped hform hclean.tail
      obtain ⟨hopen, hclose⟩ := s.framed_blockText stage.head mid
      have hnone : stage.sourceArgument? = none := by rw [stage.sourceArgument?_eq_form, hform]
      have hline := newline_notMem_blockText (s := s) hclean.tail hbreak
      have htext := s.text_after_eq (.write s.pipe :: .write stage.head :: (mid ++ [.write [')']]))
      rw [blockText_write s.pipe] at htext
      rw [htext]
      generalize s.blockText (.write stage.head :: (mid ++ [.write [')']])) = line at *
      refine ⟨"  |> ".toList ++ line, ⟨?_, hclose.trans (List.suffix_append _ _), ?_⟩, ?_⟩
      · rw [Stage.opening, hnone]
        exact (List.prefix_append_right_inj _).2 hopen
      · rw [List.mem_append, not_or]
        exact ⟨by decide, hline⟩
      · rw [pipe]
        split
        · next hempty =>
            rw [List.isEmpty_iff.1 hempty]
            rfl
        · rfl

/-! ### Lines of a pipeline -/

/-- The lines of the text. -/
def lines (s : Session) : List (List Char) := s.text.splitOn '\n'

/-- The stages that have written something, when those that fail are passed over. -/
def written (s : Session) (stages : List Stage) : List Stage :=
  (s.accepted stages).filter Stage.writes

/-- A session behind stages has the lines of those that write, and no text without any. -/
structure Lined (s : Session) (stages : List Stage) : Prop where
  isEmpty : s.isEmpty = (stages.filter Stage.writes).isEmpty
  lines : s.isEmpty = false → List.Forall₂ Stage.IsLine (stages.filter Stage.writes) s.lines

namespace Lined

variable {stages : List Stage}

/-- **A stage adds its line to those of the stages before it.** -/
theorem add (h : s.Lined stages) (hstage : stage.OnOneLine) (hadds : s.Adds stage.form s') :
    s'.Lined (stages ++ [stage]) := by
  have hempty := isEmpty_of_adds hadds
  cases hwrites : stage.writes with
  | false =>
      -- only the settings change
      obtain ⟨changes, rfl⟩ := hstage.eq_configure hwrites
      cases hadds with
      | silent _ =>
          have hfilter : (stages ++ [Stage.configure changes]).filter Stage.writes =
              stages.filter Stage.writes := by
            rw [List.filter_append]
            exact List.append_nil _
          exact ⟨hfilter ▸ h.isEmpty, hfilter ▸ h.lines⟩
  | true =>
      have hfilter : (stages ++ [stage]).filter Stage.writes =
          stages.filter Stage.writes ++ [stage] := by
        rw [List.filter_append, List.filter_cons_of_pos hwrites, List.filter_nil]
      rw [hwrites, Bool.not_true, Bool.and_false] at hempty
      obtain ⟨line, hline, htext⟩ := isLine_of_adds hstage hwrites hadds
      have hsplit : line.splitOn '\n' = [line] := List.splitOn_eq_singleton hline.newline_notMem
      refine ⟨by simp [hempty, hfilter], fun _ => ?_⟩
      rw [hfilter, Session.lines, htext]
      split
      · next hfirst =>
          have hnone : stages.filter Stage.writes = [] :=
            List.isEmpty_iff.1 (h.isEmpty.symm.trans hfirst)
          rw [hnone, hsplit]
          exact .cons hline .nil
      · next hfirst =>
          rw [List.splitOn_append_cons_self, hsplit]
          exact List.rel_append (h.lines (Bool.eq_false_iff.2 hfirst)) (.cons hline .nil)

/-- **A pipeline has the lines of its stages.** -/
theorem foldlM {more : List Stage} (hsound : s.Sound) (h : s.Lined stages)
    (hmore : ∀ stage ∈ more, stage.OnOneLine) (hs : more.foldlM Session.add s = .ok s') :
    s'.Lined (stages ++ more) := by
  induction more generalizing s stages with
  | nil =>
      cases hs
      rw [List.append_nil]
      exact h
  | cons stage more ih =>
      obtain ⟨s₁, hadd, hs⟩ := exists_of_foldlM_cons hs
      have hline := h.add (hmore stage List.mem_cons_self)
        (adds_of_addForm hsound.table.numbered hadd)
      rw [List.append_cons]
      exact ih (hsound.add hadd) hline
        (fun stage hmem => hmore stage (List.mem_cons_of_mem _ hmem)) hs

end Lined

/-- No stage that has written something stands before a source that has. -/
theorem pairwise_written (settings : Settings) (stages : List Stage) :
    ((ofSettings settings).written stages).Pairwise fun _ behind =>
      behind.sourceArgument? = none := by
  have hpairs := pairwise_foldlM (.ofSettings settings)
    ((ofSettings settings).foldlM_accepted stages)
  refine (List.pairwise_filter.2 (hpairs.imp ?_))
  exact fun {before behind} h hbefore _ => h hbefore

/-- **No value adds a line, takes one away or joins two of them.**  The lines of the text are those
of the stages that have written something, one for each and in order; the first one is a source
exactly when a source is among them, and all others begin with a pipe.  Without any stages the text
is one empty line. -/
theorem lines_eq_stages (settings : Settings) {stages : List Stage}
    (h : ∀ stage ∈ stages, stage.OnOneLine) :
    ∃ (written : List Stage) (lines : List (List Char)),
      written = (ofSettings settings).written stages ∧
      lines = ((ofSettings settings).attempt stages).1.lines ∧
      (written = [] → lines = [[]]) ∧
      (written ≠ [] → List.Forall₂ Stage.IsLine written lines) ∧
      ((∃ line ∈ lines.head?, "from(bucket: ".toList <+: line) ↔
        ∃ bucket, .source bucket ∈ written) ∧
      (∀ line ∈ lines.tail, "  |> ".toList <+: line) ∧
      (written ≠ [] → (∀ bucket, .source bucket ∉ written) →
        ∀ line ∈ lines, "  |> ".toList <+: line) := by
  have honeLine : ∀ stage ∈ (ofSettings settings).written stages, stage.OnOneLine :=
    fun stage hmem => h stage (mem_of_mem_accepted (List.mem_of_mem_filter hmem))
  have hlined : ((ofSettings settings).attempt stages).1.Lined
      ([] ++ (ofSettings settings).accepted stages) :=
    Lined.foldlM (.ofSettings settings) ⟨rfl, fun hfalse => by cases hfalse⟩
      (fun stage hmem => h stage (mem_of_mem_accepted hmem))
      ((ofSettings settings).foldlM_accepted stages)
  rw [List.nil_append] at hlined
  have hpairs := pairwise_written settings stages
  refine ⟨_, _, rfl, rfl, ?_⟩
  have hwritten : ((ofSettings settings).accepted stages).filter Stage.writes =
      (ofSettings settings).written stages := rfl
  obtain ⟨hempty, hlines⟩ := hlined
  rw [hwritten] at hempty hlines
  generalize (ofSettings settings).written stages = written at *
  generalize ((ofSettings settings).attempt stages).1 = s at *
  cases written with
  | nil =>
      have hline : s.lines = [[]] := by
        rw [lines, List.isEmpty_iff.1 hempty]
        rfl
      rw [hline]
      exact ⟨fun _ => rfl, fun hne => absurd rfl hne, by simp, by simp, fun hne => absurd rfl hne⟩
  | cons first rest =>
      have hforall := hlines hempty
      obtain ⟨line, more, hline, hmore, hcons⟩ := List.forall₂_cons_left_iff.1 hforall
      have hrest : ∀ stage ∈ rest, stage.sourceArgument? = none := fun stage hmem =>
        List.rel_of_pairwise_cons hpairs hmem
      have hpipes := Stage.IsLine.pipe_prefix_of_forall₂ hmore hrest
      -- a source among the stages is the first one
      have hfirst : (∃ bucket, .source bucket ∈ first :: rest) ↔
          ∃ bucket, first = .source bucket := by
        constructor
        · rintro ⟨bucket, hmem⟩
          rcases List.mem_cons.1 hmem with heq | hmem
          · exact ⟨bucket, heq.symm⟩
          · cases hrest _ hmem
        · rintro ⟨bucket, rfl⟩
          exact ⟨bucket, List.mem_cons_self⟩
      have hsource := hline.source_prefix_iff (honeLine first List.mem_cons_self)
      rw [hcons] at hforall ⊢
      refine ⟨nofun, fun _ => hforall, ?_, hpipes, fun _ hnone => ?_⟩
      · rw [hfirst, ← hsource]
        simp
      · refine List.forall_mem_cons.2 ⟨hline.pipe_prefix ?_, hpipes⟩
        cases hargument : first.sourceArgument? with
        | none => rfl
        | some argument =>
            obtain ⟨bucket, rfl⟩ :=
              (honeLine first List.mem_cons_self).eq_source hargument
            exact absurd List.mem_cons_self (hnone bucket)

/-- Values that look like lines of their own stay in theirs; a source that comes too late has no
line. -/
theorem lines_eq_stages_hostile : ∃ (stages : List Stage) (s : Session),
    stages = [.source "\n  |> a", .configure [.require "date"], .source "late",
      .filter (.tagIs ("\"", "\n")), .yield (some "\ny")] ∧
    s = ((ofSettings (.ofPolicy .none)).attempt stages).1 ∧
    (∀ stage ∈ stages, stage.OnOneLine) ∧
    s.text = ("from(bucket: \"\\n  |> a\")\n" ++
      "  |> filter(fn: (r) => record.get(r: r, key: \"\\\"\", default: \"\") == \"\\n\")\n" ++
      "  |> yield(name: \"\\ny\")").toList ∧
    List.Forall₂ Stage.IsLine [.source "\n  |> a", .filter (.tagIs ("\"", "\n")),
      .yield (some "\ny")] s.lines := by
  have honeLine : ∀ stage ∈ [Stage.source "\n  |> a", .configure [.require "date"], .source "late",
      .filter (.tagIs ("\"", "\n")), .yield (some "\ny")], stage.OnOneLine := by
    simp only [List.forall_mem_cons]
    refine ⟨⟨trivial, nofun, nofun, nofun⟩, ⟨trivial, nofun, nofun, nofun⟩,
      ⟨trivial, nofun, nofun, nofun⟩, ⟨.compare _ _ _ _, nofun, ?_, nofun⟩,
      ⟨trivial, nofun, nofun, nofun⟩, fun _ hmem => absurd hmem List.not_mem_nil⟩
    intro name hmem
    cases List.mem_singleton.1 hmem
  obtain ⟨written, lines, rfl, rfl, -, hforall, -⟩ := lines_eq_stages (.ofPolicy .none) honeLine
  exact ⟨_, _, rfl, rfl, honeLine, by decide +kernel, hforall (List.cons_ne_nil _ _)⟩

end Session

end BoundQuery
