/-
**References and entries agree.**

A query refers to a bound value by a word that begins with the name of the table.  Read piece by
piece from left to right, with the raw text of templates left out, what the stages have written has
exactly the names of the entries, each of them once and in the order of the table: literals never
look like references, and no fixed text of a stage does.

Main definitions:

* `BoundQuery.references` — the names that a text refers to;
* `BoundQuery.Predicate.Quiet`, `BoundQuery.Stage.Quiet` — there is no script, and no name of a
  column that the program gives refers to the table.

Main results:

* `BoundQuery.Value.references_literal` — a literal refers to nothing;
* `BoundQuery.Stage.quiet_form` — no fixed text of a stage refers to anything;
* `BoundQuery.Session.references_eq_of_foldlM` — references and entries agree.
-/

import BoundQuery.Proofs.Pipeline.Texts
import BoundQuery.Proofs.Predicate.Lexer

set_option relaxedAutoImplicit false
set_option autoImplicit false

namespace BoundQuery

/-! ### The references of a text -/

/-- What a reference begins with. -/
def referenceMark : List Char := tableName.toList ++ ['.']

/-- The name that a token refers to. -/
def Token.reference? : Token → Option String
  | word w =>
      if referenceMark.isPrefixOf w then some (String.ofList (w.drop referenceMark.length)) else none
  | _ => none

/-- The tokens that are read so far, the last of which may not be finished. -/
def Lexer.read (l : Lexer) : List Token := l.tokens ++ wordTokens l.word

/-- The names that a text refers to, in order. -/
def references (s : List Char) : List String :=
  (Lexer.run ⟨[], [], .plain .other⟩ s).read.filterMap Token.reference?

theorem references_of_scans {s : List Char} {ts : List Token} (h : Scans .other s ts) :
    references s = ts.filterMap Token.reference? := by
  obtain ⟨us, w, b, hrun, rfl⟩ := Lexer.exists_of_finish_eq_some h
  unfold references
  rw [hrun]
  rfl

/-! ### Texts without references -/

/-- Every character of every word satisfies `P`. -/
def Lexer.Words (P : Char → Prop) (l : Lexer) : Prop :=
  (∀ w, .word w ∈ l.tokens → ∀ c ∈ w, P c) ∧ ∀ c ∈ l.word, P c

section Words

variable {P : Char → Prop}

theorem word_of_mem_wordTokens {v w : List Char} (h : .word v ∈ wordTokens w) : v = w := by
  unfold wordTokens at h
  split at h
  · cases h
  · have hword := (List.mem_singleton.1 h).symm
    unfold Token.ofWord at hword
    split at hword
    · cases hword
    · split at hword
      · cases hword
      · exact (Token.word.inj hword).symm

theorem Lexer.Words.step {l : Lexer} (h : l.Words P) {c : Char} (hc : P c) :
    (l.step c).Words P := by
  obtain ⟨ts, w, m⟩ := l
  obtain ⟨hts, hw⟩ := h
  have hone : ∀ d ∈ [c], P d := by
    intro d hd
    rw [List.mem_singleton.1 hd]
    exact hc
  have hpush : ∀ d ∈ w ++ [c], P d := List.forall_mem_append.2 ⟨hw, hone⟩
  have hclose : ∀ v, .word v ∈ ts ++ wordTokens w → ∀ d ∈ v, P d := by
    intro v hv
    rcases List.mem_append.1 hv with hv | hv
    · exact hts v hv
    · rw [word_of_mem_wordTokens hv]
      exact hw
  have hadd : ∀ us t, (∀ v, .word v ∈ us → ∀ d ∈ v, P d) →
      (∀ v, t = Token.word v → ∀ d ∈ v, P d) → ∀ v, .word v ∈ us ++ [t] → ∀ d ∈ v, P d := by
    intro us t hus ht v hv
    rcases List.mem_append.1 hv with hv | hv
    · exact hus v hv
    · exact ht v (List.mem_singleton.1 hv).symm
  have hnil : ∀ d ∈ ([] : List Char), P d := fun _ hd => by cases hd
  cases m with
  | plain b =>
      simp only [Lexer.step]
      split
      · exact ⟨hclose, hnil⟩
      split
      · exact ⟨hadd _ _ hclose (fun v hv => by cases hv), hnil⟩
      split
      · exact ⟨hadd _ _ hclose (fun v hv => by cases hv), hnil⟩
      split
      · refine ⟨hadd _ _ hclose (fun v hv => ?_), hnil⟩
        cases hv
        exact hone
      split
      · exact ⟨hclose, hone⟩
      split
      · cases b with
        | tilde => exact ⟨hclose, hone⟩
        | slash => exact ⟨hts, hw⟩
        | other => exact ⟨hts, hpush⟩
      · exact ⟨hts, hpush⟩
  | quoted q =>
      simp only [Lexer.step]
      split
      · refine ⟨hadd _ _ hts (fun v hv => ?_), hnil⟩
        cases hv
        exact hpush
      · exact ⟨hts, hpush⟩
  | escaped q => exact ⟨hts, hpush⟩
  | comment => exact ⟨hts, hw⟩

/-- The words of a text have no other characters than the text. -/
theorem Lexer.Words.run {l : Lexer} (h : l.Words P) {s : List Char} (hs : ∀ c ∈ s, P c) :
    (l.run s).Words P := by
  induction s generalizing l with
  | nil => exact h
  | cons c s ih =>
      obtain ⟨hc, hs⟩ := List.forall_mem_cons.1 hs
      exact ih (h.step hc) hs

end Words

/-- A word that refers to an entry begins with the name of the table and a point. -/
theorem Token.exists_of_reference? {t : Token} {name : String} (h : t.reference? = some name) :
    ∃ w, t = word (referenceMark ++ w) := by
  cases t with
  | word w =>
      simp only [reference?] at h
      split at h
      · next hpre =>
          obtain ⟨r, rfl⟩ := List.isPrefixOf_iff_prefix.1 hpre
          exact ⟨r, rfl⟩
      · cases h
  | opening => cases h
  | closing => cases h
  | connective c => cases h

/-- **A text that lacks a character of the mark refers to nothing.** -/
theorem references_eq_nil_of_notMem {s : List Char} {c : Char} (hc : c ∈ referenceMark)
    (hs : c ∉ s) : references s = [] := by
  have hwords : (Lexer.run ⟨[], [], .plain .other⟩ s).Words (· ≠ c) := by
    have hstart : Lexer.Words (· ≠ c) ⟨[], [], .plain .other⟩ :=
      ⟨fun _ hw => (List.not_mem_nil hw).elim, fun _ hw => (List.not_mem_nil hw).elim⟩
    exact hstart.run fun d hd => fun heq => hs (heq ▸ hd)
  refine List.filterMap_eq_nil_iff.2 fun t ht => ?_
  cases href : t.reference? with
  | none => rfl
  | some name =>
      obtain ⟨w, rfl⟩ := Token.exists_of_reference? href
      have hmem : c ∈ referenceMark ++ w := List.mem_append_left w hc
      rcases List.mem_append.1 ht with ht | ht
      · exact absurd rfl (hwords.1 _ ht c hmem)
      · rw [word_of_mem_wordTokens ht] at hmem
        exact absurd rfl (hwords.2 c hmem)

/-! ### References and literals -/

/-- The reference to an entry is read as its name. -/
theorem references_reference {name : String} (h : isIdentifier name = true) :
    references (referenceMark ++ name.toList) = [name] := by
  have hname : NameText (referenceMark ++ name.toList) :=
    nameText_append_identifier (by decide) h
  have hscan := scans_name hname ⟨'.', List.mem_append_left _ (by decide), rfl⟩ .other
  have hprefix : referenceMark.isPrefixOf (referenceMark ++ name.toList) = true :=
    List.isPrefixOf_iff_prefix.2 (List.prefix_append _ _)
  rw [references_of_scans hscan]
  simp only [List.filterMap_cons, Token.reference?, hprefix, if_true, List.drop_left,
    String.ofList_toList, List.filterMap_nil]

theorem references_quotedText (s : List Char) : references (quotedText s) = [] := by
  rw [references_of_scans (scans_quotedText s .other)]
  rfl

/-- **A literal refers to nothing**, unless it is a pattern. -/
theorem Value.references_literal {v : Value} (hv : v.kind ≠ .pattern) :
    references v.literal = [] := by
  have hp : 'p' ∈ referenceMark := by decide
  have hnumeral : ∀ {s : List Char}, NumeralText s → references s = [] := fun hs =>
    references_eq_nil_of_notMem hp (hs.notMem rfl)
  have hcall : ∀ {name : String} {s : List Char}, 'p' ∉ name.toList → 'p' ∉ s →
      references (conversionText name s) = [] := by
    intro name s hname hs
    refine references_eq_nil_of_notMem hp ?_
    simp [conversionText, hname, hs]
  cases v with
  | boolean b => cases b <;> rfl
  | integer n =>
      change references (integerLiteral n) = []
      unfold integerLiteral
      split
      · next h =>
          subst h
          exact hcall (by decide) (by decide +kernel)
      · exact hnumeral (numeralText_signed _)
  | unsigned n => exact hcall (by decide) ((numeralText_decimal _).notMem rfl)
  | float x =>
      cases x with
      | nan => exact hcall (by decide) (by decide)
      | infinite negative => cases negative <;> exact hcall (by decide) (by decide)
      | finite negative m => exact hnumeral (Layout.numeralText_literal negative m)
  | text s => exact references_quotedText _
  | instant t => exact hnumeral t.numeralText_text
  | duration d => exact hnumeral d.numeralText_text
  | pattern q => exact absurd rfl hv

/-! ### Quiet blocks -/

/-- The texts that a block writes refer to nothing, but for raw texts; and what it binds it
writes. -/
def QuietBut (raws : List (List Char)) (b : Block) : Prop :=
  Writes (fun t => references t = [] ∨ t ∈ raws) b

/-- A text without a point refers to nothing. -/
theorem references_of_pointless {t : List Char} (h : '.' ∉ t) : references t = [] :=
  references_eq_nil_of_notMem (by decide) h

/-- Nor does a text with a point, if it lacks the first letter of the mark. -/
theorem references_of_notMem_p {t : List Char} (h : 'p' ∉ t) : references t = [] :=
  references_eq_nil_of_notMem (by decide) h

theorem Location.references_opening (l : Location) : references l.opening = [] := by
  have hutc : 'p' ∉ "timezone.utc".toList := by decide
  have hnamed : 'p' ∉ "timezone.location(name: ".toList := by decide
  have hfixed : 'p' ∉ "timezone.fixed(offset: ".toList := by decide
  cases l with
  | utc => exact references_of_notMem_p hutc
  | named name => exact references_of_notMem_p hnamed
  | fixed offset => exact references_of_notMem_p hfixed

/-! ### Quiet predicates and stages -/

/-- The name of a column, where the program gives it, refers to nothing. -/
def Column.Quiet : Column → Prop
  | trusted name => references ("r.".toList ++ name.toList) = []
  | dynamic _ => True

/-- A column that is named by an identifier refers to nothing. -/
theorem Column.quiet_trusted {name : String} (h : isIdentifier name = true) :
    (Column.trusted name).Quiet := by
  have hname : NameText ("r.".toList ++ name.toList) := nameText_append_identifier (by decide) h
  have hscan := scans_name hname ⟨'.', List.mem_append_left _ (by decide), rfl⟩ .other
  rw [Quiet, references_of_scans hscan]
  rfl

theorem Column.Quiet.references_opening {c : Column} (h : c.Quiet) :
    references c.opening = [] := by
  cases c with
  | trusted name => exact h
  | dynamic name =>
      have hrecord : 'p' ∉ "record.get(r: r, key: ".toList := by decide
      exact references_of_notMem_p hrecord

/-- A side of a comparison that is a column refers to nothing by its name. -/
def Operand.Quiet : Operand → Prop
  | column c => c.Quiet
  | _ => True

theorem Operand.Quiet.column {o : Operand} (h : o.Quiet) : ∀ c ∈ o.columns, c.Quiet := by
  intro c hc
  cases o with
  | column c' =>
      rw [List.mem_singleton.1 hc]
      exact h
  | value v => cases hc
  | absent => cases hc

/-- There is no script in the predicate, and no name of a column refers to anything. -/
inductive Predicate.Quiet : Predicate → Prop where
  | compare {l r : Operand} (how : Comparison) (label : String) (hl : l.Quiet) (hr : r.Quiet) :
      Quiet (.compare l how r label)
  | group (c : Connective) {qs : List Predicate} (h : ∀ q ∈ qs, Quiet q) : Quiet (.group c qs)
  | template (t : Template) (label : String) : Quiet (.template t label)

theorem Predicate.Quiet.scriptless {q : Predicate} (h : q.Quiet) : q.Scriptless := by
  induction h with
  | compare how label _ _ => exact .compare _ how _ label
  | group c _ ih => exact .group c ih
  | template t label => exact .template t label

theorem Predicate.Quiet.column {q : Predicate} (h : q.Quiet) : ∀ c ∈ q.columns, c.Quiet := by
  induction h with
  | compare how label hl hr => exact List.forall_mem_append.2 ⟨hl.column, hr.column⟩
  | group c _ ih =>
      intro d hd
      rw [columns, memberColumns_eq_flatMap] at hd
      obtain ⟨q, hq, hd⟩ := List.mem_flatMap.1 hd
      exact ih q hq d hd
  | template t label => exact fun c hc => by cases hc

/-- There is no script in the stage, and no name of a column that the program gives refers to
anything. -/
def Stage.Quiet : Stage → Prop
  | scriptSource _ => False
  | filter q => q.Quiet
  | _ => True

theorem Stage.Quiet.scriptless {stage : Stage} (h : stage.Quiet) : stage.Scriptless := by
  cases stage with
  | filter q => exact Predicate.Quiet.scriptless h
  | scriptSource s => exact h
  | _ => trivial

theorem Stage.Quiet.column {stage : Stage} (h : stage.Quiet) : ∀ c ∈ stage.columns, c.Quiet := by
  cases stage with
  | filter q => exact Predicate.Quiet.column h
  | _ => exact fun c hc => by cases hc

/-- The texts that a stage of a form writes refer to nothing, but for raw texts. -/
def Stage.Form.QuietBut (raws : List (List Char)) : Form → Prop
  | source _ b => BoundQuery.QuietBut raws b
  | piped b => BoundQuery.QuietBut raws b
  | silent _ => True

theorem Stage.Form.quietBut_iff {raws : List (List Char)} {f : Form} :
    f.QuietBut raws ↔ f.Writes fun t => references t = [] ∨ t ∈ raws := by
  cases f <;> rfl

theorem Stage.Form.QuietBut.mono {raws raws' : List (List Char)} {f : Form}
    (h : f.QuietBut raws) (hsub : ∀ t ∈ raws, t ∈ raws') : f.QuietBut raws' := by
  cases f with
  | source argument b => exact Writes.mono h fun t ht => ht.imp id (hsub t)
  | piped b => exact Writes.mono h fun t ht => ht.imp id (hsub t)
  | silent changes => trivial

/-- **No fixed text of a stage refers to anything**, but for the raw texts of its templates. -/
theorem Stage.quiet_form {stage : Stage} (h : stage.Quiet) :
    stage.form.QuietBut stage.rawTexts := by
  refine Form.quietBut_iff.2 (writes_form ?_ h.scriptless ?_ ?_ ?_)
  · exact fun t ht => Or.inl (references_of_pointless ht)
  · exact fun c hc => Or.inl (h.column c hc).references_opening
  · exact fun l _ => Or.inl l.references_opening
  · exact fun t ht => Or.inr ht

/-! ### Pipelines -/

namespace Session

/-- The fixed texts that are written refer to nothing, but for raw texts. -/
def QuietBut (raws : List (List Char)) (s : Session) : Prop :=
  ∀ t, .fixed t ∈ s.output → references t = [] ∨ t ∈ raws

variable {raws : List (List Char)} {s : Session}

/-- The pieces of a session, read one by one, refer to the entries of the table. -/
theorem flatMap_references (h : s.Sound) (hrefers : s.Referred) (hquiet : s.QuietBut raws) :
    ((s.output.filter fun q => q ∉ raws.map Piece.fixed).flatMap fun q => references q.text) =
      s.table.entries.map Prod.fst := by
  have hpiece : ∀ q ∈ s.output, q ∉ raws.map Piece.fixed →
      references q.text = (q.entry?.map Prod.fst).toList := by
    intro q hq hraw
    cases q with
    | fixed t =>
        rcases hquiet t hq with hnil | hmem
        · exact hnil
        · exact absurd (List.mem_map_of_mem hmem) hraw
    | place name v =>
        cases name with
        | none =>
            refine Value.references_literal fun hkind => ?_
            have hfree := h.free v hq
            rw [hkind, s.table.policy.binds_pattern] at hfree
            cases hfree
        | some n =>
            have hentry : (n, v) ∈ s.table.entries := by
              rw [← hrefers]
              exact List.mem_filterMap.2 ⟨_, hq, rfl⟩
            have hmark : Piece.text (.place (some n) v) = referenceMark ++ n.toList := rfl
            rw [hmark, references_reference (h.table.isIdentifier_of_mem hentry).1]
            rfl
  rw [← hrefers]
  generalize s.output = out at hpiece
  induction out with
  | nil => rfl
  | cons q out ih =>
      obtain ⟨hq, hout⟩ := List.forall_mem_cons.1 hpiece
      have hread := ih hout
      by_cases hraw : q ∈ raws.map Piece.fixed
      · obtain ⟨t, -, rfl⟩ := List.mem_map.1 hraw
        rw [List.filter_cons_of_neg (by simpa using hraw), hread]
        rfl
      · rw [List.filter_cons_of_pos (by simpa using hraw), List.flatMap_cons, hq hraw, hread]
        cases he : q.entry? with
        | none => rw [List.filterMap_cons_none he]; rfl
        | some e => rw [List.filterMap_cons_some he]; rfl

/-- Stages that are overt refer to every entry that they make. -/
theorem referred_of_foldlM {settings : Settings} {stages : List Stage}
    (hstages : ∀ stage ∈ stages, stage.Overt)
    (hs : stages.foldlM add (.ofSettings settings) = .ok s) : s.Referred := by
  have hboth : s.Sound ∧ s.Referred := by
    refine invariant_foldlM (I := fun s => s.Sound ∧ s.Referred) ?_ ⟨.ofSettings settings, rfl⟩ hs
    rintro stage hmem s s' ⟨hsound, hrefers⟩ hadd
    exact ⟨hsound.add hadd, hrefers.add hsound (hstages stage hmem) hadd⟩
  exact hboth.2

/-- Quiet stages refer to nothing by their fixed texts. -/
theorem quietBut_of_foldlM {settings : Settings} {stages : List Stage}
    (hstages : ∀ stage ∈ stages, stage.Quiet)
    (hs : stages.foldlM add (.ofSettings settings) = .ok s) :
    s.QuietBut (stages.flatMap Stage.rawTexts) := by
  refine writes_of_foldlM (fun _ ht => Or.inl (references_of_pointless ht)) ?_ hs
  intro stage hmem
  have hraws : ∀ t ∈ stage.rawTexts, t ∈ stages.flatMap Stage.rawTexts := fun t ht =>
    List.mem_flatMap.2 ⟨stage, hmem, ht⟩
  exact Stage.Form.quietBut_iff.1 ((Stage.quiet_form (hstages stage hmem)).mono hraws)

/-- **References and entries agree.**  What a pipeline has written refers to entries of its
table, to none of them twice and in order, and no two entries have the same name; it refers to each
of them if no script keeps a value that it does not write.  Without scripts, in which case it does
so as well, the names to which the text refers, read from left to right with the raw texts of
templates left out, are the names of the entries in order. -/
theorem references_eq_of_foldlM {settings : Settings} {stages : List Stage}
    (hs : stages.foldlM add (.ofSettings settings) = .ok s) :
    (s.output.filterMap Piece.entry?).Sublist s.table.entries ∧
      ((∀ stage ∈ stages, stage.Overt) →
        s.output.filterMap Piece.entry? = s.table.entries) ∧
      (s.table.entries.map Prod.fst).Nodup ∧
      ((∀ stage ∈ stages, stage.Quiet) →
        ((s.output.filter fun q => q ∉ (stages.flatMap Stage.rawTexts).map Piece.fixed).flatMap
          fun q => references q.text) = s.table.entries.map Prod.fst) := by
  have hsound : s.Sound :=
    invariant_foldlM (fun _ _ _ _ h hadd => h.add hadd) (Sound.ofSettings settings) hs
  refine ⟨hsound.refers, fun hovert => referred_of_foldlM hovert hs,
    hsound.table.numbered.nodup, fun hquiet => ?_⟩
  have hovert : ∀ stage ∈ stages, stage.Overt := fun stage hmem =>
    (hquiet stage hmem).scriptless.overt
  exact flatMap_references hsound (referred_of_foldlM hovert hs) (quietBut_of_foldlM hquiet hs)

/-- A template may name an entry in its raw text; it is left out, and the value that the template
binds is counted. -/
theorem references_eq_of_foldlM_template : ∃ s,
    [Stage.source "telegraf", .filter (.any [.tagIs ("host", "params.a_0"),
      .ofTemplate ((Template.literal "params.b_1 == ").value (.boolean true))]),
      .yield (some "out")].foldlM add (.ofSettings .standard) = .ok s ∧
    ((s.output.filter fun q => q ∉ [Piece.fixed "params.b_1 == ".toList]).flatMap
      fun q => references q.text) = ["from_bucket_0", "filter_key_1", "filter_value_2",
        "filter_withCustomFlux_3", "yield_name_4"] := by
  obtain ⟨s, hs⟩ : ∃ s, [Stage.source "telegraf", .filter (.any [.tagIs ("host", "params.a_0"),
      .ofTemplate ((Template.literal "params.b_1 == ").value (.boolean true))]),
      .yield (some "out")].foldlM add (.ofSettings .standard) = .ok s := ⟨_, rfl⟩
  have hnames : s.table.entries.map Prod.fst = ["from_bucket_0", "filter_key_1",
      "filter_value_2", "filter_withCustomFlux_3", "yield_name_4"] := by
    cases hs
    rfl
  obtain ⟨-, -, -, hread⟩ := references_eq_of_foldlM hs
  rw [← hnames]
  refine ⟨s, hs, hread ?_⟩
  intro stage hmem
  simp only [List.mem_cons, List.not_mem_nil, or_false] at hmem
  rcases hmem with rfl | rfl | rfl
  · trivial
  · refine .group .any (List.forall_mem_cons.2 ⟨.compare _ _ trivial trivial, ?_⟩)
    exact List.forall_mem_singleton.2 (.template _ _)
  · trivial

end Session

end BoundQuery
