/-
**Marks: what actions leave behind.**

An action that does not fail adds marks: fixed text, a slot for a value, or a value that is kept
without a slot.  A policy and the number of values that are bound already turn marks into pieces and
entries, so what actions write and bind depends on nothing else that was done before.  A block is
performed up to its first action that fails.

Main definitions:

* `BoundQuery.Mark`, `BoundQuery.Action.marks` — a mark, and what an action adds;
* `BoundQuery.Clean` — no action of a block fails;
* `BoundQuery.Overt` — a block keeps no value without a slot;
* `BoundQuery.fill`, `BoundQuery.bound` — the pieces and the entries that a policy makes of marks;
* `BoundQuery.filledText` — the text with which a policy fills marks;
* `BoundQuery.Session.after` — a session with the marks and the packages of actions;
* `BoundQuery.Table.Sound` — the names are numbered identifiers, and the values are of kinds that
  are bound and have literals.

Main results:

* `BoundQuery.Session.perform_eq` — what is left of a block, and with which error it ends;
* `BoundQuery.Session.eq_of_run` — what a plan adds that does not fail;
* `BoundQuery.Session.run_error` — the error of a plan is that of its first action that fails;
* `BoundQuery.Table.Sound.after` — actions keep a table sound.
-/

import BoundQuery.Binding.Plan
import BoundQuery.Proofs.Binding.Name
import Mathlib.Data.List.TakeWhile

set_option relaxedAutoImplicit false
set_option autoImplicit false

namespace BoundQuery

/-! ### Marks -/

/-- A part of a draft: fixed text, a slot for a value and the label for its entry, or a value that
is kept under a label and has no slot. -/
inductive Mark where
  | fixed (text : List Char)
  | slot (label : String) (value : Value)
  | kept (label : String) (value : Value)

/-- The label and the value of a mark that holds a value. -/
def Mark.held? : Mark → Option (String × Value)
  | fixed _ => none
  | slot label v => some (label, v)
  | kept label v => some (label, v)

/-- The pieces that a policy makes of marks when `n` values are bound already. -/
def fill (p : Policy) : Nat → List Mark → List Piece
  | _, [] => []
  | n, .fixed t :: ms => .fixed t :: fill p n ms
  | n, .slot label v :: ms =>
      if p.binds v.kind then .place (some (entryName label n)) v :: fill p (n + 1) ms
      else .place none v :: fill p n ms
  | n, .kept _ v :: ms => if p.binds v.kind then fill p (n + 1) ms else fill p n ms

/-- The entries that a policy makes of marks when `n` values are bound already. -/
def bound (p : Policy) : Nat → List Mark → List (String × Value)
  | _, [] => []
  | n, .fixed _ :: ms => bound p n ms
  | n, .slot label v :: ms =>
      if p.binds v.kind then (entryName label n, v) :: bound p (n + 1) ms else bound p n ms
  | n, .kept label v :: ms =>
      if p.binds v.kind then (entryName label n, v) :: bound p (n + 1) ms else bound p n ms

theorem bound_append (p : Policy) (n : Nat) (ms ns : List Mark) :
    bound p n (ms ++ ns) = bound p n ms ++ bound p (n + (bound p n ms).length) ns := by
  -- a value that is bound moves the count on for the marks behind it
  induction ms generalizing n with
  | nil => rfl
  | cons m ms ih =>
      have hvalue : ∀ (label : String) (v : Value),
          (if p.binds v.kind then (entryName label n, v) :: bound p (n + 1) (ms ++ ns)
            else bound p n (ms ++ ns)) =
          (if p.binds v.kind then (entryName label n, v) :: bound p (n + 1) ms
            else bound p n ms) ++ bound p (n + (if p.binds v.kind then
              (entryName label n, v) :: bound p (n + 1) ms else bound p n ms).length) ns := by
        intro label v
        by_cases h : p.binds v.kind = true
        · simp only [List.cons_append, h, if_true, ih, List.length_cons]
          rw [Nat.add_right_comm, Nat.add_assoc]
        · simp only [h, if_false, ih, Bool.false_eq_true]
      cases m with
      | fixed t => exact ih n
      | slot label v => exact hvalue label v
      | kept label v => exact hvalue label v

theorem fill_append (p : Policy) (n : Nat) (ms ns : List Mark) :
    fill p n (ms ++ ns) = fill p n ms ++ fill p (n + (bound p n ms).length) ns := by
  induction ms generalizing n with
  | nil => rfl
  | cons m ms ih =>
      cases m with
      | fixed t => simp only [List.cons_append, fill, bound, ih]
      | slot label v =>
          by_cases h : p.binds v.kind = true
          · simp only [List.cons_append, fill, bound, h, if_true, ih, List.length_cons]
            rw [Nat.add_right_comm, Nat.add_assoc]
          · simp only [List.cons_append, fill, bound, h, if_false, ih, Bool.false_eq_true]
      | kept label v =>
          by_cases h : p.binds v.kind = true
          · simp only [List.cons_append, fill, bound, h, if_true, ih, List.length_cons]
            rw [Nat.add_right_comm, Nat.add_assoc]
          · simp only [List.cons_append, fill, bound, h, if_false, ih, Bool.false_eq_true]

/-- The text with which a policy fills marks when `n` values are bound already. -/
def filledText (p : Policy) (n : Nat) (ms : List Mark) : List Char := piecesText (fill p n ms)

theorem filledText_append (p : Policy) (n : Nat) (ms ns : List Mark) :
    filledText p n (ms ++ ns) =
      filledText p n ms ++ filledText p (n + (bound p n ms).length) ns := by
  unfold filledText piecesText
  rw [fill_append, List.flatMap_append]

/-- The entries of marks are numbered in order, behind the labels of their values. -/
theorem numbered_bound {P : String → Prop} (p : Policy) (n : Nat) {ms : List Mark}
    (h : ∀ m ∈ ms, ∀ label v, m.held? = some (label, v) → P label) :
    Numbered P n (bound p n ms) := by
  induction ms generalizing n with
  | nil => trivial
  | cons m ms ih =>
      obtain ⟨hm, hms⟩ := List.forall_mem_cons.1 h
      have hvalue : ∀ label v, m.held? = some (label, v) → Numbered P n
          (if p.binds v.kind then (entryName label n, v) :: bound p (n + 1) ms
            else bound p n ms) := by
        intro label v hv
        split
        · exact ⟨⟨label, hm label v hv, rfl⟩, ih (n + 1) hms⟩
        · exact ih n hms
      cases m with
      | fixed t => exact ih n hms
      | slot label v => exact hvalue label v rfl
      | kept label v => exact hvalue label v rfl

/-- The entries of marks hold their values, of kinds that are bound. -/
theorem held_of_mem_bound {p : Policy} {n : Nat} {ms : List Mark} {e : String × Value}
    (he : e ∈ bound p n ms) :
    (∃ m ∈ ms, ∃ label, m.held? = some (label, e.2)) ∧ p.binds e.2.kind = true := by
  induction ms generalizing n with
  | nil => cases he
  | cons m ms ih =>
      have hrest : ∀ {k}, e ∈ bound p k ms →
          (∃ m' ∈ m :: ms, ∃ label, m'.held? = some (label, e.2)) ∧
            p.binds e.2.kind = true := by
        intro k hk
        obtain ⟨⟨m', hmem, hheld⟩, hb⟩ := ih hk
        exact ⟨⟨m', List.mem_cons_of_mem m hmem, hheld⟩, hb⟩
      have hvalue : ∀ label v, m.held? = some (label, v) →
          e ∈ (if p.binds v.kind then (entryName label n, v) :: bound p (n + 1) ms
            else bound p n ms) →
          (∃ m' ∈ m :: ms, ∃ label, m'.held? = some (label, e.2)) ∧
            p.binds e.2.kind = true := by
        intro label v hv he
        split at he
        · next hb =>
            rcases List.mem_cons.1 he with rfl | he
            · exact ⟨⟨m, List.mem_cons_self, label, hv⟩, hb⟩
            · exact hrest he
        · exact hrest he
      cases m with
      | fixed t => exact hrest he
      | slot label v => exact hvalue label v rfl he
      | kept label v => exact hvalue label v rfl he

/-! ### What actions add -/

namespace Action

/-- The marks that an action adds when it does not fail. -/
def marks : Action → List Mark
  | write t => [.fixed t]
  | place label v => [.slot label v]
  | give label g =>
      match g.resolve with
      | .ok v => [.slot label v]
      | .error _ => []
  | keep label g =>
      match g.resolve with
      | .ok v => if (bindingError? label v).isNone then [.kept label v] else []
      | .error _ => []
  | require _ => []
  | fail _ => []

/-- The packages that an action asks for. -/
def packages : Action → List Package
  | require p => [p]
  | _ => []

end Action

theorem bindingError?_eq_none_iff {label : String} {v : Value} :
    bindingError? label v = none ↔ isIdentifier label = true ∧ v.HasLiteral := by
  unfold bindingError?
  split
  · next hlabel =>
      cases hv : v.checked with
      | error e =>
          have hno : ¬v.HasLiteral := fun h => by
            rw [Value.checked_eq_ok_iff.2 ⟨h, rfl⟩] at hv
            cases hv
          simp [hno]
      | ok w => simp [hlabel, (Value.checked_eq_ok_iff.1 hv).1]
  · next hlabel => simp [hlabel]

/-- A value is refused for its label or for its range. -/
theorem exists_reason_of_bindingError? {label : String} {v : Value} {e : Error}
    (h : bindingError? label v = some e) : ∃ name,
      e = .argument name (.notIdentifier label) ∨ ∃ t, e = .argument name (.outsideRange t) := by
  unfold bindingError? at h
  split at h
  · cases v with
    | instant t =>
        by_cases hrange : t.InRange
        · simp [Value.checked, Instant.checked, hrange, Except.map] at h
        · simp [Value.checked, Instant.checked, hrange, Except.map, Error.renamed] at h
          exact ⟨label, .inr ⟨t, h.symm⟩⟩
    | _ => simp [Value.checked] at h
  · cases h
    exact ⟨"prefix", .inl rfl⟩

/-- What is kept is a value that can be bound. -/
theorem Action.exists_of_mem_marks_keep {label : String} {g : Given} {m : Mark}
    (h : m ∈ (keep label g).marks) :
    ∃ v, m = .kept label v ∧ g.resolve = .ok v ∧ bindingError? label v = none := by
  rw [marks] at h
  split at h
  · next v hg =>
      split at h
      · next hbind =>
          exact ⟨v, List.mem_singleton.1 h, hg, Option.isNone_iff_eq_none.1 hbind⟩
      · cases h
  · cases h

/-- The values that an action adds, if it does not fail, have literals and identifiers as labels. -/
theorem Action.held_of_error?_eq_none {a : Action} (h : a.error? = none) {m : Mark}
    (hmem : m ∈ a.marks) {label : String} {v : Value} (hm : m.held? = some (label, v)) :
    isIdentifier label = true ∧ v.HasLiteral := by
  cases a with
  | write t =>
      obtain rfl := List.mem_singleton.1 hmem
      cases hm
  | require p => cases hmem
  | fail e => cases hmem
  | place label' w =>
      obtain rfl := List.mem_singleton.1 hmem
      cases hm
      exact bindingError?_eq_none_iff.1 h
  | give label' g =>
      rw [error?] at h
      rw [marks] at hmem
      cases hg : g.resolve with
      | error e =>
          rw [hg] at h
          cases h
      | ok w =>
          rw [hg] at h hmem
          obtain rfl := List.mem_singleton.1 hmem
          cases hm
          exact bindingError?_eq_none_iff.1 h
  | keep label' g =>
      obtain ⟨w, rfl, -, hbind⟩ := exists_of_mem_marks_keep hmem
      cases hm
      exact bindingError?_eq_none_iff.1 hbind

/-- What an action keeps it does not write. -/
theorem Action.fill_marks_keep (p : Policy) (n : Nat) (label : String) (g : Given) :
    fill p n (keep label g).marks = [] := by
  rw [marks]
  split
  · split
    · simp only [fill, ite_self]
    · rfl
  · rfl

/-- Nothing that a block binds is kept without being written. -/
def Overt (b : Block) : Prop := ∀ label g, .keep label g ∉ b

theorem Overt.write {b : Block} (h : Overt b) (t : List Char) : Overt (.write t :: b) :=
  fun label g hmem => h label g ((List.mem_cons.1 hmem).resolve_left Action.noConfusion)

theorem Overt.kept_notMem {b : Block} (h : Overt b) (label : String) (v : Value) :
    .kept label v ∉ b.flatMap Action.marks := by
  intro hmem
  obtain ⟨a, ha, hmark⟩ := List.mem_flatMap.1 hmem
  cases a with
  | write t => cases List.mem_singleton.1 hmark
  | place label' w => cases List.mem_singleton.1 hmark
  | give label' g =>
      rw [Action.marks] at hmark
      split at hmark
      · cases List.mem_singleton.1 hmark
      · cases hmark
  | keep label' g => exact h label' g ha
  | require q => cases hmark
  | fail e => cases hmark

/-- No action of a block fails. -/
def Clean (b : Block) : Prop := ∀ a ∈ b, a.error? = none

theorem Clean.append {b c : Block} (h : Clean (b ++ c)) : Clean b ∧ Clean c :=
  ⟨fun a ha => h a (List.mem_append_left c ha), fun a ha => h a (List.mem_append_right b ha)⟩

theorem Clean.tail {a : Action} {b : Block} (h : Clean (a :: b)) : Clean b := fun c hc =>
  h c (List.mem_cons_of_mem a hc)

/-- None of the actions before the first one that fails does. -/
theorem clean_takeWhile (b : Block) : Clean (b.takeWhile fun a => a.error?.isNone) := by
  intro a ha
  have hnone := List.mem_takeWhile_imp ha
  exact Option.isNone_iff_eq_none.1 hnone

/-! ### Imports -/

/-- Packages with one more, unless it is among them. -/
def addPackage (ps : List Package) (p : Package) : List Package :=
  if p ∈ ps then ps else ps ++ [p]

/-- Packages with others, one after the other. -/
def addPackages (ps qs : List Package) : List Package := qs.foldl addPackage ps

theorem addImport_eq (s : Settings) (p : Package) :
    s.addImport p = { s with imports := addPackage s.imports p } := by
  by_cases h : p ∈ s.imports
  · simp [Settings.addImport, addPackage, h]
  · simp [Settings.addImport, addPackage, h]

/-! ### Sessions after actions -/

namespace Session

/-- A session with the marks and the packages of actions. -/
def after (s : Session) (b : Block) : Session where
  output := s.output ++ fill s.table.policy s.table.size (b.flatMap Action.marks)
  settings := { s.settings with
    imports := addPackages s.settings.imports (b.flatMap Action.packages) }
  table := { s.table with
    entries := s.table.entries ++ bound s.table.policy s.table.size (b.flatMap Action.marks) }

variable {P : String → Prop} {s : Session}

theorem text_after (s : Session) (b : Block) :
    (s.after b).text =
      s.text ++ filledText s.table.policy s.table.size (b.flatMap Action.marks) :=
  List.flatMap_append

theorem after_nil (s : Session) : s.after [] = s := by
  simp [after, fill, bound, addPackages]

theorem after_after (s : Session) (b c : Block) : (s.after b).after c = s.after (b ++ c) := by
  simp [after, addPackages, Table.size, fill_append, bound_append]

/-- The place of a value behind entries that are numbered. -/
theorem put_place (hs : Numbered P 0 s.table.entries) (label : String) (v : Value) :
    s.put (s.table.place label v) = s.after [.place label v] := by
  by_cases h : s.table.policy.binds v.kind = true
  · simp [put, Table.place, nextName_eq, Table.size, hs.insertEntry_eq, h, after, Action.marks,
      Action.packages, addPackages, fill, bound]
  · simp [put, Table.place, h, after, Action.marks, Action.packages, addPackages, fill, bound]

/-- The table with a value behind entries that are numbered. -/
theorem place_eq {t : Table} (ht : Numbered P 0 t.entries) (label : String) (v : Value) :
    (t.place label v).2 =
      { t with entries := t.entries ++ bound t.policy t.size [.kept label v] } := by
  by_cases h : t.policy.binds v.kind = true
  · simp [Table.place, nextName_eq, Table.size, ht.insertEntry_eq, h, bound]
  · simp [Table.place, h, bound]

theorem bindValue_of_bindingError?_eq_none {t : Table} {label : String} {v : Value}
    (h : bindingError? label v = none) : t.bindValue label v = .ok (t.place label v) := by
  obtain ⟨hlabel, hv⟩ := bindingError?_eq_none_iff.1 h
  simp only [Table.bindValue, hlabel, if_true, Value.checked_eq_ok_iff.2 ⟨hv, rfl⟩]

/-- A table keeps what a caller holds if it can be bound. -/
theorem keep_eq {t : Table} (ht : Numbered P 0 t.entries) (label : String) (g : Given) :
    t.keep label g = { t with
      entries := t.entries ++ bound t.policy t.size (Action.keep label g).marks } := by
  unfold Table.keep Table.bind Action.marks
  cases hg : g.resolve with
  | error e => simp only [hg, bound, List.append_nil]
  | ok v =>
      cases hbind : bindingError? label v with
      | none =>
          simp only [hg, bindValue_of_bindingError?_eq_none hbind, Option.isNone_none, if_true,
            hbind]
          exact place_eq ht label v
      | some e =>
          simp only [hg, Table.bindValue_eq_error_iff.2 hbind, hbind, Option.isNone_some,
            Bool.false_eq_true, if_false, bound, List.append_nil]

/-- An action that does not fail adds its marks and its packages. -/
theorem act_eq (hs : Numbered P 0 s.table.entries) {a : Action} (h : a.error? = none) :
    s.act a = .ok (s.after [a]) := by
  cases a with
  | write t => simp [act, after, addPackages, Action.marks, Action.packages, fill, bound]
  | place label v =>
      have hbind := bindValue_of_bindingError?_eq_none (t := s.table) h
      simp only [act, hbind, Except.map, put_place hs]
  | give label g =>
      cases hg : g.resolve with
      | error e =>
          rw [Action.error?, hg] at h
          cases h
      | ok v =>
          simp only [Action.error?, hg] at h
          have hbind := bindValue_of_bindingError?_eq_none (t := s.table) h
          simp only [act, Table.bind, hg, hbind, Except.map, put_place hs]
          simp [after, addPackages, Action.marks, Action.packages, hg]
  | keep label g =>
      simp only [act, after, List.flatMap_singleton, Action.fill_marks_keep, List.append_nil,
        keep_eq hs]
      rfl
  | require q =>
      simp [act, after, addPackages, Action.marks, Action.packages, addImport_eq, fill, bound]
  | fail e => cases h

/-- Actions keep entries numbered. -/
theorem numbered_after (hs : Numbered P 0 s.table.entries) (b : Block) :
    Numbered (fun _ => True) 0 (s.after b).table.entries := by
  refine (hs.mono fun _ _ => trivial).append ?_
  rw [Nat.zero_add]
  exact numbered_bound _ _ fun _ _ _ _ _ => trivial

/-- **A block is performed up to the first of its actions that fails**, and ends with the error of
that action. -/
theorem perform_eq (hs : Numbered P 0 s.table.entries) (b : Block) :
    s.perform b =
      (s.after (b.takeWhile fun a => a.error?.isNone), b.findSome? Action.error?) := by
  induction b generalizing s P with
  | nil => rw [perform, List.takeWhile_nil, after_nil, List.findSome?_nil]
  | cons a b ih =>
      cases ha : a.error? with
      | some e =>
          rw [perform, act_eq_error_iff.2 ha]
          simp only [List.takeWhile_cons, List.findSome?_cons, ha, Option.isNone_some,
            Bool.false_eq_true, if_false, after_nil]
      | none =>
          rw [perform, act_eq hs ha]
          simp only [List.takeWhile_cons, List.findSome?_cons, ha, Option.isNone_none, if_true,
            ih (numbered_after hs [a]), after_after, List.singleton_append]

/-- A block none of whose actions fails is performed as a whole. -/
theorem perform_eq_after (hs : Numbered P 0 s.table.entries) {b : Block}
    (h : b.findSome? Action.error? = none) : s.perform b = (s.after b, none) := by
  have hall : ∀ a ∈ b, a.error?.isNone = true := by
    intro a ha
    rw [List.findSome?_eq_none_iff.1 h a ha]
    rfl
  rw [perform_eq hs, List.takeWhile_eq_self_iff.2 hall, h]

/-- A block that is written adds the marks and the packages of all its actions. -/
theorem eq_of_performBlock {s' : Session} (hs : Numbered P 0 s.table.entries) {b : Block}
    (h : s.performBlock b = (s', none)) :
    b.findSome? Action.error? = none ∧ s' = s.after b := by
  cases hb : b.findSome? Action.error? with
  | some e =>
      rw [performBlock, perform_eq hs, hb] at h
      cases h
  | none =>
      rw [performBlock, perform_eq_after hs hb] at h
      cases h
      exact ⟨rfl, rfl⟩

/-- **A plan that is written adds the marks and the packages of all its actions**, none of which
fails. -/
theorem eq_of_run {s' : Session} (hs : Numbered P 0 s.table.entries) {plan : Plan}
    (h : s.run plan = (s', none)) :
    Clean plan.flatten ∧ s' = s.after plan.flatten := by
  induction plan generalizing s P with
  | nil =>
      constructor
      · intro a ha
        cases ha
      · rw [← (Prod.mk.inj h).1]
        exact (after_nil s).symm
  | cons b plan ih =>
      rw [run] at h
      cases hblock : s.performBlock b with
      | mk s₁ e =>
          cases e with
          | some e =>
              rw [hblock] at h
              cases h
          | none =>
              rw [hblock] at h
              obtain ⟨hb, rfl⟩ := eq_of_performBlock hs hblock
              obtain ⟨hplan, rfl⟩ := ih (numbered_after hs b) h
              refine ⟨fun a ha => ?_, after_after s b plan.flatten⟩
              rcases List.mem_append.1 ha with ha | ha
              · exact List.findSome?_eq_none_iff.1 hb a ha
              · exact hplan a ha

end Session

/-! ### Errors of plans -/

namespace Session

/-- The error of actions is that of the first one that fails. -/
theorem perform_error (s : Session) (b : Block) : (s.perform b).2 = b.findSome? Action.error? := by
  induction b generalizing s with
  | nil => rfl
  | cons a b ih =>
      rw [perform, List.findSome?_cons]
      cases hact : s.act a with
      | error e => rw [act_eq_error_iff.1 hact]
      | ok s₁ =>
          cases herror : a.error? with
          | none => exact ih s₁
          | some e =>
              rw [act_eq_error_iff.2 herror] at hact
              cases hact

theorem performBlock_error (s : Session) (b : Block) :
    (s.performBlock b).2 = b.findSome? Action.error? := by
  rw [← perform_error s b, performBlock]
  rcases s.perform b with ⟨s₁, e⟩
  cases e <;> rfl

/-- The error of a plan is that of its first action that fails, whatever was done before. -/
theorem run_error (s : Session) (plan : Plan) :
    (s.run plan).2 = plan.flatten.findSome? Action.error? := by
  induction plan generalizing s with
  | nil => rfl
  | cons b plan ih =>
      rw [run, List.flatten_cons, List.findSome?_append, ← performBlock_error s b]
      rcases s.performBlock b with ⟨s₁, e⟩
      cases e with
      | some e => rfl
      | none => exact ih s₁

end Session

/-! ### Sound tables -/

/-- The names of the entries are identifiers that are numbered in order, and the values are of kinds
that the policy binds and have literals. -/
structure Table.Sound (t : Table) : Prop where
  numbered : Numbered (fun label => isIdentifier label = true) 0 t.entries
  binds_kind : ∀ e ∈ t.entries, t.policy.binds e.2.kind = true
  hasLiteral : ∀ e ∈ t.entries, e.2.HasLiteral

namespace Table.Sound

theorem empty (p : Policy) : (Table.empty p).Sound where
  numbered := trivial
  binds_kind e he := by cases he
  hasLiteral e he := by cases he

/-- The name of an entry is an identifier and no word of the query language. -/
theorem isIdentifier_of_mem {t : Table} (h : t.Sound) {e : String × Value} (he : e ∈ t.entries) :
    isIdentifier e.1 = true ∧ e.1 ∉ keywords := by
  obtain ⟨i, hi, hget⟩ := List.mem_iff_getElem.1 he
  obtain ⟨label, hlabel, hname⟩ :=
    h.numbered.exists_label (List.getElem?_eq_some_iff.2 ⟨hi, hget⟩)
  rw [hname]
  exact ⟨isIdentifier_entryName hlabel _, entryName_notMem_keywords label _⟩

/-- Actions that do not fail keep a table sound. -/
theorem after {s : Session} (h : s.table.Sound) {b : Block} (hb : Clean b) :
    (s.after b).table.Sound := by
  have hheld : ∀ m ∈ b.flatMap Action.marks, ∀ label v, m.held? = some (label, v) →
      isIdentifier label = true ∧ v.HasLiteral := by
    intro m hmem label v hm
    obtain ⟨a, ha, hmark⟩ := List.mem_flatMap.1 hmem
    exact Action.held_of_error?_eq_none (hb a ha) hmark hm
  refine ⟨h.numbered.append ?_, ?_, ?_⟩
  · rw [Nat.zero_add]
    exact numbered_bound _ _ fun m hmem label v hm => (hheld m hmem label v hm).1
  · intro e he
    rcases List.mem_append.1 he with he | he
    · exact h.binds_kind e he
    · exact (held_of_mem_bound he).2
  · intro e he
    rcases List.mem_append.1 he with he | he
    · exact h.hasLiteral e he
    · obtain ⟨⟨m, hmem, label, hm⟩, -⟩ := held_of_mem_bound he
      exact (hheld m hmem label e.2 hm).2

/-- What is performed of a block keeps a table sound. -/
theorem perform {s : Session} (h : s.table.Sound) (b : Block) : (s.perform b).1.table.Sound := by
  rw [Session.perform_eq h.numbered]
  exact h.after (clean_takeWhile b)

/-- So does the block, which leaves the same table. -/
theorem performBlock {s : Session} (h : s.table.Sound) (b : Block) :
    (s.performBlock b).1.table.Sound := by
  have hperform := h.perform b
  unfold Session.performBlock
  generalize s.perform b = r at hperform ⊢
  obtain ⟨s₁, e⟩ := r
  cases e with
  | none => exact hperform
  | some e => exact hperform

end Table.Sound

end BoundQuery
