/-
**The functions of callers.**

A caller may give a function instead of a text.  The function gets the table and binds values in it,
one at a time or those of a template, in any order and as often as it likes; it looks at the table
and at what every call returned before it goes on, and ends with a text or an error of its own.
Nothing that it decides by what it sees takes it further than a script does: in every session, one
run of it is the run of a script that keeps what the calls have bound and ends in the same way.  So
what holds of all scripts holds of the functions of callers.

Main definitions:

* `BoundQuery.Closure`, `BoundQuery.Closure.run` — a caller's function, and what it makes of a
  table;
* `BoundQuery.Session.performClosure` — a session in which its text is written;
* `BoundQuery.Session.runWith` — blocks and functions of callers one after the other, as they stand
  in a predicate;
* `BoundQuery.Table.Call.script` — a script that keeps what a call binds.

Main results:

* `BoundQuery.Closure.exists_calls` — a run of a function makes calls, and the table is that after
  them;
* `BoundQuery.Closure.exists_script` — **a run of a function is that of a script**;
* `BoundQuery.Session.exists_plan` — so is one among blocks;
* `BoundQuery.Session.exists_source`, `BoundQuery.Session.exists_filter` — so is one that makes a
  source, and so are those in the predicate of a filter.
-/

import BoundQuery.Proofs.Binding.Calls

set_option relaxedAutoImplicit false
set_option autoImplicit false

namespace BoundQuery

/-! ### Functions of callers -/

/-- What a caller's function does. -/
inductive Closure where
  /-- It ends with a text or an error. -/
  | done (result : Except Error (List Char))
  /-- It looks at the table. -/
  | look (next : Table → Closure)
  /-- It calls the table and looks at what the call returns. -/
  | call (c : Table.Call) (next : Except Error (List Char) → Closure)

namespace Closure

/-- The table after a caller's function, and the result. -/
def run : Closure → Table → Table × Except Error (List Char)
  | done r, t => (t, r)
  | look next, t => (next t).run t
  | call c next, t => (next (t.call c).2).run (t.call c).1

/-- **A run of a function makes calls**, and the table is that after them. -/
theorem exists_calls (f : Closure) (t : Table) : ∃ cs, (f.run t).1 = t.calls cs := by
  induction f generalizing t with
  | done r => exact ⟨[], rfl⟩
  | look next ih => exact ih t t
  | call c next ih =>
      obtain ⟨cs, hcs⟩ := ih (t.call c).2 (t.call c).1
      exact ⟨c :: cs, hcs⟩

end Closure

/-- The session after a caller's function: its text is written as it is, and its error is one of
its own, of which the wording is known (`Error.message_stated`). -/
def Session.performClosure (s : Session) (f : Closure) : Session × Option Error :=
  match f.run s.table with
  | (t, .ok text) => ({ s with output := s.output ++ [.fixed text], table := t }, none)
  | (t, .error e) => ({ s with table := t }, some e.stated)

/-! ### Calls as steps of a script -/

/-- The step of a script that keeps what an action binds. -/
def Action.kept? : Action → Option Step
  | place label v => some (.keep label (.value v))
  | give label g => some (.keep label g)
  | keep label g => some (.keep label g)
  | _ => none

/-- A script that keeps what a call binds. -/
def Table.Call.script (c : Table.Call) : Script := c.performed.filterMap Action.kept?

/-- All that a block does is to keep values. -/
def Keeps (b : Block) : Prop := ∀ a ∈ b, ∃ label g, a = .keep label g

namespace Keeps

variable {b c : Block}

theorem append (hb : Keeps b) (hc : Keeps c) : Keeps (b ++ c) := List.forall_mem_append.2 ⟨hb, hc⟩

/-- To keep a value does not fail. -/
theorem clean (hb : Keeps b) : Clean b := by
  intro a ha
  obtain ⟨label, g, rfl⟩ := hb a ha
  rfl

/-- To keep values writes nothing and imports nothing. -/
theorem after_eq (hb : Keeps b) (s : Session) :
    s.after b = { s with table := { s.table with
      entries := s.table.entries ++
        bound s.table.policy s.table.size (b.flatMap Action.marks) } } := by
  have hfill : ∀ n, fill s.table.policy n (b.flatMap Action.marks) = [] := by
    induction b with
    | nil => exact fun n => rfl
    | cons a b ih =>
        obtain ⟨⟨label, g, rfl⟩, hrest⟩ := List.forall_mem_cons.1 hb
        intro n
        rw [List.flatMap_cons, fill_append, Action.fill_marks_keep, ih hrest, List.append_nil]
  have hpackages : b.flatMap Action.packages = [] := by
    refine List.flatMap_eq_nil_iff.2 fun a ha => ?_
    obtain ⟨label, g, rfl⟩ := hb a ha
    rfl
  simp only [Session.after, hfill, hpackages, List.append_nil]
  rfl

end Keeps

theorem Script.block_append (s t : Script) : block (s ++ t) = s.block ++ t.block :=
  List.map_append

theorem keeps_block_kept? (b : Block) : Keeps (Script.block (b.filterMap Action.kept?)) := by
  intro a ha
  obtain ⟨step, hstep, rfl⟩ := List.mem_map.1 ha
  obtain ⟨a', -, hkept⟩ := List.mem_filterMap.1 hstep
  cases a' with
  | place label v => cases hkept; exact ⟨label, .value v, rfl⟩
  | give label g => cases hkept; exact ⟨label, g, rfl⟩
  | keep label g => cases hkept; exact ⟨label, g, rfl⟩
  | write t => cases hkept
  | require p => cases hkept
  | fail e => cases hkept

theorem keeps_script_calls (cs : List Table.Call) :
    Keeps (Script.block (cs.flatMap Table.Call.script)) := by
  induction cs with
  | nil => exact fun a ha => (List.not_mem_nil ha).elim
  | cons c cs ih =>
      rw [List.flatMap_cons, Script.block_append]
      exact (keeps_block_kept? c.performed).append ih

/-- What an action binds is bound alike when it is only kept. -/
theorem bound_marks_kept? (p : Policy) (n : Nat) {a : Action} (h : a.error? = none) :
    bound p n ((Script.block a.kept?.toList).flatMap Action.marks) = bound p n a.marks := by
  have hmark : ∀ {label : String} {v : Value} {g : Given}, g.resolve = .ok v →
      bindingError? label v = none →
      bound p n ((Script.block [.keep label g]).flatMap Action.marks) =
        bound p n [.slot label v] := by
    intro label v g hg hbind
    simp [Script.block, Step.action, Action.marks, hg, hbind, bound]
  cases a with
  | write t => rfl
  | require q => rfl
  | fail e => cases h
  | keep label g => simp [Action.kept?, Script.block, Step.action]
  | place label v =>
      obtain ⟨-, hv⟩ := bindingError?_eq_none_iff.1 h
      exact hmark (Value.checked_eq_ok_iff.2 ⟨hv, rfl⟩) h
  | give label g =>
      rw [Action.error?] at h
      cases hg : g.resolve with
      | error e =>
          rw [hg] at h
          cases h
      | ok v =>
          rw [hg] at h
          rw [Action.marks, hg]
          exact hmark hg h

/-- What a block binds is bound alike when it is only kept. -/
theorem bound_flatMap_kept? (p : Policy) (n : Nat) {b : Block} (hb : Clean b) :
    bound p n ((Script.block (b.filterMap Action.kept?)).flatMap Action.marks) =
      bound p n (b.flatMap Action.marks) := by
  induction b generalizing n with
  | nil => rfl
  | cons a b ih =>
      have hsplit : (a :: b).filterMap Action.kept? =
          a.kept?.toList ++ b.filterMap Action.kept? := by
        cases ha : a.kept? with
        | none => exact List.filterMap_cons_none ha
        | some step => exact List.filterMap_cons_some ha
      rw [hsplit, Script.block_append, List.flatMap_append, bound_append,
        bound_marks_kept? p n (hb a List.mem_cons_self), ih _ hb.tail, ← bound_append,
        List.flatMap_cons]

/-! ### Functions as scripts -/

namespace Session

variable {s : Session}

/-- To keep what a call binds leaves the table as the call does. -/
theorem after_script_call (hs : s.table.Sound) (c : Table.Call) :
    s.after c.script.block = { s with table := (s.table.call c).1 } := by
  rw [Table.Call.script, (keeps_block_kept? c.performed).after_eq s, Table.call_eq hs, Table.added]
  exact congrArg (fun es => { s with table := { s.table with entries := s.table.entries ++ es } })
    (bound_flatMap_kept? _ _ (clean_takeWhile c.block))

/-- To keep what calls bind, one after the other, leaves the table as the calls do. -/
theorem after_script_calls (hs : s.table.Sound) (cs : List Table.Call) :
    s.after (Script.block (cs.flatMap Table.Call.script)) =
      { s with table := s.table.calls cs } := by
  induction cs generalizing s with
  | nil => exact after_nil s
  | cons c cs ih =>
      have hrest := ih (s := { s with table := (s.table.call c).1 }) (hs.call c)
      rw [List.flatMap_cons, Script.block_append, ← after_after, after_script_call hs, hrest]
      rfl

/-- What is kept stays, and a text behind it is written. -/
theorem performBlock_keeps_write (hs : s.table.Sound) {b : Block} (hb : Keeps b) (t : List Char) :
    s.performBlock (b ++ [.write t]) =
      ({ s.after b with output := s.output ++ [.fixed t] }, none) := by
  have hnone : (b ++ [Action.write t]).findSome? Action.error? = none := by
    refine List.findSome?_eq_none_iff.2 fun a ha => ?_
    rcases List.mem_append.1 ha with ha | ha
    · exact hb.clean a ha
    · rw [List.mem_singleton.1 ha]
      rfl
  rw [performBlock, perform_eq_after hs.numbered hnone, ← after_after, hb.after_eq]
  simp only [after, List.flatMap_singleton, Action.marks, Action.packages, fill, bound,
    List.append_nil]
  rfl

/-- What is kept stays although the block gives up behind it. -/
theorem performBlock_keeps_fail (hs : s.table.Sound) {b : Block} (hb : Keeps b) (e : Error) :
    s.performBlock (b ++ [.fail e]) = (s.after b, some e) := by
  have hall : ∀ a ∈ b, a.error?.isNone = true := fun a ha => by rw [hb.clean a ha]; rfl
  have htake : (b ++ [Action.fail e]).takeWhile (fun a => a.error?.isNone) = b := by
    rw [List.takeWhile_append_of_pos hall]
    exact List.append_nil b
  have hfind : (b ++ [Action.fail e]).findSome? Action.error? = some e := by
    rw [List.findSome?_append, List.findSome?_eq_none_iff.2 hb.clean]
    rfl
  rw [performBlock, perform_eq hs.numbered, htake, hfind, hb.after_eq]

end Session

/-- **A run of a function is that of a script**, which keeps what the calls have bound and ends as
the function does. -/
theorem Closure.exists_script (f : Closure) {s : Session} (hs : s.table.Sound) :
    ∃ script : Script, s.performBlock script.block = s.performClosure f := by
  obtain ⟨cs, hcs⟩ := f.exists_calls s.table
  have hkeeps := keeps_script_calls cs
  have hafter := Session.after_script_calls hs cs
  unfold Session.performClosure
  generalize f.run s.table = r at hcs
  obtain ⟨t, result⟩ := r
  obtain rfl : t = s.table.calls cs := hcs
  cases result with
  | ok text =>
      refine ⟨cs.flatMap Table.Call.script ++ [.write (String.ofList text)], ?_⟩
      have hend : Script.block [.write (String.ofList text)] = [.write text] := by
        simp only [Script.block, List.map_cons, List.map_nil, Step.action, String.toList_ofList]
      rw [Script.block_append, hend, Session.performBlock_keeps_write hs hkeeps, hafter]
  | error e =>
      refine ⟨cs.flatMap Table.Call.script ++ [.giveUp e], ?_⟩
      have hend : Script.block [.giveUp e] = [.fail e.stated] := rfl
      rw [Script.block_append, hend, Session.performBlock_keeps_fail hs hkeeps, hafter]

/-! ### Functions among blocks -/

namespace Session

/-- The session after blocks and functions of callers up to the first one that fails, and its
error. -/
def runWith (s : Session) : List (Block ⊕ Closure) → Session × Option Error
  | [] => (s, none)
  | part :: parts =>
      match part.elim s.performBlock s.performClosure with
      | (s, none) => s.runWith parts
      | (s, some e) => (s, some e)

/-- A block stands where a block or a function was, which is made by a script then. -/
inductive StandsFor : Block ⊕ Closure → Block → Prop where
  | block (b : Block) : StandsFor (.inl b) b
  | script (f : Closure) (script : Script) : StandsFor (.inr f) script.block

/-- **Functions among blocks run like scripts in their places.** -/
theorem exists_plan {s : Session} (hs : s.table.Sound) (parts : List (Block ⊕ Closure)) :
    ∃ plan : Plan, List.Forall₂ StandsFor parts plan ∧ s.run plan = s.runWith parts := by
  induction parts generalizing s with
  | nil => exact ⟨[], .nil, rfl⟩
  | cons part parts ih =>
      obtain ⟨b, hb, hperform⟩ : ∃ b, StandsFor part b ∧
          s.performBlock b = part.elim s.performBlock s.performClosure := by
        cases part with
        | inl b => exact ⟨b, .block b, rfl⟩
        | inr f =>
            obtain ⟨script, hscript⟩ := f.exists_script hs
            exact ⟨script.block, .script f script, hscript⟩
      obtain ⟨plan, hplan, hrun⟩ := ih (hs.performBlock b)
      refine ⟨b :: plan, .cons hb hplan, ?_⟩
      rw [run, runWith, ← hperform]
      generalize s.performBlock b = r at hrun
      obtain ⟨s₁, e⟩ := r
      cases e with
      | none => exact hrun
      | some e => rfl

/-- The session with a source that a caller's function makes. -/
def addClosure (s : Session) (f : Closure) : Except Error Session :=
  if s.isEmpty then
    match s.performClosure f with
    | (s, none) => .ok s
    | (_, some e) => .error e
  else .error (.argument "flux" .sourceNotFirst)

theorem complete_eq_performBlock (s : Session) (b : Block) :
    s.complete b = match s.performBlock b with
      | (s, none) => .ok s
      | (_, some e) => .error e := by
  unfold complete performBlock
  rcases s.perform b with ⟨s₁, e⟩
  cases e with
  | none => rfl
  | some e => rfl

/-- **A source that a function makes is one that a script makes.** -/
theorem exists_source {s : Session} (hs : s.table.Sound) (f : Closure) :
    ∃ script : Script, s.add (.scriptSource script) = s.addClosure f := by
  obtain ⟨script, hscript⟩ := f.exists_script hs
  refine ⟨script, ?_⟩
  rw [add, Stage.form, addForm, addClosure, complete_eq_performBlock, hscript]

/-- The session without what was written in it. -/
def cleared (s : Session) : Session := { s with output := [] }

/-- What a filter begins with. -/
def filterOpening : List Char := "filter(fn: (r) => ".toList

/-- The session with a filter by blocks and functions of callers, which are written by themselves
first. -/
def filterWith (s : Session) (parts : List (Block ⊕ Closure)) : Except Error Session :=
  match s.cleared.runWith parts with
  | (s', none) => .ok { s' with output := s.output ++ .fixed s.pipe :: .fixed filterOpening ::
      (s'.output ++ [.fixed [')']]) }
  | (_, some e) => .error e

/-- What is written between a pipe and a parenthesis may be written by itself first. -/
theorem after_between (s : Session) (b : Block) (opening closing : List Char) :
    s.after (.write s.pipe :: .write opening :: b ++ [.write closing]) =
      { s.cleared.after b with output := s.output ++ .fixed s.pipe :: .fixed opening ::
          ((s.cleared.after b).output ++ [.fixed closing]) } := by
  simp [after, cleared, Action.marks, Action.packages, fill, bound, fill_append, bound_append]

/-- **A filter with functions in its predicate is one with scripts in their places.** -/
theorem exists_filter {s : Session} (hs : s.table.Sound) (parts : List (Block ⊕ Closure)) :
    ∃ plan : Plan, List.Forall₂ StandsFor parts plan ∧
      s.addForm (.piped (.write filterOpening :: plan.flatten ++ [.write [')']])) =
        s.filterWith parts := by
  obtain ⟨plan, hplan, hrun⟩ := exists_plan (s := s.cleared) hs parts
  refine ⟨plan, hplan, ?_⟩
  have herror := run_error s.cleared plan
  have hfind : (.write s.pipe :: .write filterOpening :: plan.flatten ++
      [.write [')']] : Block).findSome? Action.error? = plan.flatten.findSome? Action.error? := by
    simp [List.findSome?_cons, List.findSome?_append, Action.error?]
  have hcomplete := complete_eq hs.numbered (.write s.pipe :: .write filterOpening ::
    plan.flatten ++ [.write [')']])
  rw [hfind, ← herror, after_between] at hcomplete
  refine hcomplete.trans ?_
  rw [filterWith, ← hrun]
  cases hresult : s.cleared.run plan with
  | mk s' e =>
      cases e with
      | some e => rfl
      | none =>
          obtain ⟨-, rfl⟩ := eq_of_run (s := s.cleared) hs.numbered hresult
          rfl

end Session

end BoundQuery
