/-
**Writing behind what is written already.**

Whether a plan is carried out to its end or not, nothing that was written, bound or imported before
is touched.  Of the session before it a plan sees one thing only, the number of entries: behind
`n` of them it writes and binds what it does in a new session, with `n` added to the number in the
name of every entry it makes.

Main definitions:

* `BoundQuery.renumbered`, `BoundQuery.Piece.renumbered` — the name of an entry, and a piece, behind
  more entries;
* `BoundQuery.Session.Continues` — a session is another one with what stands in a third one behind
  it.

Main results:

* `BoundQuery.fill_add`, `BoundQuery.bound_add` — what a policy makes of marks behind more entries;
* `BoundQuery.addPackages_addPackages` — what is imported behind other packages;
* `BoundQuery.Session.Continues.performBlock` — a block keeps a session the continuation of
  another;
* `BoundQuery.Session.continues_run` — so does a plan;
* `BoundQuery.Session.exists_of_run_eq_some` — where a plan stops that fails.
-/

import BoundQuery.Proofs.Binding.Mark

set_option relaxedAutoImplicit false
set_option autoImplicit false

namespace BoundQuery

/-! ### Names behind more entries -/

/-- The name of an entry with `n` more entries before it: the number that the name ends in is
greater by `n`. -/
def renumbered (n : Nat) (name : String) : String :=
  let parts := takeDigits name.toList.reverse
  String.ofList (parts.2.reverse ++ decimal (n + ofDigits parts.1.reverse))

theorem renumbered_entryName (n : Nat) (label : String) (k : Nat) :
    renumbered n (entryName label k) = entryName label (n + k) := by
  unfold renumbered
  rw [takeDigits_reverse_entryName]
  refine String.toList_inj.1 ?_
  simp [toList_entryName, ofDigits_decimal]

/-- An entry with `n` more entries before it. -/
def renumberedEntry (n : Nat) (e : String × Value) : String × Value := (renumbered n e.1, e.2)

/-- A piece with `n` more entries before those that were made with it. -/
def Piece.renumbered (n : Nat) : Piece → Piece
  | fixed t => fixed t
  | place name v => place (name.map (BoundQuery.renumbered n)) v

/-- Behind `n` more entries a policy makes the same pieces of marks, but for the numbers. -/
theorem fill_add (p : Policy) (n k : Nat) (ms : List Mark) :
    fill p (n + k) ms = (fill p k ms).map (Piece.renumbered n) := by
  induction ms generalizing k with
  | nil => rfl
  | cons m ms ih =>
      cases m with
      | fixed t => simp only [fill, List.map_cons, Piece.renumbered, ih]
      | slot label v =>
          by_cases h : p.binds v.kind = true
          · simp only [fill, h, if_true, List.map_cons, Piece.renumbered, Option.map_some,
              renumbered_entryName, Nat.add_assoc, ih]
          · simp only [fill, h, if_false, Bool.false_eq_true, List.map_cons, Piece.renumbered,
              Option.map_none, ih]
      | kept label v =>
          by_cases h : p.binds v.kind = true
          · simp only [fill, h, if_true, Nat.add_assoc, ih]
          · simp only [fill, h, if_false, Bool.false_eq_true, ih]

/-- Behind `n` more entries a policy makes the same entries of marks, but for the numbers. -/
theorem bound_add (p : Policy) (n k : Nat) (ms : List Mark) :
    bound p (n + k) ms = (bound p k ms).map (renumberedEntry n) := by
  induction ms generalizing k with
  | nil => rfl
  | cons m ms ih =>
      have hvalue : ∀ (label : String) (v : Value),
          (if p.binds v.kind then (entryName label (n + k), v) :: bound p (n + k + 1) ms
            else bound p (n + k) ms) =
          (if p.binds v.kind then (entryName label k, v) :: bound p (k + 1) ms
            else bound p k ms).map (renumberedEntry n) := by
        intro label v
        by_cases h : p.binds v.kind = true
        · simp only [h, if_true, List.map_cons, renumberedEntry, renumbered_entryName,
            Nat.add_assoc, ih]
        · simp only [h, if_false, Bool.false_eq_true, ih]
      cases m with
      | fixed t => simp only [bound, ih]
      | slot label v => exact hvalue label v
      | kept label v => exact hvalue label v

/-! ### Packages -/

/-- Packages that are imported stay in front. -/
theorem prefix_addPackages (ps qs : List Package) : ps <+: addPackages ps qs := by
  unfold addPackages
  induction qs generalizing ps with
  | nil => exact List.prefix_refl ps
  | cons q qs ih =>
      have hone : ps <+: addPackage ps q := by
        unfold addPackage
        split
        · exact List.prefix_refl ps
        · exact List.prefix_append ps [q]
      exact hone.trans (ih (addPackage ps q))

/-- All packages that are asked for are imported. -/
theorem mem_addPackages {ps qs : List Package} {q : Package} (h : q ∈ qs) :
    q ∈ addPackages ps qs := by
  obtain ⟨before, behind, rfl⟩ := List.append_of_mem h
  have hone : q ∈ addPackage (addPackages ps before) q := by
    unfold addPackage
    split
    · assumption
    · exact List.mem_append_right _ (List.mem_singleton_self q)
  have hsplit : addPackages ps (before ++ q :: behind) =
      addPackages (addPackage (addPackages ps before) q) behind := List.foldl_append
  rw [hsplit]
  exact (prefix_addPackages _ behind).subset hone

/-- Packages are imported behind others as those are that would be imported without them. -/
theorem addPackages_addPackages (ps qs rs : List Package) :
    addPackages ps (addPackages qs rs) = addPackages (addPackages ps qs) rs := by
  induction rs generalizing qs with
  | nil => rfl
  | cons r rs ih =>
      have hone : addPackages ps (addPackage qs r) = addPackage (addPackages ps qs) r := by
        by_cases hr : r ∈ qs
        · rw [addPackage, if_pos hr, addPackage, if_pos (mem_addPackages hr)]
        · rw [addPackage, if_neg hr]
          exact List.foldl_append
      have hcons : ∀ xs, addPackages xs (r :: rs) = addPackages (addPackage xs r) rs := fun _ => rfl
      rw [hcons, hcons, ih, hone]

namespace Session

/-! ### Where a plan stops -/

/-- Actions that fail do so at one of them, behind others that do not. -/
theorem exists_of_perform_eq_some {s s' : Session} {b : Block} {e : Error}
    (h : s.perform b = (s', some e)) : ∃ before a behind, b = before ++ a :: behind ∧
      s.perform before = (s', none) ∧ a.error? = some e := by
  induction b generalizing s with
  | nil => cases h
  | cons a b ih =>
      rw [perform] at h
      cases hact : s.act a with
      | error f =>
          rw [hact] at h
          cases h
          exact ⟨[], a, b, rfl, rfl, act_eq_error_iff.1 hact⟩
      | ok s₁ =>
          rw [hact] at h
          obtain ⟨before, a', behind, rfl, hbefore, herror⟩ := ih h
          refine ⟨a :: before, a', behind, rfl, ?_, herror⟩
          rw [perform, hact]
          exact hbefore

/-- A block that fails does so at one of its actions; what those before it have bound and imported
stays, and nothing of the block is written. -/
theorem exists_of_performBlock_eq_some {s s' : Session} {b : Block} {e : Error}
    (h : s.performBlock b = (s', some e)) : ∃ before a behind s₁, b = before ++ a :: behind ∧
      s.performBlock before = (s₁, none) ∧ a.error? = some e ∧
        s' = { s₁ with output := s.output } := by
  rw [performBlock] at h
  cases hb : s.perform b with
  | mk s₁ f =>
      rw [hb] at h
      cases f with
      | none => cases h
      | some f =>
          cases h
          obtain ⟨before, a, behind, rfl, hbefore, herror⟩ := exists_of_perform_eq_some hb
          refine ⟨before, a, behind, s₁, rfl, ?_, herror, rfl⟩
          rw [performBlock, hbefore]

/-- A block of one action that fails leaves the session as it was. -/
theorem eq_of_performBlock_singleton {s s' : Session} {a : Action} {e : Error}
    (h : s.performBlock [a] = (s', some e)) : s' = s := by
  rw [performBlock, perform] at h
  cases hact : s.act a with
  | error f =>
      rw [hact] at h
      exact (Prod.mk.inj h).1.symm
  | ok s₁ =>
      rw [hact] at h
      cases h

/-- A plan that fails does so at one of its blocks, behind others that do not. -/
theorem exists_of_run_eq_some {s s' : Session} {plan : Plan} {e : Error}
    (h : s.run plan = (s', some e)) : ∃ before b behind s₁, plan = before ++ b :: behind ∧
      s.run before = (s₁, none) ∧ s₁.performBlock b = (s', some e) := by
  induction plan generalizing s with
  | nil => cases h
  | cons b plan ih =>
      rw [run] at h
      cases hb : s.performBlock b with
      | mk s₁ f =>
          rw [hb] at h
          cases f with
          | some f =>
              cases h
              exact ⟨[], b, plan, s, rfl, rfl, hb⟩
          | none =>
              obtain ⟨before, b', behind, s₂, rfl, hbefore, hblock⟩ := ih h
              refine ⟨b :: before, b', behind, s₂, rfl, ?_, hblock⟩
              rw [run, hb]
              exact hbefore

/-! ### Continuations -/

/-- A session is `base` with what stands in `f` behind it: the numbers of the entries of `f` go on
where those of `base` end, and of its imports those are added that `base` does not have.  The
policy and the present are as they were. -/
structure Continues (base f s : Session) : Prop where
  output : s.output = base.output ++ f.output.map (Piece.renumbered base.table.size)
  entries : s.table.entries =
    base.table.entries ++ f.table.entries.map (renumberedEntry base.table.size)
  imports : s.settings.imports = addPackages base.settings.imports f.settings.imports
  settings_policy : s.settings.policy = base.settings.policy
  now : s.settings.now = base.settings.now
  policy : s.table.policy = base.table.policy

namespace Continues

variable {base f s : Session} {P Q : String → Prop}

/-- A new session continues every other one. -/
theorem ofPolicy (base : Session) (p : Policy) :
    Continues base (.ofSettings (.ofPolicy p)) base where
  output := (List.append_nil _).symm
  entries := (List.append_nil _).symm
  imports := rfl
  settings_policy := rfl
  now := rfl
  policy := rfl

theorem size (h : Continues base f s) : s.table.size = base.table.size + f.table.size := by
  unfold Table.size
  rw [h.entries, List.length_append, List.length_map]

/-- Actions add the same to both sessions, but for the numbers. -/
theorem after (h : Continues base f s) (hpolicy : f.table.policy = base.table.policy) (b : Block) :
    Continues base (f.after b) (s.after b) where
  output := by
    simp only [Session.after, h.size, h.policy, hpolicy, fill_add, h.output, List.map_append,
      List.append_assoc]
  entries := by
    simp only [Session.after, h.size, h.policy, hpolicy, bound_add, h.entries, List.map_append,
      List.append_assoc]
  imports := by
    simp only [Session.after, h.imports, addPackages_addPackages]
  settings_policy := h.settings_policy
  now := h.now
  policy := h.policy

/-- A block keeps a session the continuation of another, whether it fails or not. -/
theorem performBlock (h : Continues base f s) (hpolicy : f.table.policy = base.table.policy)
    (hs : Numbered P 0 s.table.entries) (hf : Numbered Q 0 f.table.entries) (b : Block) :
    Continues base (f.performBlock b).1 (s.performBlock b).1 := by
  unfold Session.performBlock
  rw [perform_eq hs, perform_eq hf]
  have hafter := h.after hpolicy (b.takeWhile fun a => a.error?.isNone)
  cases b.findSome? Action.error? with
  | none => exact hafter
  | some e =>
      exact ⟨h.output, hafter.entries, hafter.imports, hafter.settings_policy, hafter.now,
        hafter.policy⟩

end Continues

/-- A block keeps the entries numbered and the policy. -/
theorem numbered_performBlock {P : String → Prop} {s : Session}
    (hs : Numbered P 0 s.table.entries) (b : Block) :
    Numbered (fun _ => True) 0 (s.performBlock b).1.table.entries ∧
      (s.performBlock b).1.table.policy = s.table.policy := by
  unfold performBlock
  rw [perform_eq hs]
  have hafter := numbered_after hs (b.takeWhile fun a => a.error?.isNone)
  cases b.findSome? Action.error? with
  | none => exact ⟨hafter, rfl⟩
  | some e => exact ⟨hafter, rfl⟩

/-- **A plan keeps a session the continuation of another**, whether it fails or not. -/
theorem continues_run {P Q : String → Prop} {base f s : Session} (h : Continues base f s)
    (hpolicy : f.table.policy = base.table.policy) (hs : Numbered P 0 s.table.entries)
    (hf : Numbered Q 0 f.table.entries) (plan : Plan) :
    Continues base (f.run plan).1 (s.run plan).1 := by
  induction plan generalizing s f P Q with
  | nil => exact h
  | cons b plan ih =>
      have hone := h.performBlock hpolicy hs hf b
      have herror : (f.performBlock b).2 = (s.performBlock b).2 := by
        rw [performBlock_error, performBlock_error]
      obtain ⟨hs₁, -⟩ := numbered_performBlock hs b
      obtain ⟨hf₁, hpolicy₁⟩ := numbered_performBlock hf b
      rw [run, run]
      -- the block fails in both sessions or in none of them
      rcases hsb : s.performBlock b with ⟨s₁, e⟩
      rcases hfb : f.performBlock b with ⟨f₁, e'⟩
      rw [hsb, hfb] at hone herror
      rw [hsb] at hs₁
      rw [hfb] at hf₁ hpolicy₁
      obtain rfl : e' = e := herror
      cases e' with
      | some e => exact hone
      | none => exact ih hone (hpolicy₁.trans hpolicy) hs₁ hf₁

end Session

end BoundQuery
