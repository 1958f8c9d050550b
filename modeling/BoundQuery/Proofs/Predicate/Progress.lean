/-
**How far a predicate gets.**

A predicate is written item by item: the parentheses and the words between them, the sides of its
comparisons, its templates and its scripts, depth first and from left to right.  Where one of them
cannot be written, all that stands before it has been, and stays.  The item itself adds nothing,
save that the values before the bad one of a template keep their entries, without the text.

Main definitions:

* `BoundQuery.Predicate.Item`, `BoundQuery.Predicate.items` — the items of a predicate, in order;
* `BoundQuery.Predicate.Item.Stops` — an item that cannot be written, and the session it leaves.

Main results:

* `BoundQuery.Predicate.plan_eq_map_items` — a predicate is written as its items are;
* `BoundQuery.Predicate.Item.stops_of_performBlock` — an item that fails does so in one of the ways
  of `Stops`;
* `BoundQuery.Predicate.run_continues` — **a predicate only adds to a session, by its number of
  entries alone, and up to the first of its items that cannot be written**.
-/

import BoundQuery.Proofs.Binding.Calls
import BoundQuery.Proofs.Binding.Continuation
import BoundQuery.Proofs.Predicate.Faults

set_option relaxedAutoImplicit false
set_option autoImplicit false

namespace BoundQuery

/-- A list that is mapped to others around one comes apart where they do. -/
theorem exists_of_map_eq_append_cons {α β : Type} {f : α → β} {xs : List α} {ys zs : List β}
    {b : β} (h : xs.map f = ys ++ b :: zs) :
    ∃ us x vs, xs = us ++ x :: vs ∧ us.map f = ys ∧ f x = b := by
  obtain ⟨us, ws, rfl, hus, hws⟩ := List.map_eq_append_iff.1 h
  obtain ⟨x, vs, rfl, hx, -⟩ := List.map_eq_cons_iff.1 hws
  exact ⟨us, x, vs, rfl, hus, hx⟩

namespace Predicate

/-! ### Items -/

/-- What a predicate is made of. -/
inductive Item where
  /-- A parenthesis, the word between two members of a group or the sign of a comparison. -/
  | sign (text : List Char)
  /-- A side of a comparison. -/
  | side (label : String) (o : Operand)
  /-- A group without members. -/
  | hollow
  | template (t : Template) (label : String)
  | script (s : Script)

/-- How an item is written. -/
def Item.block : Item → Block
  | sign text => [.write text]
  | side label o => o.block label
  | hollow => [.fail (.argument "conditions" .emptyGroup)]
  | template t label => t.block label
  | script s => s.block

mutual

/-- The items of a predicate, depth first and from left to right. -/
def items : Predicate → List Item
  | compare left how right label =>
      [.side label left, .sign (spaced how.sign), .side label right]
  | group _ [] => [.hollow]
  | group c (p :: ps) => .sign ['('] :: p.items ++ restItems c ps ++ [.sign [')']]
  | template t label => [.template t label]
  | script s => [.script s]

/-- The items of the members of a group behind the first one. -/
def restItems (c : Connective) : List Predicate → List Item
  | [] => []
  | p :: ps => .sign (spaced c.word) :: p.items ++ restItems c ps

end

mutual

/-- **A predicate is written as its items are.** -/
theorem plan_eq_map_items : ∀ p : Predicate, p.plan = p.items.map Item.block
  | compare left how right label => rfl
  | group _ [] => rfl
  | group c (p :: ps) => by
      have hshape : (group c (p :: ps)).items =
          .sign ['('] :: p.items ++ restItems c ps ++ [.sign [')']] := rfl
      rw [plan, plan_eq_map_items p, restPlan_eq_map_restItems c ps, hshape, List.map_append,
        List.map_append]
      rfl
  | template t label => rfl
  | script s => rfl

theorem restPlan_eq_map_restItems (c : Connective) : ∀ ps : List Predicate,
    restPlan c ps = (restItems c ps).map Item.block
  | [] => rfl
  | p :: ps => by
      rw [restPlan, restItems, plan_eq_map_items p, restPlan_eq_map_restItems c ps,
        List.map_append]
      rfl

end

/-! ### Items that cannot be written -/

/-- An item that cannot be written in a session `s`, for the reason `e`, and the session it
leaves. -/
inductive Item.Stops (s : Session) (e : Error) : Item → Session → Prop where
  /-- A side of a comparison leaves the session as it was. -/
  | side {label : String} {o : Operand} (h : (o.faults label).head? = some e) :
      Stops s e (.side label o) s
  /-- So does a group without members. -/
  | hollow (h : e = .argument "conditions" .emptyGroup) : Stops s e .hollow s
  /-- A template leaves what the parts before its bad value have bound, but not their text. -/
  | template {t : Template} {label : String} {before behind : List Template.Part} {v : Value}
      {s₁ : Session} (hparts : t.parts = before ++ .value v :: behind)
      (hbefore : s.performBlock (before.map (Template.Part.action label)) = (s₁, none))
      (hv : (valueFaults label v).head? = some e) :
      Stops s e (.template t label) { s₁ with output := s.output }
  /-- So does a script with its steps. -/
  | script {before behind : List Step} {step : Step} {s₁ : Session}
      (hbefore : s.performBlock (before.map Step.action) = (s₁, none))
      (hstep : step.action.error? = some e) :
      Stops s e (.script (before ++ step :: behind)) { s₁ with output := s.output }

namespace Item

variable {s s' : Session} {e : Error}

/-- **An item that fails** was a side of a comparison, a group without members, or a template or a
script that was written in part. -/
theorem stops_of_performBlock {item : Item} (h : s.performBlock item.block = (s', some e)) :
    item.Stops s e s' := by
  have herror : item.block.findSome? Action.error? = some e := by
    rw [← Session.performBlock_error s, h]
  cases item with
  | sign text => cases herror
  | hollow =>
      obtain rfl := Session.eq_of_performBlock_singleton h
      exact .hollow (Option.some.inj herror).symm
  | side label o =>
      rw [block, Operand.findSome?_block] at herror
      have hs : s' = s := by
        cases o with
        | column c => cases herror
        | value v => exact Session.eq_of_performBlock_singleton h
        | absent => exact Session.eq_of_performBlock_singleton h
      subst hs
      exact .side herror
  | template t label =>
      obtain ⟨before, a, behind, s₁, hblock, hbefore, ha, rfl⟩ :=
        Session.exists_of_performBlock_eq_some h
      obtain ⟨parts, part, others, hparts, rfl, rfl⟩ := exists_of_map_eq_append_cons hblock
      cases part with
      | raw u => cases ha
      | value v => exact .template hparts hbefore ((head?_valueFaults label v).trans ha)
  | script steps =>
      obtain ⟨before, a, behind, s₁, hblock, hbefore, ha, rfl⟩ :=
        Session.exists_of_performBlock_eq_some h
      obtain ⟨done, step, others, rfl, rfl, rfl⟩ := exists_of_map_eq_append_cons hblock
      exact .script hbefore ha

end Item

/-! ### All sessions -/

/-- **A predicate only adds to a session.**  Whether it can be written or not, it does so with the
same error and the same pieces, entries and imports as in a new session with the same policy, but
that the numbers of the entries go on behind those that are there.  If it cannot be written, all
the items before the first bad one have been, and the bad one stops there.

The tables `Table.Sound` speaks of are those that calls make from an empty one, by
`Table.sound_iff_exists_calls`. -/
theorem run_continues {s s' : Session} {r : Option Error} (p : Predicate) (hs : s.table.Sound)
    (hrun : s.run p.plan = (s', r)) :
    (∃ f, (Session.ofSettings (.ofPolicy s.table.policy)).run p.plan = (f, r) ∧
      s.Continues f s') ∧
    s.text <+: s'.text ∧ s.table.entries <+: s'.table.entries ∧
    s.settings.imports <+: s'.settings.imports ∧
    ∀ e, r = some e → ∃ before item behind s₁, p.items = before ++ item :: behind ∧
      s.run (before.map Item.block) = (s₁, none) ∧ item.Stops s₁ e s' := by
  have hfresh : Numbered (fun _ => True) 0
      (Session.ofSettings (.ofPolicy s.table.policy)).table.entries := trivial
  have hcontinues := Session.continues_run (Session.Continues.ofPolicy s s.table.policy) rfl
    hs.numbered hfresh p.plan
  rw [hrun] at hcontinues
  refine ⟨⟨_, Prod.ext rfl ?_, hcontinues⟩, ?_, ?_, ?_, ?_⟩
  · have hr : (s.run p.plan).2 = r := by rw [hrun]
    rw [← hr, Session.run_error, Session.run_error]
  · rw [Session.text, Session.text, hcontinues.output, piecesText, piecesText,
      List.flatMap_append]
    exact List.prefix_append _ _
  · rw [hcontinues.entries]
    exact List.prefix_append _ _
  · rw [hcontinues.imports]
    exact prefix_addPackages _ _
  · intro e he
    subst he
    obtain ⟨before, b, behind, s₁, hplan, hbefore, hb⟩ := Session.exists_of_run_eq_some hrun
    rw [plan_eq_map_items] at hplan
    obtain ⟨items, item, others, hitems, rfl, rfl⟩ := exists_of_map_eq_append_cons hplan
    exact ⟨items, item, others, s₁, hitems, hbefore, Item.stops_of_performBlock hb⟩

/-- The first value of a template keeps its entry, though the second one is out of range; the text
ends before the template. -/
theorem run_continues_halfTemplate : ∃ (s s' : Session) (p : Predicate) (e : Error),
    s = ⟨[.fixed "r.a or ".toList], .ofPolicy .all, ⟨.all, [("a_0", .boolean true)]⟩⟩ ∧
    p = .any [.tagIs ("b", "c"), .ofTemplate (((Template.empty.value (.boolean false)).raw
      " < ").value (.instant ⟨9223372037, 0, by decide⟩))] ∧
    s' = ⟨[.fixed "r.a or ".toList, .fixed ['('], .fixed "record.get(r: r, key: ".toList,
        .place "filter_key_1" (.text "b"), .fixed ", default: \"\")".toList, .fixed " == ".toList,
        .place "filter_value_2" (.text "c"), .fixed " or ".toList], ⟨.all, none, [.record]⟩,
      ⟨.all, [("a_0", .boolean true), ("filter_key_1", .text "b"), ("filter_value_2", .text "c"),
        ("filter_withCustomFlux_3", .boolean false)]⟩⟩ ∧
    e = .argument "filter_withCustomFlux" (.outsideRange ⟨9223372037, 0, by decide⟩) ∧
    s.table.Sound ∧ s.run p.plan = (s', some e) ∧ s.text <+: s'.text := by
  have hs : Table.Sound ⟨.all, [("a_0", .boolean true)]⟩ :=
    Table.sound_iff_exists_calls.2 ⟨[.bindValue "a" (.boolean true)], rfl⟩
  refine ⟨_, _, _, _, rfl, rfl, rfl, rfl, hs, ?hrun, (run_continues _ hs ?hrun).2.1⟩
  rfl

end Predicate

end BoundQuery
