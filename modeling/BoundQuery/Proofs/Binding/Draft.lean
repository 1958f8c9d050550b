/-
**Drafts: what is written before a policy decides.**

Actions do not look at the policy: they write fixed text, leave slots for values, and ask for
packages.  What they have done so far is a draft.  A policy turns a draft into a session: the
slots whose values it binds become references to entries, which are named in the order of the
slots, and the other slots are filled with literals.  Writing a block on a draft and then choosing
the policy is the same as choosing the policy and then writing the block on the session.

Main definitions:

* `BoundQuery.Draft`, `BoundQuery.Draft.session` — a draft, and its session under a policy;
* `BoundQuery.Draft.complete` — a draft after a block.

Main results:

* `BoundQuery.Draft.session_complete` — the policy may be chosen before a block or after it; a block
  fails with the first error of its actions or adds the marks and the packages of all of them.
-/

import BoundQuery.Pipeline.Stage
import BoundQuery.Proofs.Binding.Mark

set_option relaxedAutoImplicit false
set_option autoImplicit false

namespace BoundQuery

/-- The session after actions, if none of them fails, and else the first error. -/
theorem Session.complete_eq {P : String → Prop} {s : Session} (hs : Numbered P 0 s.table.entries)
    (b : Block) : s.complete b = match b.findSome? Action.error? with
      | some e => .error e
      | none => .ok (s.after b) := by
  unfold complete
  cases h : b.findSome? Action.error? with
  | some e => rw [perform_eq hs, h]
  | none => rw [perform_eq_after hs h]

/-! ### Drafts -/

/-- What was written so far, before a policy decides which values are bound. -/
structure Draft where
  marks : List Mark
  now : Option Instant
  imports : List Package

namespace Draft

/-- The settings of a draft under a policy. -/
def settings (d : Draft) (p : Policy) : Settings := ⟨p, d.now, d.imports⟩

/-- The session of a draft under a policy. -/
def session (d : Draft) (p : Policy) : Session :=
  ⟨fill p 0 d.marks, d.settings p, ⟨p, bound p 0 d.marks⟩⟩

/-- The draft in which nothing is written. -/
def ofSettings (s : Settings) : Draft := ⟨[], s.now, s.imports⟩

theorem session_ofSettings (s : Settings) : (ofSettings s).session s.policy = .ofSettings s := rfl

/-- A draft with the marks and the packages of actions. -/
def after (d : Draft) (b : Block) : Draft where
  marks := d.marks ++ b.flatMap Action.marks
  now := d.now
  imports := addPackages d.imports (b.flatMap Action.packages)

/-- A draft after a block none of whose actions fails. -/
def complete (d : Draft) (b : Block) : Except Error Draft :=
  match b.findSome? Action.error? with
  | some e => .error e
  | none => .ok (d.after b)

/-! ### Sessions of drafts -/

theorem numbered_session (d : Draft) (p : Policy) :
    Numbered (fun _ => True) 0 (d.session p).table.entries :=
  numbered_bound p 0 fun _ _ _ _ _ => trivial

theorem session_after (d : Draft) (p : Policy) (b : Block) :
    (d.session p).after b = (d.after b).session p := by
  simp [Session.after, session, settings, after, Table.size, fill_append, bound_append]

/-! ### Blocks -/

/-- **The policy may be chosen before a block or after it.** -/
theorem session_complete (d : Draft) (p : Policy) (b : Block) :
    (d.session p).complete b = (d.complete b).map fun d => d.session p := by
  rw [Session.complete_eq (d.numbered_session p), complete, session_after]
  cases b.findSome? Action.error? with
  | some e => rfl
  | none => rfl

/-- A block that is written leaves the session of the draft with its marks and packages. -/
theorem eq_of_performBlock {d : Draft} {p : Policy} {b : Block} {s : Session}
    (h : (d.session p).performBlock b = (s, none)) :
    b.findSome? Action.error? = none ∧ s = (d.after b).session p := by
  rw [← session_after]
  exact Session.eq_of_performBlock (d.numbered_session p) h

end Draft

end BoundQuery
