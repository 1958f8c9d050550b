/-
**The table after calls that bind values.**

Callers bind values one at a time, or those of a template one after the other.  Whatever they ask
for, and whether it succeeds or not, the table only grows at its end: every entry is numbered by
the entries before it and named for the call that made it.

Main definitions:

* `BoundQuery.Table.Call` — a call that binds values;
* `BoundQuery.Table.call`, `BoundQuery.Table.calls` — a table after one call, with what the call
  returns, and after several.

Main results:

* `BoundQuery.Table.call_eq` — what a call adds and returns;
* `BoundQuery.Table.Sound.calls` — calls keep a table sound;
* `BoundQuery.Table.prefix_calls` — no call changes or removes an entry;
* `BoundQuery.Table.sound_iff_exists_calls` — the sound tables are those that calls make;
* `BoundQuery.Table.calls_grow` — **the table after any calls**.
-/

import BoundQuery.Proofs.Binding.Reference
import Mathlib.Data.List.Induction

set_option relaxedAutoImplicit false
set_option autoImplicit false

namespace BoundQuery

namespace Table

/-! ### Calls -/

/-- A call that binds a value, what a caller holds, or the values of a template, under a label. -/
inductive Call where
  | bind (label : String) (given : Given)
  | bindValue (label : String) (value : Value)
  | bindTemplate (label : String) (template : Template)

namespace Call

/-- The label under which a call binds. -/
def label : Call → String
  | bind label _ => label
  | bindValue label _ => label
  | bindTemplate label _ => label

/-- What a call does. -/
def block : Call → Block
  | bind label g => [.give label g]
  | bindValue label v => [.place label v]
  | bindTemplate label t => t.block label

/-- Whether a call binds the values of a template. -/
def isTemplate : Call → Bool
  | bindTemplate _ _ => true
  | _ => false

/-- The value that a call binds, where it is one. -/
def value? : Call → Option Value
  | bind _ g => g.resolve.toOption
  | bindValue _ v => some v
  | bindTemplate _ _ => none

/-- The actions of a call before the first one that fails. -/
def performed (c : Call) : Block := c.block.takeWhile fun a => a.error?.isNone

end Call

/-- The table after a call, and the text that the call returns. -/
def call (t : Table) (c : Call) : Table × Except Error (List Char) :=
  match (Session.mk [] (.ofPolicy t.policy) t).performBlock c.block with
  | (s, none) => (s.table, .ok s.text)
  | (s, some e) => (s.table, .error e)

/-- The table after calls, whether they fail or not. -/
def calls (t : Table) (cs : List Call) : Table := cs.foldl (fun t c => (t.call c).1) t

/-! ### One call -/

/-- The entries that a call makes. -/
def added (t : Table) (c : Call) : List (String × Value) :=
  bound t.policy t.size (c.performed.flatMap Action.marks)

variable {t : Table}

/-- What a call adds, and what it returns. -/
theorem call_eq (h : t.Sound) (c : Call) :
    t.call c = ({ t with entries := t.entries ++ t.added c },
      match c.block.findSome? Action.error? with
      | some e => .error e
      | none => .ok (piecesText (fill t.policy t.size (c.performed.flatMap Action.marks)))) := by
  have hperform := Session.perform_eq (s := ⟨[], .ofPolicy t.policy, t⟩) h.numbered c.block
  unfold call Session.performBlock
  rw [hperform]
  cases c.block.findSome? Action.error? with
  | some e => rfl
  | none => simp [Session.after, Session.text, added, Call.performed]

theorem entries_call (h : t.Sound) (c : Call) : (t.call c).1.entries = t.entries ++ t.added c := by
  rw [call_eq h]

theorem policy_call (h : t.Sound) (c : Call) : (t.call c).1.policy = t.policy := by
  rw [call_eq h]

theorem Sound.call (h : t.Sound) (c : Call) : (t.call c).1.Sound := by
  have hperform := Sound.perform (s := ⟨[], .ofPolicy t.policy, t⟩) h c.block
  have hperformed := Session.perform_eq (s := ⟨[], .ofPolicy t.policy, t⟩) h.numbered c.block
  rw [hperformed] at hperform
  rw [call_eq h]
  exact hperform

/-- A call has one label for all of its values. -/
theorem Call.label_of_held {c : Call} {m : Mark} (h : m ∈ c.block.flatMap Action.marks)
    {label : String} {v : Value} (hm : m.held? = some (label, v)) : label = c.label := by
  obtain ⟨a, ha, hmark⟩ := List.mem_flatMap.1 h
  cases c with
  | bind l g =>
      obtain rfl := List.mem_singleton.1 ha
      rw [Action.marks] at hmark
      split at hmark
      · obtain rfl := List.mem_singleton.1 hmark
        cases hm
        rfl
      · cases hmark
  | bindValue l w =>
      obtain rfl := List.mem_singleton.1 ha
      obtain rfl := List.mem_singleton.1 hmark
      cases hm
      rfl
  | bindTemplate l template =>
      obtain ⟨part, -, rfl⟩ := List.mem_map.1 ha
      cases part with
      | raw u =>
          obtain rfl := List.mem_singleton.1 hmark
          cases hm
      | value w =>
          obtain rfl := List.mem_singleton.1 hmark
          cases hm
          rfl

/-- What a call adds is named for it. -/
theorem numbered_added (t : Table) (c : Call) : Numbered (· = c.label) t.size (t.added c) := by
  refine numbered_bound _ _ fun m hmem label v hm => Call.label_of_held ?_ hm
  obtain ⟨a, ha, hmark⟩ := List.mem_flatMap.1 hmem
  exact List.mem_flatMap.2 ⟨a, List.takeWhile_sublist _ |>.subset ha, hmark⟩

/-! ### Calls one after the other -/

theorem calls_cons (t : Table) (c : Call) (cs : List Call) :
    t.calls (c :: cs) = (t.call c).1.calls cs := rfl

/-- Calls keep a table sound. -/
theorem Sound.calls (h : t.Sound) (cs : List Call) : (t.calls cs).Sound := by
  induction cs generalizing t with
  | nil => exact h
  | cons c cs ih => exact ih (h.call c)

theorem policy_calls (h : t.Sound) (cs : List Call) : (t.calls cs).policy = t.policy := by
  induction cs generalizing t with
  | nil => rfl
  | cons c cs ih => rw [calls_cons, ih (h.call c), policy_call h]

/-- No call changes or removes an entry. -/
theorem prefix_calls (h : t.Sound) (cs : List Call) : t.entries <+: (t.calls cs).entries := by
  induction cs generalizing t with
  | nil => exact List.prefix_refl _
  | cons c cs ih =>
      have hone : t.entries <+: (t.call c).1.entries := by
        rw [entries_call h]
        exact List.prefix_append _ _
      exact hone.trans (ih (h.call c))

/-- An entry that was not there before some calls was made by one of them, and is named for it. -/
theorem exists_call_of_entry (h : t.Sound) {cs : List Call} {i : Nat} {e : String × Value}
    (hi : t.size ≤ i) (he : (t.calls cs).entries[i]? = some e) :
    ∃ before c behind, cs = before ++ c :: behind ∧ (t.calls before).size ≤ i ∧
      i < (t.calls (before ++ [c])).size ∧ e.1 = entryName c.label i := by
  induction cs generalizing t with
  | nil =>
      obtain ⟨hlt, -⟩ := List.getElem?_eq_some_iff.1 he
      exact absurd hlt (Nat.not_lt.2 hi)
  | cons c cs ih =>
      have hone := entries_call h c
      by_cases hlt : i < (t.call c).1.size
      · -- the first call made it, and the others left it where it was
        have hget : (t.call c).1.entries[i]? = some e := by
          obtain ⟨es, hes⟩ := prefix_calls (h.call c) cs
          rw [calls_cons, ← hes, List.getElem?_append_left hlt] at he
          exact he
        rw [hone, List.getElem?_append_right hi] at hget
        obtain ⟨label, rfl, hname⟩ := (numbered_added t c).exists_label hget
        have hnumber : t.size + (i - t.entries.length) = i := Nat.add_sub_cancel' hi
        rw [hnumber] at hname
        exact ⟨[], c, cs, rfl, hi, hlt, hname⟩
      · obtain ⟨before, c', behind, rfl, hlow, hhigh, hname⟩ :=
          ih (h.call c) (Nat.not_lt.1 hlt) he
        exact ⟨c :: before, c', behind, rfl, hlow, hhigh, hname⟩

/-- An entry behind others is found by its name. -/
theorem get?_of_prefix {u : Table} (hu : u.Sound) {es : List (String × Value)} {label : String}
    {v : Value} (h : es ++ [(entryName label es.length, v)] <+: u.entries) :
    u.get? (entryName label es.length) = some v := by
  obtain ⟨fs, hfs⟩ := h
  rw [List.append_assoc, List.singleton_append] at hfs
  rw [get?, ← hfs]
  refine lookup_entryName fun e he => ?_
  obtain ⟨i, hi, hget⟩ := List.mem_iff_getElem.1 he
  have hget' : u.entries[i]? = some e := by
    rw [← hfs, List.getElem?_append_left hi]
    exact List.getElem?_eq_some_iff.2 ⟨hi, hget⟩
  obtain ⟨l, -, hname⟩ := hu.numbered.exists_label hget'
  rw [Nat.zero_add] at hname
  exact ⟨l, i, hi, hname⟩

/-! ### Calls that bind one value -/

/-- A call that binds one value and fails leaves the table as it was. -/
theorem call_of_error (h : t.Sound) {c : Call} (hc : c.isTemplate = false) {u : Table} {e : Error}
    (hcall : t.call c = (u, .error e)) : u = t := by
  -- there is one action, and it is the one that fails
  have hnone : ∀ a, c.block = [a] → t.call c = (u, .error e) → t.added c = [] := by
    intro a ha hcall
    rw [call_eq h, ha] at hcall
    cases hf : a.error? with
    | none => simp [List.findSome?, hf] at hcall
    | some e' => simp [added, Call.performed, ha, hf, bound]
  have hadded : t.added c = [] := by
    cases c with
    | bind l g => exact hnone _ rfl hcall
    | bindValue l v => exact hnone _ rfl hcall
    | bindTemplate l template => cases hc
  rw [call_eq h, hadded, List.append_nil] at hcall
  exact (Prod.mk.inj hcall).1.symm

/-- A call that binds one value and succeeds makes one entry for it and returns a reference to the
entry, or makes none and returns the literal. -/
theorem call_of_ok (h : t.Sound) {c : Call} (hc : c.isTemplate = false) {u : Table}
    {text : List Char} (hcall : t.call c = (u, .ok text)) :
    ∃ v, c.value? = some v ∧
      ((t.policy.binds v.kind = true ∧
          u.entries = t.entries ++ [(entryName c.label t.size, v)] ∧
          text = tableName.toList ++ '.' :: (entryName c.label t.size).toList) ∨
        (t.policy.binds v.kind = false ∧ u = t ∧ text = v.literal)) := by
  have hone : ∀ a v, c.block = [a] → a.error? = none → a.marks = [.slot c.label v] →
      ((t.policy.binds v.kind = true ∧
          u.entries = t.entries ++ [(entryName c.label t.size, v)] ∧
          text = tableName.toList ++ '.' :: (entryName c.label t.size).toList) ∨
        (t.policy.binds v.kind = false ∧ u = t ∧ text = v.literal)) := by
    intro a v ha hf hmarks
    rw [call_eq h] at hcall
    simp only [added, Call.performed, ha, List.takeWhile, List.findSome?, hf, Option.isNone_none,
      List.flatMap_cons, List.flatMap_nil, List.append_nil, hmarks] at hcall
    obtain ⟨rfl, htext⟩ := Prod.mk.inj hcall
    obtain rfl := Except.ok.inj htext
    cases hb : t.policy.binds v.kind with
    | true => exact Or.inl (by simp [bound, fill, hb, piecesText, Piece.text])
    | false => exact Or.inr (by simp [bound, fill, hb, piecesText, Piece.text])
  -- the call did not fail, so its action did not
  have hclean : ∀ a ∈ c.block, a.error? = none := by
    rw [call_eq h] at hcall
    cases hf : c.block.findSome? Action.error? with
    | none => exact List.findSome?_eq_none_iff.1 hf
    | some e =>
        rw [hf] at hcall
        cases (Prod.mk.inj hcall).2
  cases c with
  | bindTemplate l template => cases hc
  | bindValue l v => exact ⟨v, rfl, hone _ v rfl (hclean _ List.mem_cons_self) rfl⟩
  | bind l g =>
      have hf := hclean _ List.mem_cons_self
      cases hg : g.resolve with
      | error e =>
          rw [Action.error?, hg] at hf
          cases hf
      | ok v =>
          refine ⟨v, by simp [Call.value?, hg, Except.toOption], hone _ v rfl hf ?_⟩
          simp [Action.marks, hg, Call.label]

/-! ### Tables that calls make -/

/-- A value that is bound under an identifier goes behind the entries. -/
theorem entries_call_bindValue (h : t.Sound) {label : String} {v : Value}
    (hlabel : isIdentifier label = true) (hv : v.HasLiteral) (hbinds : t.policy.binds v.kind = true) :
    (t.call (.bindValue label v)).1.entries = t.entries ++ [(entryName label t.size, v)] := by
  have herror : (Action.place label v).error? = none := bindingError?_eq_none_iff.2 ⟨hlabel, hv⟩
  have hperformed : (Call.bindValue label v).performed = [.place label v] := by
    simp [Call.performed, Call.block, herror]
  rw [entries_call h, added, hperformed]
  simp [Action.marks, bound, hbinds]

/-- The entries before the last one are those of a sound table. -/
theorem Sound.init {policy : Policy} {es : List (String × Value)} {e : String × Value}
    (h : Sound ⟨policy, es ++ [e]⟩) : Sound ⟨policy, es⟩ where
  numbered := h.numbered.of_append
  binds_kind e' he' := h.binds_kind e' (List.mem_append_left [e] he')
  hasLiteral e' he' := h.hasLiteral e' (List.mem_append_left [e] he')

/-- **The sound tables are those that calls make.** -/
theorem sound_iff_exists_calls : t.Sound ↔ ∃ cs, (empty t.policy).calls cs = t := by
  constructor
  · intro h
    obtain ⟨policy, es⟩ := t
    -- the entries are bound one after the other, each under the label of its name
    induction es using List.reverseRecOn with
    | nil => exact ⟨[], rfl⟩
    | append_singleton es e ih =>
        obtain ⟨cs, hcs⟩ := ih h.init
        have hget : (es ++ [e])[es.length]? = some e := by simp
        obtain ⟨label, hlabel, hname⟩ := h.numbered.exists_label hget
        have hmem : e ∈ es ++ [e] := List.mem_append_right es (List.mem_singleton_self e)
        have hentries := entries_call_bindValue h.init hlabel (h.hasLiteral e hmem)
          (h.binds_kind e hmem)
        have hpolicy := policy_call h.init (.bindValue label e.2)
        refine ⟨cs ++ [.bindValue label e.2], ?_⟩
        rw [Nat.zero_add] at hname
        have hlast : (empty policy).calls (cs ++ [.bindValue label e.2]) =
            (((empty policy).calls cs).call (.bindValue label e.2)).1 := List.foldl_append
        rw [hlast, hcs]
        generalize Table.call ⟨policy, es⟩ (.bindValue label e.2) = r at hentries hpolicy
        obtain ⟨⟨policy', es'⟩, text⟩ := r
        obtain rfl : policy' = policy := hpolicy
        obtain rfl : es' = es ++ [(entryName label es.length, e.2)] := hentries
        rw [← hname]
  · rintro ⟨cs, hcs⟩
    have hsound := (Sound.empty t.policy).calls cs
    rwa [hcs] at hsound

/-! ### Any calls -/

/-- **The table after any calls.**  Every entry is named for the call that made it and numbered by
its place; all names are different identifiers and none is a word of the query language; every
value is of a kind that is bound; and whatever is called next leaves these entries where they are.
A call that binds one value and fails changes nothing; one that succeeds makes one entry, to which
it returns a reference and under whose name the value is found from then on, or makes none and
returns the literal of a value of a kind that is not bound. -/
theorem calls_grow (p : Policy) (cs : List Call) :
    (∀ i e, ((empty p).calls cs).entries[i]? = some e → ∃ before c behind,
      cs = before ++ c :: behind ∧ ((empty p).calls before).size ≤ i ∧
        i < ((empty p).calls (before ++ [c])).size ∧ e.1 = entryName c.label i) ∧
    (((empty p).calls cs).entries.map Prod.fst).Nodup ∧
    (∀ e ∈ ((empty p).calls cs).entries,
      isIdentifier e.1 = true ∧ e.1 ∉ keywords ∧ p.binds e.2.kind = true) ∧
    (∀ more, ((empty p).calls cs).entries <+: ((empty p).calls (cs ++ more)).entries) ∧
    (∀ c u e, c.isTemplate = false → ((empty p).calls cs).call c = (u, .error e) →
      u = (empty p).calls cs) ∧
    ∀ c u text, c.isTemplate = false → ((empty p).calls cs).call c = (u, .ok text) →
      ∃ v, c.value? = some v ∧
        ((p.binds v.kind = true ∧ ∃ name, name = entryName c.label ((empty p).calls cs).size ∧
            u.entries = ((empty p).calls cs).entries ++ [(name, v)] ∧
            text = tableName.toList ++ '.' :: name.toList ∧
            ∀ more, (u.calls more).get? name = some v) ∨
          (p.binds v.kind = false ∧ u = (empty p).calls cs ∧ text = v.literal)) := by
  have hstart := Sound.empty p
  have hsound := hstart.calls cs
  have hpolicy : ((empty p).calls cs).policy = p := policy_calls hstart cs
  refine ⟨fun i e he => exists_call_of_entry hstart (Nat.zero_le i) he, hsound.numbered.nodup,
    fun e he => ?_, fun more => ?_, fun c u e hc hcall => call_of_error hsound hc hcall,
    fun c u text hc hcall => ?_⟩
  · have hbinds := hsound.binds_kind e he
    rw [hpolicy] at hbinds
    exact ⟨(hsound.isIdentifier_of_mem he).1, (hsound.isIdentifier_of_mem he).2, hbinds⟩
  · have happend : (empty p).calls (cs ++ more) = ((empty p).calls cs).calls more :=
      List.foldl_append
    rw [happend]
    exact prefix_calls hsound more
  · obtain ⟨v, hv, hcases⟩ := call_of_ok hsound hc hcall
    rw [hpolicy] at hcases
    refine ⟨v, hv, ?_⟩
    rcases hcases with ⟨hb, hentries, htext⟩ | hfree
    · refine Or.inl ⟨hb, _, rfl, hentries, htext, fun more => ?_⟩
      have hu : u.Sound := by
        have hnext := hsound.call c
        rwa [hcall] at hnext
      refine get?_of_prefix (hu.calls more) ?_
      have hkept := prefix_calls hu more
      rwa [hentries] at hkept
    · exact Or.inr hfree

/-- A label that looks like a name does no harm, and a call under a blank label leaves no gap. -/
theorem calls_grow_blank_label :
    ∃ t, t = (empty .all).calls [.bindValue "a_1" (.boolean true), .bindValue " " (.boolean true),
        .bindValue "a" (.boolean false)] ∧
      t.entries.map Prod.fst = ["a_1_0", "a_1"] ∧ (t.entries.map Prod.fst).Nodup ∧
      ∃ u e, t.call (.bindValue " " (.boolean true)) = (u, .error e) ∧ u = t := by
  obtain ⟨-, hnodup, -, -, herror, -⟩ := calls_grow .all [.bindValue "a_1" (.boolean true),
    .bindValue " " (.boolean true), .bindValue "a" (.boolean false)]
  obtain ⟨u, e, hcall⟩ : ∃ u e, ((empty .all).calls [.bindValue "a_1" (.boolean true),
      .bindValue " " (.boolean true), .bindValue "a" (.boolean false)]).call
        (.bindValue " " (.boolean true)) = (u, .error e) := ⟨_, _, rfl⟩
  exact ⟨_, rfl, by decide, hnodup, u, e, hcall, herror _ _ _ rfl hcall⟩

end Table

end BoundQuery
