/-
**Predicates mean the same in their text.**

The text of a predicate, read by the grammar, has the truth value of the tree it was written from:
a group holds when all of its members hold, or any of them, and a template holds when its own text
does.  Comparisons are atoms whatever values stand in them, and groups bring their parentheses
along.  A template brings none: its text is spliced in as it is, so that its alternatives are torn
apart beside an `and`.  The truth value is kept as long as no template with alternatives stands
with other members in a group that joins them by `and`.

Main definitions:

* `BoundQuery.Predicate.written` — the text of a predicate;
* `BoundQuery.Predicate.Holds` — the truth of a predicate, for a truth value of every atom;
* `BoundQuery.Predicate.WellFormed` — columns are named by identifiers, and the texts of templates
  can be read;
* `BoundQuery.Predicate.Joinable` — no template would be torn apart.

Main results:

* `BoundQuery.Operand.scans` — a side of a comparison closes what it opens and has no connective;
* `BoundQuery.Predicate.exists_isReading` — the text of a predicate can be read, with the truth of
  the tree;
* `BoundQuery.Predicate.exists_reading_of_run` — the same of what a session writes;
* `BoundQuery.Predicate.holds_torn_apart` — a template that is torn apart.
-/

import BoundQuery.Proofs.Predicate.Grammar
import BoundQuery.Proofs.Predicate.Readability

set_option relaxedAutoImplicit false
set_option autoImplicit false

namespace BoundQuery

variable {p : Policy}

/-! ### Literals -/

theorem closed_word (w : List Char) : Closed [.word w] := rfl

theorem Closed.cons_word {ts : List Token} (h : Closed ts) (w : List Char) :
    Closed (.word w :: ts) := (closed_word w).append h

/-- The call of a conversion closes its parentheses. -/
theorem scans_conversionText {name : String} (hname : name ∈ ["int", "uint", "float"])
    {s : List Char} {ts : List Token} (hs : Scans .other s ts) (hts : Closed ts) :
    ∃ us, Closed us ∧ ∀ b, Scans b (conversionText name s) us := by
  have hopen : ∀ b, Lexer.run ⟨[], [], .plain b⟩ (name.toList ++ "(v: ".toList) =
      ⟨[.word name.toList, .opening, .word "v:".toList], [], .plain .other⟩ := by
    intro b
    simp only [List.mem_cons, List.not_mem_nil, or_false] at hname
    rcases hname with rfl | rfl | rfl
    · cases b <;> rfl
    · cases b <;> rfl
    · cases b <;> rfl
  have hclose : Scans .other (s ++ [')']) (ts ++ [.closing]) := hs.append (follows_closing rfl)
  have htext : conversionText name s = (name.toList ++ "(v: ".toList) ++ (s ++ [')']) := by
    simp only [conversionText, List.append_assoc]
  refine ⟨[.word name.toList, .opening, .word "v:".toList] ++ (ts ++ [.closing]), ?_, ?_⟩
  · exact (Nested.of_closed (hts.cons_word "v:".toList)).closed_group.cons_word _
  · intro b
    rw [htext]
    exact Scans.cons_run (hopen b) hclose

theorem isAlpha_of_isDigit {c : Char} (h : c.isDigit = true) : c.isAlpha = false := by
  simp only [Char.isDigit, Bool.and_eq_true, decide_eq_true_eq, UInt32.le_iff_toNat_le,
    ge_iff_le] at h
  have hnine : '9'.val.toNat = 57 := rfl
  have hA : 'A'.val.toNat = 65 := rfl
  have ha : 'a'.val.toNat = 97 := rfl
  -- digits stand before all letters
  have hupper : ¬ 'A'.val ≤ c.val := by
    rw [UInt32.le_iff_toNat_le]
    omega
  have hlower : ¬ 'a'.val ≤ c.val := by
    rw [UInt32.le_iff_toNat_le]
    omega
  refine Bool.or_eq_false_iff.2 ⟨decide_eq_false fun hc => hupper hc.1, ?_⟩
  exact Bool.and_eq_false_iff.2 (Or.inl (decide_eq_false hlower))

/-- A numeral has a digit. -/
theorem exists_digit_of_mem_decimal (n : Nat) : ∃ d ∈ decimal n, d.isAlpha = false := by
  obtain ⟨d, hd⟩ := List.exists_mem_of_ne_nil _ (decimal_ne_nil n)
  exact ⟨d, hd, isAlpha_of_isDigit (isDigit_of_mem_decimal hd)⟩

theorem Duration.exists_digit_of_mem_text (d : Duration) : ∃ c ∈ d.text, c.isAlpha = false := by
  unfold text
  split
  · exact ⟨'0', List.mem_cons_self, rfl⟩
  · next hz =>
      obtain ⟨a, ha⟩ := List.exists_mem_of_ne_nil _ (components_ne_nil (Bool.eq_false_iff.2 hz))
      obtain ⟨c, hc, halpha⟩ := exists_digit_of_mem_decimal a.2
      refine ⟨c, List.mem_append_right _ (List.mem_flatMap.2 ⟨a, ha, ?_⟩), halpha⟩
      exact List.mem_append_left _ hc

/-- **A literal closes what it opens, and has no connective**, unless it is a pattern. -/
theorem Value.scans_literal {v : Value} (hv : v.kind ≠ .pattern) :
    ∃ ts, Closed ts ∧ ∀ b, Scans b v.literal ts := by
  -- what is one word closes what it opens
  have hname : ∀ {s : List Char}, NameText s → (∃ d ∈ s, d.isAlpha = false) →
      ∃ ts, Closed ts ∧ ∀ b, Scans b s ts := fun hs hmark =>
    ⟨_, closed_word _, scans_name hs hmark⟩
  have hquoted : ∀ {name : String}, name ∈ ["int", "uint", "float"] → ∀ s : List Char,
      ∃ ts, Closed ts ∧ ∀ b, Scans b (conversionText name (quotedText s)) ts := fun hconv s =>
    scans_conversionText hconv (scans_quotedText s .other) (closed_word _)
  cases v with
  | boolean b => cases b <;> exact ⟨_, closed_word _, fun b => by cases b <;> rfl⟩
  | integer n =>
      change ∃ ts, Closed ts ∧ ∀ b, Scans b (integerLiteral n) ts
      unfold integerLiteral
      split
      · exact hquoted (by decide) _
      · refine hname (numeralText_signed _).nameText ?_
        obtain ⟨d, hd, halpha⟩ := exists_digit_of_mem_decimal n.toInt.natAbs
        refine ⟨d, ?_, halpha⟩
        unfold signed
        split
        · exact List.mem_cons_of_mem _ hd
        · exact hd
  | unsigned n =>
      exact scans_conversionText (by decide)
        (scans_name (numeralText_decimal _).nameText (exists_digit_of_mem_decimal _) .other)
        (closed_word _)
  | float x =>
      cases x with
      | nan => exact hquoted (by decide) _
      | infinite negative => cases negative <;> exact hquoted (by decide) _
      | finite negative m =>
          refine hname (Layout.numeralText_literal negative m).nameText ⟨'.', ?_, rfl⟩
          exact Layout.point_mem_literal negative m
  | text s => exact ⟨_, closed_word _, scans_quotedText _⟩
  | instant t => exact hname t.numeralText_text.nameText ⟨':', by simp [literal, Instant.text], rfl⟩
  | duration d => exact hname d.numeralText_text.nameText d.exists_digit_of_mem_text
  | pattern q => exact absurd rfl hv

/-! ### Sides of comparisons -/

/-- A value closes what it opens and has no connective, by its literal or by its reference. -/
theorem scans_slot {label : String} {v : Value} (h : bindingError? label v = none) (n : Nat) :
    ∃ ts, Closed ts ∧ ∀ b, Scans b (filledText p n [.slot label v]) ts := by
  cases hb : p.binds v.kind with
  | false =>
      have hkind : v.kind ≠ .pattern := by
        intro hpattern
        rw [hpattern, p.binds_pattern] at hb
        cases hb
      have hnil : filledText p n [] = [] := rfl
      rw [filledText_slot_free hb, hnil, List.append_nil]
      exact Value.scans_literal hkind
  | true =>
      rw [filledText_slot_bound hb]
      have hnil : filledText p (n + 1) [] = [] := rfl
      rw [hnil, List.append_nil]
      refine ⟨_, closed_word _, scans_name ?_ ⟨'.', by simp, rfl⟩⟩
      have hlabel := (bindingError?_eq_none_iff.1 h).1
      exact nameText_append_identifier (by decide) (isIdentifier_entryName hlabel n)

/-- A column closes what it opens and has no connective. -/
theorem Column.scans {c : Column} (hc : c.Plain) (hclean : Clean c.block) (n : Nat) :
    ∃ ts, Closed ts ∧ ∀ b, Scans b (filledText p n (c.block.flatMap Action.marks)) ts := by
  cases c with
  | trusted name =>
      have htext : filledText p n ((trusted name).block.flatMap Action.marks) =
          "r.".toList ++ name.toList := List.append_nil _
      rw [htext]
      refine ⟨_, closed_word _, scans_name ?_ ⟨'.', by simp, rfl⟩⟩
      exact nameText_append_identifier (by decide) hc
  | dynamic name =>
      have hplace : bindingError? label (.text name) = none :=
        hclean _ (List.mem_cons_of_mem _ List.mem_cons_self)
      obtain ⟨ts, hts, hscan⟩ := scans_slot (p := p) hplace n
      have htext : filledText p n ((dynamic name).block.flatMap Action.marks) =
          "record.get(r: r, key: ".toList ++
            (filledText p n [.slot label (.text name)] ++ ", default: \"\")".toList) := by
        have hmarks : (dynamic name).block.flatMap Action.marks =
            .fixed "record.get(r: r, key: ".toList ::
              ([.slot label (.text name)] ++ [.fixed ", default: \"\")".toList]) := rfl
        rw [hmarks, filledText_fixed, filledText_append]
        rfl
      have hopen : ∀ b, Lexer.run ⟨[], [], .plain b⟩ "record.get(r: r, key: ".toList =
          ⟨[.word "record.get".toList, .opening, .word "r:".toList, .word ['r'], .word [','],
            .word "key:".toList], [], .plain .other⟩ := by
        intro b
        cases b <;> rfl
      have hclose : Follows ", default: \"\")".toList
          [.word [','], .word "default:".toList, .word ['"', '"'], .closing] :=
        follows_comma rfl
      rw [htext]
      refine ⟨_, ?_, fun b => Scans.cons_run (hopen b) ((hscan .other).append hclose)⟩
      have hbehind : Closed [.word [','], .word "default:".toList, .word ['"', '"']] := rfl
      have hinside : Closed (.word "r:".toList :: .word ['r'] :: .word [','] ::
          .word "key:".toList :: (ts ++ [.word [','], .word "default:".toList, .word ['"', '"']])) :=
        ((((hts.append hbehind).cons_word _).cons_word _).cons_word _).cons_word _
      have hgroup := (Nested.of_closed hinside).closed_group.cons_word "record.get".toList
      simpa only [List.cons_append, List.append_assoc, List.nil_append] using hgroup

/-- **A side of a comparison closes what it opens and has no connective.** -/
theorem Operand.scans {o : Operand} {label : String} (ho : o.Named)
    (hclean : Clean (o.block label)) (n : Nat) :
    ∃ ts, Closed ts ∧
      ∀ b, Scans b (filledText p n ((o.block label).flatMap Action.marks)) ts := by
  cases o with
  | column c => exact Column.scans ho hclean n
  | value v => exact scans_slot (hclean _ List.mem_cons_self) n
  | absent => cases hclean _ List.mem_cons_self

/-! ### Trees -/

namespace Predicate

/-- The text of a predicate when `n` values are bound before it. -/
def written (p : Policy) (n : Nat) (q : Predicate) : List Char := filledText p n q.marks

/-- The number of values that are bound behind a predicate. -/
def next (p : Policy) (n : Nat) (q : Predicate) : Nat := n + (bound p n q.marks).length

/-- The members of a group, each with the number of values that are bound before it. -/
def placed (p : Policy) : Nat → List Predicate → List (Nat × Predicate)
  | _, [] => []
  | n, q :: qs => (n, q) :: placed p (q.next p n) qs

/-- The truth of a predicate for a truth value of every atom: a comparison is an atom, a group
holds when all of its members hold or any of them, and a template holds when its own text does. -/
inductive Holds (p : Policy) (v : Atom → Prop) : Nat → Predicate → Prop where
  | compare {n : Nat} {l r : Operand} {how : Comparison} {label : String} {a : Atom}
      (hread : tokens? ((compare l how r label).written p n) = some a.tokens) (ha : v a) :
      Holds p v n (compare l how r label)
  | all {n : Nat} {qs : List Predicate} (h : ∀ m ∈ placed p n qs, Holds p v m.1 m.2) :
      Holds p v n (group .all qs)
  | any {n : Nat} {qs : List Predicate} {m : Nat × Predicate} (hm : m ∈ placed p n qs)
      (h : Holds p v m.1 m.2) : Holds p v n (group .any qs)
  | template {n : Nat} {t : Template} {label : String} {d : Disjunction}
      (hread : Reads ((template t label).written p n) d) (hd : d.Holds v) :
      Holds p v n (template t label)

/-- The predicate is made of comparisons whose columns are named by identifiers, of groups, and of
templates whose texts can be read. -/
inductive WellFormed (p : Policy) : Nat → Predicate → Prop where
  | compare (n : Nat) {l r : Operand} (how : Comparison) (label : String) (hl : l.Named)
      (hr : r.Named) : WellFormed p n (compare l how r label)
  | group {n : Nat} (c : Connective) {qs : List Predicate}
      (h : ∀ m ∈ placed p n qs, WellFormed p m.1 m.2) : WellFormed p n (group c qs)
  | template {n : Nat} {t : Template} {label : String} {d : Disjunction}
      (hread : Reads ((template t label).written p n) d) : WellFormed p n (template t label)

/-- The text of the predicate, if it is a template, has no alternatives outside of parentheses. -/
def ReadsSingle (p : Policy) (n : Nat) : Predicate → Prop
  | template t label => ∀ d, Reads ((template t label).written p n) d → d.IsSingle
  | _ => True

/-- Where a group joins two members or more by `and`, none of them is a template with
alternatives. -/
inductive Joinable (p : Policy) : Nat → Predicate → Prop where
  | compare (n : Nat) (l : Operand) (how : Comparison) (r : Operand) (label : String) :
      Joinable p n (compare l how r label)
  | group {n : Nat} {c : Connective} {qs : List Predicate}
      (h : ∀ m ∈ placed p n qs, Joinable p m.1 m.2)
      (hsingle : c = .all → 2 ≤ qs.length → ∀ m ∈ placed p n qs, ReadsSingle p m.1 m.2) :
      Joinable p n (group c qs)
  | template (n : Nat) (t : Template) (label : String) : Joinable p n (template t label)

/-! ### Texts of trees -/

theorem written_compare (n : Nat) (l : Operand) (how : Comparison) (r : Operand)
    (label : String) : ∃ k, (compare l how r label).written p n =
      filledText p n ((l.block label).flatMap Action.marks) ++
        (spaced how.sign ++ filledText p k ((r.block label).flatMap Action.marks)) := by
  have hmarks := marks_compare l how r label []
  rw [List.append_nil, List.append_nil] at hmarks
  refine ⟨n + (bound p n ((l.block label).flatMap Action.marks)).length, ?_⟩
  rw [written, hmarks, filledText_append, filledText_fixed]

/-- The text of the members of a group. -/
def membersText (p : Policy) (c : Connective) (n : Nat) (q : Predicate) (qs : List Predicate) :
    List Char := q.written p n ++ filledText p (q.next p n) (restMarks c qs)

theorem membersText_nil (c : Connective) (n : Nat) (q : Predicate) :
    membersText p c n q [] = q.written p n := List.append_nil _

theorem membersText_cons (c : Connective) (n : Nat) (q q' : Predicate) (qs : List Predicate) :
    membersText p c n q (q' :: qs) =
      q.written p n ++ (spaced c.word ++ membersText p c (q.next p n) q' qs) := by
  have hmarks := restMarks_cons c q' qs []
  rw [List.append_nil, List.append_nil] at hmarks
  rw [membersText, hmarks, filledText_fixed, filledText_append]
  rfl

theorem written_group (c : Connective) (n : Nat) (q : Predicate) (qs : List Predicate) :
    (group c (q :: qs)).written p n = '(' :: (membersText p c n q qs ++ [')']) := by
  have hmarks := marks_group c q qs []
  rw [List.append_nil] at hmarks
  have hclose : ∀ k, filledText p k [.fixed [')']] = [')'] := fun _ => rfl
  simp only [written, membersText, next, hmarks, filledText_fixed, filledText_append, hclose,
    List.append_assoc, List.cons_append, List.nil_append]

/-! ### Readings -/

/-- The text of a predicate is read with the truth of the tree. -/
structure IsReading (p : Policy) (n : Nat) (q : Predicate) (d : Disjunction) : Prop where
  reads : Reads (q.written p n) d
  holds_iff : ∀ v, d.Holds v ↔ q.Holds p v n

theorem holds_group_all {v : Atom → Prop} {n : Nat} {qs : List Predicate} :
    (group .all qs).Holds p v n ↔ ∀ m ∈ placed p n qs, m.2.Holds p v m.1 := by
  constructor
  · intro h
    cases h with
    | all h => exact h
  · exact .all

theorem holds_group_any {v : Atom → Prop} {n : Nat} {qs : List Predicate} :
    (group .any qs).Holds p v n ↔ ∃ m ∈ placed p n qs, m.2.Holds p v m.1 := by
  constructor
  · intro h
    cases h with
    | any hm h => exact ⟨_, hm, h⟩
  · rintro ⟨m, hm, h⟩
    exact .any hm h

/-- A comparison is read as an atom. -/
theorem exists_isReading_compare {n : Nat} {l r : Operand} {how : Comparison} {label : String}
    (hl : l.Named) (hr : r.Named) (hclean : Clean (compare l how r label).plan.flatten) :
    ∃ a, IsReading p n (compare l how r label) (.ofAtom a) := by
  obtain ⟨hleft, hright⟩ := clean_compare hclean
  obtain ⟨k, htext⟩ := written_compare (p := p) n l how r label
  obtain ⟨ts, hts, hscan⟩ := l.scans hl hleft n
  obtain ⟨us, hus, hscan'⟩ := r.scans hr hright k
  let a : Atom := ⟨ts ++ .word how.sign.toList :: us, hts.append (hus.cons_word _),
    hasOuterWord_of_closed hts _ us⟩
  have hread : tokens? ((compare l how r label).written p n) = some a.tokens := by
    rw [htext]
    exact (hscan .other).append (follows_sign how hscan')
  refine ⟨a, hread, fun v => ⟨.compare hread, fun h => ?_⟩⟩
  cases h with
  | compare hread' hv =>
      obtain rfl := Atom.ext (Option.some.inj (hread'.symm.trans hread))
      exact hv

/-- A template is read as its own text is. -/
theorem isReading_template {n : Nat} {t : Template} {label : String} {d : Disjunction}
    (hread : Reads ((template t label).written p n) d) :
    IsReading p n (template t label) d where
  reads := hread
  holds_iff v := by
    constructor
    · exact .template hread
    · intro h
      cases h with
      | template hread' hd =>
          obtain rfl := hread'.unique hread
          exact hd

/-- Members joined by `or` are read as the alternatives of all of them. -/
theorem exists_reading_any {n : Nat} {q : Predicate} {qs : List Predicate}
    (h : ∀ m ∈ placed p n (q :: qs), ∃ d, IsReading p m.1 m.2 d) :
    ∃ d, Reads (membersText p .any n q qs) d ∧
      ∀ v, d.Holds v ↔ ∃ m ∈ placed p n (q :: qs), m.2.Holds p v m.1 := by
  -- the reading of the first member goes before that of the others
  induction qs generalizing n q with
  | nil =>
      obtain ⟨d, hd⟩ := h (n, q) List.mem_cons_self
      refine ⟨d, ?_, fun v => ?_⟩
      · rw [membersText_nil]
        exact hd.reads
      · simp only [placed, List.mem_singleton, exists_eq_left]
        exact hd.holds_iff v
  | cons q' qs ih =>
      obtain ⟨d, hd⟩ := h (n, q) List.mem_cons_self
      obtain ⟨e, he, hholds⟩ := ih fun m hm => h m (List.mem_cons_of_mem _ hm)
      refine ⟨d.either e, ?_, fun v => ?_⟩
      · rw [membersText_cons, Reads, Disjunction.tokens_either]
        exact Scans.append hd.reads (follows_connective .any he)
      · rw [Disjunction.holds_either, hd.holds_iff, hholds]
        simp only [placed, List.mem_cons, exists_eq_or_imp]

/-- Members without alternatives joined by `and` are read as the factors of all of them. -/
theorem exists_reading_all {n : Nat} {q : Predicate} {qs : List Predicate}
    (h : ∀ m ∈ placed p n (q :: qs), ∃ c, IsReading p m.1 m.2 (.one c)) :
    ∃ c, Reads (membersText p .all n q qs) (.one c) ∧
      ∀ v, c.Holds v ↔ ∀ m ∈ placed p n (q :: qs), m.2.Holds p v m.1 := by
  induction qs generalizing n q with
  | nil =>
      obtain ⟨c, hc⟩ := h (n, q) List.mem_cons_self
      refine ⟨c, ?_, fun v => ?_⟩
      · rw [membersText_nil]
        exact hc.reads
      · simp only [placed, List.mem_singleton, forall_eq]
        exact hc.holds_iff v
  | cons q' qs ih =>
      obtain ⟨c, hc⟩ := h (n, q) List.mem_cons_self
      obtain ⟨c', hc', hholds⟩ := ih fun m hm => h m (List.mem_cons_of_mem _ hm)
      have hfirst : ∀ v, c.Holds v ↔ q.Holds p v n := hc.holds_iff
      refine ⟨c.both c', ?_, fun v => ?_⟩
      · rw [membersText_cons, Reads, Disjunction.tokens, Conjunction.tokens_both]
        exact Scans.append hc.reads (follows_connective .all hc')
      · rw [Conjunction.holds_both, hfirst, hholds]
        simp only [placed, List.forall_mem_cons]

/-- A group is read as its members are, between parentheses. -/
theorem isReading_parenthesized {c : Connective} {n : Nat} {q : Predicate} {qs : List Predicate}
    {d : Disjunction} (hread : Reads (membersText p c n q qs) d)
    (hholds : ∀ v, d.Holds v ↔ (group c (q :: qs)).Holds p v n) :
    IsReading p n (group c (q :: qs)) d.parenthesized where
  reads := by
    rw [written_group]
    exact Scans.parenthesized hread
  holds_iff := hholds

theorem mem_of_mem_placed {n : Nat} {qs : List Predicate} {m : Nat × Predicate}
    (h : m ∈ placed p n qs) : m.2 ∈ qs := by
  induction qs generalizing n with
  | nil => cases h
  | cons q qs ih =>
      rcases List.mem_cons.1 h with rfl | h
      · exact List.mem_cons_self
      · exact List.mem_cons_of_mem q (ih h)

theorem clean_of_mem {c : Connective} {qs : List Predicate} (h : Clean (restPlan c qs).flatten)
    {q : Predicate} (hq : q ∈ qs) : Clean q.plan.flatten := by
  induction qs with
  | nil => cases hq
  | cons q' qs ih =>
      obtain ⟨hfirst, hothers⟩ := clean_restPlan h
      rcases List.mem_cons.1 hq with rfl | hq
      · exact hfirst
      · exact ih hothers hq

/-- Members are read as their group, where none of them is torn apart. -/
theorem exists_reading_members {c : Connective} {n : Nat} {q : Predicate} {qs : List Predicate}
    (hread : ∀ m ∈ placed p n (q :: qs),
      ∃ d, IsReading p m.1 m.2 d ∧ (ReadsSingle p m.1 m.2 → d.IsSingle))
    (hsingle : c = .all → 2 ≤ (q :: qs).length →
      ∀ m ∈ placed p n (q :: qs), ReadsSingle p m.1 m.2) :
    ∃ d, Reads (membersText p c n q qs) d ∧
      ∀ v, d.Holds v ↔ (group c (q :: qs)).Holds p v n := by
  have hany : ∀ m ∈ placed p n (q :: qs), ∃ d, IsReading p m.1 m.2 d :=
    fun m hm => (hread m hm).imp fun d hd => hd.1
  cases c with
  | any =>
      obtain ⟨d, hd, hholds⟩ := exists_reading_any hany
      exact ⟨d, hd, fun v => (hholds v).trans holds_group_any.symm⟩
  | all =>
      cases qs with
      | nil =>
          -- one member has no connective, so it may have alternatives
          obtain ⟨d, hd, hholds⟩ := exists_reading_any hany
          refine ⟨d, hd, fun v => (hholds v).trans ?_⟩
          rw [holds_group_all]
          simp only [placed, List.mem_singleton, exists_eq_left, forall_eq]
      | cons q' qs =>
          have hone : ∀ m ∈ placed p n (q :: q' :: qs), ∃ c, IsReading p m.1 m.2 (.one c) := by
            intro m hm
            obtain ⟨d, hd, himp⟩ := hread m hm
            obtain ⟨c, rfl⟩ := himp (hsingle rfl (by simp) m hm)
            exact ⟨c, hd⟩
          obtain ⟨c, hc, hholds⟩ := exists_reading_all hone
          exact ⟨.one c, hc, fun v => (hholds v).trans holds_group_all.symm⟩

/-- **The text of a predicate can be read, with the truth of the tree.** -/
theorem exists_isReading {n : Nat} {q : Predicate} (hq : q.WellFormed p n) (hj : q.Joinable p n)
    (hclean : Clean q.plan.flatten) :
    ∃ d, IsReading p n q d ∧ (ReadsSingle p n q → d.IsSingle) := by
  induction hq with
  | compare n how label hl hr =>
      obtain ⟨a, ha⟩ := exists_isReading_compare hl hr hclean
      exact ⟨.ofAtom a, ha, fun _ => ⟨_, rfl⟩⟩
  | template hread => exact ⟨_, isReading_template hread, fun hsingle => hsingle _ hread⟩
  | @group n c qs _ ih =>
      cases qs with
      | nil => cases hclean _ List.mem_cons_self
      | cons q qs =>
          obtain ⟨hfirst, hothers⟩ := clean_group hclean
          have hmembers : ∀ m ∈ placed p n (q :: qs), Clean m.2.plan.flatten := by
            intro m hm
            rcases List.mem_cons.1 (mem_of_mem_placed hm) with heq | hmem
            · rw [heq]
              exact hfirst
            · exact clean_of_mem hothers hmem
          cases hj with
          | group hjoin hsingle =>
              obtain ⟨d, hd, hholds⟩ := exists_reading_members
                (fun m hm => ih m hm (hjoin m hm) (hmembers m hm)) hsingle
              exact ⟨d.parenthesized, isReading_parenthesized hd hholds, fun _ => ⟨_, rfl⟩⟩

/-- **What a session writes for a predicate is read with the truth of the tree**, and in no other
way. -/
theorem exists_reading_of_run {s s' : Session} (hs : s.table.Sound) {q : Predicate}
    (hq : q.WellFormed s.table.policy s.table.size) (hj : q.Joinable s.table.policy s.table.size)
    (hrun : s.run q.plan = (s', none)) :
    ∃ t d, s'.text = s.text ++ t ∧ Reads t d ∧ (∀ e, Reads t e → e = d) ∧
      ∀ v, d.Holds v ↔ q.Holds s.table.policy v s.table.size := by
  obtain ⟨hclean, rfl⟩ := Session.eq_of_run hs.numbered hrun
  obtain ⟨d, hd, -⟩ := exists_isReading hq hj hclean
  exact ⟨_, d, s.text_after _, hd.reads, fun e he => he.unique hd.reads, hd.holds_iff⟩

/-! ### Templates with alternatives -/

/-- The field has a name that looks like the end of a group. -/
def hostileField : Predicate := compared (.column .field) .equal (.value (.text "a) or (b"))

/-- A template with two alternatives. -/
def alternatives : Predicate := ofTemplate (.literal "r.x == 1 or r.y == 2")

/-- The first alternative. -/
def firstAtom : Atom := ⟨[.word "r.x".toList, .word "==".toList, .word "1".toList], rfl, rfl⟩

/-- The second alternative. -/
def secondAtom : Atom := ⟨[.word "r.y".toList, .word "==".toList, .word "2".toList], rfl, rfl⟩

theorem reads_alternatives (n : Nat) :
    Reads (alternatives.written p n) (.or (.one (.atom firstAtom)) (.ofAtom secondAtom)) := rfl

theorem wellFormed_hostileField (n : Nat) : hostileField.WellFormed p n :=
  .compare n _ _ rfl trivial

theorem wellFormed_alternatives (n : Nat) : alternatives.WellFormed p n :=
  .template (reads_alternatives n)

/-- In a group of its own, a template with alternatives may stand beside an `and`, and a value that
looks like the end of a group stays in its atom. -/
theorem exists_reading_of_run_hostile :
    ∃ d, Reads "(r._field == \"a) or (b\" and (r.x == 1 or r.y == 2))".toList d ∧
      ∀ v, d.Holds v ↔ (all [hostileField, all [alternatives]]).Holds .none v 0 := by
  have hgroup : (all [alternatives]).WellFormed .none 0 :=
    .group .all (List.forall_mem_cons.2 ⟨wellFormed_alternatives 0, fun _ h => nomatch h⟩)
  have hjoin : (all [alternatives]).Joinable .none 0 :=
    .group (List.forall_mem_cons.2 ⟨.template _ _ _, fun _ h => nomatch h⟩)
      fun _ hlen => absurd hlen (by decide)
  obtain ⟨s', hrun⟩ : ∃ s', (Session.ofSettings (.ofPolicy .none)).run
      (all [hostileField, all [alternatives]]).plan = (s', none) := ⟨_, rfl⟩
  obtain ⟨t, d, ht, hd, -, hholds⟩ := exists_reading_of_run (.empty .none)
    (q := all [hostileField, all [alternatives]])
    (.group .all (List.forall_mem_cons.2 ⟨wellFormed_hostileField 0,
      List.forall_mem_cons.2 ⟨hgroup, fun _ h => nomatch h⟩⟩))
    (.group (List.forall_mem_cons.2 ⟨.compare _ _ _ _ _,
      List.forall_mem_cons.2 ⟨hjoin, fun _ h => nomatch h⟩⟩)
      fun _ _ => List.forall_mem_cons.2 ⟨trivial,
        List.forall_mem_cons.2 ⟨trivial, fun _ h => nomatch h⟩⟩) hrun
  have htext : t = "(r._field == \"a) or (b\" and (r.x == 1 or r.y == 2))".toList := by
    have hs' : s' = ((Session.ofSettings (.ofPolicy .none)).run
        (all [hostileField, all [alternatives]]).plan).1 := by rw [hrun]
    rw [hs'] at ht
    exact ht.symm
  rw [← htext]
  exact ⟨d, hd, hholds⟩

/-- **Beside an `and`, a template with alternatives is torn apart**: what the session writes is true
when only the second alternative is, although the other member of the group is not. -/
theorem holds_torn_apart :
    (all [fieldIs "a", alternatives]).WellFormed .none 0 ∧
      ∃ s' d, (Session.ofSettings (.ofPolicy .none)).run (all [fieldIs "a", alternatives]).plan =
          (s', none) ∧
        s'.text = "(r._field == \"a\" and r.x == 1 or r.y == 2)".toList ∧ Reads s'.text d ∧
        ∃ v, d.Holds v ∧ ¬(all [fieldIs "a", alternatives]).Holds .none v 0 := by
  let field : Atom :=
    ⟨[.word "r._field".toList, .word "==".toList, .word "\"a\"".toList], rfl, rfl⟩
  have hwell : (all [fieldIs "a", alternatives]).WellFormed .none 0 :=
    .group .all (List.forall_mem_cons.2 ⟨.compare _ _ _ rfl trivial,
      List.forall_mem_cons.2 ⟨wellFormed_alternatives 0, fun _ h => nomatch h⟩⟩)
  refine ⟨hwell, _, .parenthesized (.or (.and (.atom field) (.one (.atom firstAtom)))
    (.ofAtom secondAtom)), rfl, rfl, rfl, fun a => a = secondAtom, Or.inr rfl, ?_⟩
  intro hholds
  have hfield := holds_group_all.1 hholds (0, fieldIs "a") List.mem_cons_self
  have hread : tokens? ((fieldIs "a").written .none 0) = some field.tokens := rfl
  cases hfield with
  | compare hread' ha =>
      subst ha
      exact absurd (hread'.symm.trans hread) (by decide)

end Predicate

end BoundQuery
