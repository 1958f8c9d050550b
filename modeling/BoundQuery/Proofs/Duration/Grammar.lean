/-
**The grammar of durations.**

A duration is spelled by amounts that follow each other, each a numeral and the suffix of a unit,
perhaps behind a minus sign.  Some suffixes begin with others, and those are tried last; so a suffix
is taken as a whole unless a letter follows it that makes another one of it.  Between amounts no
letter follows a suffix, which is why the scanner finds the amounts that the grammar names.

Main definitions:

* `BoundQuery.SpellsAmount`, `BoundQuery.SpellsAmounts` — a text spells an amount of a unit, or
  amounts one after the other;
* `BoundQuery.ClosesUnit` — what may stand behind a suffix.

Main results:

* `BoundQuery.Scanner.component_append`, `BoundQuery.Scanner.components_append`,
  `BoundQuery.Scanner.duration_append` — what is spelled is taken, up to where no amount can follow;
* `BoundQuery.Scanner.exists_of_component`, `BoundQuery.Scanner.exists_of_components`,
  `BoundQuery.Scanner.exists_of_duration` — what is taken is spelled.
-/

import BoundQuery.Proofs.Duration.Sums
import BoundQuery.Proofs.Scan.Choice

set_option relaxedAutoImplicit false
set_option autoImplicit false

namespace BoundQuery

/-! ### The grammar -/

/-- A text is a numeral, perhaps with zeros in front, and a suffix of a unit. -/
def SpellsAmount (s : List Char) (p : Nat × TimeUnit) : Prop :=
  ∃ (ds : List Char) (w : String), s = ds ++ w.toList ∧ IsNumeral ds ∧ ofDigits ds = p.1 ∧
    TimeUnit.ofSuffix? w = some p.2

/-- A text spells amounts one after the other. -/
inductive SpellsAmounts : List Char → List (Nat × TimeUnit) → Prop
  | nil : SpellsAmounts [] []
  | cons {s t : List Char} {p : Nat × TimeUnit} {ps : List (Nat × TimeUnit)} :
      SpellsAmount s p → SpellsAmounts t ps → SpellsAmounts (s ++ t) (p :: ps)

/-- A text spells amounts, at least one of them, perhaps behind a minus sign. -/
def SpellsDuration (s : List Char) (negative : Bool) (ps : List (Nat × TimeUnit)) : Prop :=
  ps ≠ [] ∧ ∃ t, s = (if negative then ['-'] else []) ++ t ∧ SpellsAmounts t ps

theorem SpellsAmount.exists_cons {s : List Char} {p : Nat × TimeUnit} (h : SpellsAmount s p) :
    ∃ c t, s = c :: t ∧ c.isDigit = true := by
  obtain ⟨ds, w, rfl, hds, -, -⟩ := h
  obtain ⟨c, es, rfl, hc⟩ := hds.exists_cons
  exact ⟨c, es ++ w.toList, rfl, hc⟩

theorem SpellsAmounts.length_le {s : List Char} {ps : List (Nat × TimeUnit)}
    (h : SpellsAmounts s ps) : ps.length ≤ s.length := by
  induction h with
  | nil => exact Nat.le_refl _
  | cons hp _ ih =>
      obtain ⟨c, t, rfl, -⟩ := hp.exists_cons
      rw [List.length_append, List.length_cons, List.length_cons]
      omega

namespace Scanner

/-! ### Suffixes -/

/-- What may stand behind a suffix: a letter that makes another suffix of it may not. -/
def ClosesUnit (s : List Char) : Prop := s.head? ≠ some 'o' ∧ s.head? ≠ some 's'

theorem closesUnit_cons {c : Char} (ho : c ≠ 'o') (hs : c ≠ 's') (s : List Char) :
    ClosesUnit (c :: s) :=
  ⟨fun h => ho (Option.some.inj h), fun h => hs (Option.some.inj h)⟩

theorem not_isPrefixOf_cons {c : Char} {s : List Char} (h : s.head? ≠ some c) (d : Char) :
    [d, c].isPrefixOf (d :: s) = false := by
  cases s with
  | nil => simp
  | cons e s =>
      have he : c ≠ e := fun heq => h (congrArg some heq.symm)
      simp [List.isPrefixOf, he]

/-- The suffixes that are tried are those that units have. -/
theorem mem_suffixes_iff {w : String} {u : TimeUnit} :
    (w, u) ∈ suffixes ↔ TimeUnit.ofSuffix? w = some u := by
  constructor
  · have hall : ∀ p ∈ suffixes, TimeUnit.ofSuffix? p.1 = some p.2 := by decide
    exact hall (w, u)
  · intro h
    unfold TimeUnit.ofSuffix? at h
    split at h
    · next hmicro =>
        cases h
        rw [hmicro]
        decide
    · obtain rfl : u.suffix = w := by simpa using List.find?_some h
      cases u <;> decide

/-- A suffix is taken as a whole, and nothing behind it. -/
theorem unit_append {w : String} {u : TimeUnit} (hw : TimeUnit.ofSuffix? w = some u)
    {rest : List Char} (h : ClosesUnit rest) : unit (w.toList ++ rest) = .ok (u, rest) := by
  obtain ⟨ho, hs⟩ := h
  have hmo := not_isPrefixOf_cons ho 'm'
  have hms := not_isPrefixOf_cons hs 'm'
  have hall : ∀ p ∈ suffixes, unit (p.1.toList ++ rest) = .ok (p.2, rest) := by
    simp [suffixes, unit, hmo, hms, ← String.length_toList]
  exact hall (w, u) (mem_suffixes_iff.2 hw)

/-- Where a suffix stands a unit is taken, whatever follows. -/
theorem exists_unit_append {w : String} {u : TimeUnit} (hw : TimeUnit.ofSuffix? w = some u)
    (rest : List Char) : ∃ v r, unit (w.toList ++ rest) = .ok (v, r) := by
  have hsome : (suffixes.find? fun p => p.1.toList.isPrefixOf (w.toList ++ rest)).isSome := by
    rw [List.find?_isSome]
    exact ⟨(w, u), mem_suffixes_iff.2 hw, List.isPrefixOf_iff_prefix.2 ⟨rest, rfl⟩⟩
  obtain ⟨p, hfind⟩ := Option.isSome_iff_exists.1 hsome
  refine ⟨p.2, (w.toList ++ rest).drop p.1.length, ?_⟩
  rw [unit, hfind]

/-- What is taken for a unit is one of its suffixes. -/
theorem exists_of_unit {s rest : List Char} {u : TimeUnit} (h : unit s = .ok (u, rest)) :
    ∃ w : String, TimeUnit.ofSuffix? w = some u ∧ s = w.toList ++ rest := by
  unfold unit at h
  split at h
  · next w v hfind =>
      cases h
      have hprefix : w.toList.isPrefixOf s = true := by simpa using List.find?_some hfind
      obtain ⟨t, rfl⟩ := List.isPrefixOf_iff_prefix.1 hprefix
      refine ⟨w, mem_suffixes_iff.1 (List.mem_of_find?_eq_some hfind), ?_⟩
      rw [← String.length_toList, List.drop_left]
  · cases h

/-! ### Components -/

theorem suffix_head_isDigit {w : String} {u : TimeUnit} (hw : TimeUnit.ofSuffix? w = some u)
    (rest : List Char) : ∀ c ∈ (w.toList ++ rest).head?, c.isDigit = false := by
  have hall : ∀ p ∈ suffixes, ∀ c ∈ (p.1.toList ++ rest).head?, c.isDigit = false := by
    simp [suffixes]
  exact hall (w, u) (mem_suffixes_iff.2 hw)

/-- An amount that is spelled is taken. -/
theorem component_append {s : List Char} {p : Nat × TimeUnit} (hp : SpellsAmount s p)
    (hle : p.1 ≤ maxAmount) {rest : List Char} (h : ClosesUnit rest) :
    component (s ++ rest) = .ok (p, rest) := by
  obtain ⟨n, u⟩ := p
  obtain ⟨ds, w, rfl, hds, rfl, hw⟩ := hp
  have hlt : ofDigits ds < UInt64.size := Nat.lt_of_le_of_lt hle (by decide)
  have hdigits := digits_append hds (suffix_head_isDigit hw rest)
  have hamount : unsignedOfDigits? ds = some (UInt64.ofNat (ofDigits ds)) := if_pos hlt
  have hnat : (UInt64.ofNat (ofDigits ds)).toNat = ofDigits ds := UInt64.toNat_ofNat_of_lt' hlt
  simp only [component, andThen, filterMap, map, List.append_assoc, hdigits, hamount,
    unit_append hw h, hnat]

theorem toNat_of_unsignedOfDigits? {ds : List Char} {n : UInt64}
    (h : unsignedOfDigits? ds = some n) : n.toNat = ofDigits ds := by
  unfold unsignedOfDigits? at h
  split at h
  · next hlt =>
      cases h
      exact UInt64.toNat_ofNat_of_lt' hlt
  · cases h

/-- What is taken for an amount spells it. -/
theorem exists_of_component {s rest : List Char} {p : Nat × TimeUnit}
    (h : component s = .ok (p, rest)) : ∃ t, s = t ++ rest ∧ SpellsAmount t p := by
  obtain ⟨n, behind, hamount, hunit⟩ := exists_of_andThen h
  obtain ⟨ds, hdigits, hn⟩ := exists_of_filterMap hamount
  obtain ⟨u, hu, rfl⟩ := exists_of_map hunit
  obtain ⟨rfl, hds⟩ := eq_append_of_digits hdigits
  obtain ⟨w, hw, rfl⟩ := exists_of_unit hu
  exact ⟨ds ++ w.toList, (List.append_assoc _ _ _).symm, ds, w, rfl, hds,
    (toNat_of_unsignedOfDigits? hn).symm, hw⟩

theorem component_of_head {s : List Char} (h : ∀ c ∈ s.head?, c.isDigit = false) :
    component s = .error s := by
  simp only [component, andThen, filterMap, digits_of_head h]

/-- Amounts and what follows them begin with a digit or as what follows them does. -/
theorem closesUnit_append {s : List Char} {ps : List (Nat × TimeUnit)} (hs : SpellsAmounts s ps)
    {rest : List Char} (h : ClosesUnit rest) : ClosesUnit (s ++ rest) := by
  cases hs with
  | nil => exact h
  | cons hp _ =>
      obtain ⟨c, t, rfl, hc⟩ := hp.exists_cons
      exact closesUnit_cons (ne_of_isDigit hc (by decide)) (ne_of_isDigit hc (by decide)) _

/-- **Amounts that are spelled are taken one after the other**, up to what is no digit. -/
theorem components_append {s : List Char} {ps : List (Nat × TimeUnit)} (hs : SpellsAmounts s ps)
    (hle : ∀ p ∈ ps, p.1 ≤ maxAmount) {rest : List Char}
    (hrest : ∀ c ∈ rest.head?, c.isDigit = false) (h : ClosesUnit rest) {fuel : Nat}
    (hfuel : ps.length ≤ fuel) : components fuel (s ++ rest) = (ps, rest) := by
  induction hs generalizing fuel with
  | nil =>
      cases fuel with
      | zero => rfl
      | succ fuel =>
          rw [List.nil_append, components]
          simp only [component_of_head hrest]
  | cons hp hps ih =>
      cases fuel with
      | zero => cases hfuel
      | succ fuel =>
          obtain ⟨hfirst, hothers⟩ := List.forall_mem_cons.1 hle
          rw [List.append_assoc, components]
          simp only [component_append hp hfirst (closesUnit_append hps h),
            ih hothers (Nat.le_of_succ_le_succ hfuel)]

/-- **What is taken for amounts spells them.** -/
theorem exists_of_components {fuel : Nat} {s rest : List Char} {ps : List (Nat × TimeUnit)}
    (h : components fuel s = (ps, rest)) : ∃ t, s = t ++ rest ∧ SpellsAmounts t ps := by
  induction fuel generalizing s ps with
  | zero =>
      cases h
      exact ⟨[], rfl, .nil⟩
  | succ fuel ih =>
      unfold components at h
      split at h
      · next p behind hfirst =>
          obtain ⟨t, rfl, hp⟩ := exists_of_component hfirst
          cases hothers : components fuel behind with
          | mk qs left =>
              rw [hothers] at h
              cases h
              obtain ⟨t', rfl, hps⟩ := ih hothers
              exact ⟨t ++ t', (List.append_assoc _ _ _).symm, .cons hp hps⟩
      · cases h
        exact ⟨[], rfl, .nil⟩

/-! ### Durations -/

theorem sign_append_amounts (negative : Bool) {s : List Char} {ps : List (Nat × TimeUnit)}
    (hs : SpellsAmounts s ps) (hne : ps ≠ []) (rest : List Char) :
    sign ((if negative then ['-'] else []) ++ s ++ rest) = (negative, s ++ rest) := by
  cases hs with
  | nil => exact absurd rfl hne
  | cons hp _ =>
      obtain ⟨ds, w, rfl, hds, -, -⟩ := hp
      simp only [List.append_assoc]
      exact sign_signed negative hds _

/-- **Amounts with a sign are read as their sum with that sign.** -/
theorem duration_append {s : List Char} {negative : Bool} {ps : List (Nat × TimeUnit)}
    (hs : SpellsDuration s negative ps) {e : Duration} (hsum : Duration.ofAmounts ps = .ok e)
    {rest : List Char} (hrest : ∀ c ∈ rest.head?, c.isDigit = false) (h : ClosesUnit rest) :
    duration (s ++ rest) = .ok (e.withSign negative, rest) := by
  have hle : ∀ p ∈ ps, p.1 ≤ maxAmount := fun p hp =>
    Nat.le_trans (Duration.le_amountIn hp) (Duration.exists_ofAmounts_iff.1 ⟨e, hsum⟩ p.2)
  obtain ⟨hne, t, rfl, ht⟩ := hs
  have hsign := sign_append_amounts negative ht hne rest
  cases ht with
  | nil => exact absurd rfl hne
  | cons hp hps =>
      obtain ⟨hfirst, hothers⟩ := List.forall_mem_cons.1 hle
      have hlength := Nat.le_trans hps.length_le (Nat.le_add_right _ rest.length)
      rw [← List.length_append] at hlength
      unfold duration
      rw [hsign, List.append_assoc]
      simp only [component_append hp hfirst (closesUnit_append hps h),
        components_append hps hothers hrest h hlength, hsum]

/-- **What is taken for a duration is a sign and amounts**, whose sum it is with that sign. -/
theorem exists_of_duration {s rest : List Char} {d : Duration} (h : duration s = .ok (d, rest)) :
    ∃ t negative ps e, s = t ++ rest ∧ SpellsDuration t negative ps ∧
      Duration.ofAmounts ps = .ok e ∧ e.withSign negative = d := by
  have hs := eq_sign_append s
  unfold duration at h
  generalize sign s = signed at h hs
  obtain ⟨negative, body⟩ := signed
  dsimp only at h hs
  cases hfirst : component body with
  | error e =>
      rw [hfirst] at h
      cases h
  | ok taken =>
      obtain ⟨p, behind⟩ := taken
      rw [hfirst] at h
      dsimp only at h
      cases hothers : components behind.length behind with
      | mk ps left =>
          rw [hothers] at h
          dsimp only at h
          split at h
          · next e hsum =>
              cases h
              obtain ⟨t, rfl, hp⟩ := exists_of_component hfirst
              obtain ⟨t', rfl, hps⟩ := exists_of_components hothers
              refine ⟨(if negative then ['-'] else []) ++ (t ++ t'), negative, p :: ps, e, ?_,
                ⟨by simp, _, rfl, .cons hp hps⟩, hsum, rfl⟩
              simp only [hs, List.append_assoc]
          · cases h

end Scanner

/-! ### One spelling is of one kind -/

/-- An amount at the front of a text ends where its numeral and its suffix end. -/
theorem SpellsAmount.unique_append {s s' t t' : List Char} {p q : Nat × TimeUnit}
    (hp : SpellsAmount s p) (hq : SpellsAmount s' q) (ht : Scanner.ClosesUnit t)
    (ht' : Scanner.ClosesUnit t') (h : s ++ t = s' ++ t') : p = q ∧ t = t' := by
  obtain ⟨n, u⟩ := p
  obtain ⟨m, v⟩ := q
  obtain ⟨ds, w, rfl, hds, rfl, hw⟩ := hp
  obtain ⟨es, w', rfl, hes, rfl, hw'⟩ := hq
  have hdigits := Scanner.digits_append hds (Scanner.suffix_head_isDigit hw t)
  rw [List.append_assoc, List.append_assoc] at h
  rw [h, Scanner.digits_append hes (Scanner.suffix_head_isDigit hw' t')] at hdigits
  obtain ⟨rfl, hsuffix⟩ := Prod.mk.inj (Except.ok.inj hdigits)
  have hunit := Scanner.unit_append hw ht
  rw [← hsuffix, Scanner.unit_append hw' ht'] at hunit
  obtain ⟨rfl, rfl⟩ := Prod.mk.inj (Except.ok.inj hunit)
  exact ⟨rfl, rfl⟩

theorem SpellsAmounts.closesUnit {s : List Char} {ps : List (Nat × TimeUnit)}
    (h : SpellsAmounts s ps) : Scanner.ClosesUnit s :=
  List.append_nil s ▸ Scanner.closesUnit_append h ⟨by simp, by simp⟩

theorem SpellsAmounts.unique {s : List Char} {ps qs : List (Nat × TimeUnit)}
    (hp : SpellsAmounts s ps) (hq : SpellsAmounts s qs) : ps = qs := by
  induction hp generalizing qs with
  | nil =>
      generalize hs : [] = s at hq
      cases hq with
      | nil => rfl
      | cons hfirst _ =>
          obtain ⟨c, t, rfl, -⟩ := hfirst.exists_cons
          cases hs
  | @cons a t p ps hfirst hps ih =>
      generalize hs : a ++ t = s at hq
      cases hq with
      | nil =>
          obtain ⟨c, t, rfl, -⟩ := hfirst.exists_cons
          cases hs
      | cons hfirst' hqs =>
          obtain ⟨rfl, rfl⟩ :=
            hfirst.unique_append hfirst' hps.closesUnit hqs.closesUnit hs
          rw [ih hqs]

/-- **A text spells a duration in one way.** -/
theorem SpellsDuration.unique {s : List Char} {negative negative' : Bool}
    {ps qs : List (Nat × TimeUnit)} (hp : SpellsDuration s negative ps)
    (hq : SpellsDuration s negative' qs) : negative = negative' ∧ ps = qs := by
  obtain ⟨hne, t, rfl, ht⟩ := hp
  obtain ⟨hne', t', ht', hq⟩ := hq
  have hsign := Scanner.sign_append_amounts negative ht hne []
  have hsign' := Scanner.sign_append_amounts negative' hq hne' []
  rw [ht', hsign', Prod.mk.injEq, List.append_nil, List.append_nil] at hsign
  obtain ⟨rfl, rfl⟩ := hsign
  exact ⟨rfl, ht.unique hq⟩

end BoundQuery
