/-
**Names of entries.**

The name of an entry is a label and the number of the entries before it.  The label may end in
digits, but the underscore between both is the last one of the name, so the number can be read off
the name: names with different numbers are different.  As long as entries are numbered in order, a
new one therefore has a name that none of them has, and goes behind them.

Main definitions:

* `BoundQuery.entryName` — the name of an entry;
* `BoundQuery.Numbered` — entries are numbered in order, behind labels of one class.

Main results:

* `BoundQuery.entryName_inj` — a name determines the label and the number;
* `BoundQuery.isIdentifier_entryName`, `BoundQuery.entryName_notMem_keywords` — a name is an
  identifier when its label is one, and no word of the query language;
* `BoundQuery.Numbered.nodup` — the names of numbered entries are different;
* `BoundQuery.Numbered.insertEntry_eq` — a new entry replaces none of those that are numbered.
-/

import BoundQuery.Binding.Table
import BoundQuery.Proofs.Text.Numeral

set_option relaxedAutoImplicit false
set_option autoImplicit false

namespace BoundQuery

/-! ### Names -/

theorem isIdentifierChar_of_mem {s : String} (h : isIdentifier s = true) :
    ∀ c ∈ s.toList, isIdentifierChar c = true := by
  unfold isIdentifier at h
  cases hs : s.toList with
  | nil => simp
  | cons c cs =>
      rw [hs, isIdentifierText, Bool.and_eq_true, List.all_eq_true] at h
      intro d hd
      rcases List.mem_cons.1 hd with rfl | hd
      · rcases Bool.or_eq_true _ _ ▸ h.1 with ha | hu
        · simp [isIdentifierChar, Char.isAlphanum, ha]
        · simp [isIdentifierChar, hu]
      · exact h.2 d hd

/-- A character of no identifier is not in one. -/
theorem notMem_of_isIdentifier {s : String} (h : isIdentifier s = true) {c : Char}
    (hc : isIdentifierChar c = false) : c ∉ s.toList := by
  intro hmem
  rw [isIdentifierChar_of_mem h c hmem] at hc
  cases hc

/-- The name of the entry that comes after `n` others. -/
def entryName (label : String) (n : Nat) : String := label ++ "_" ++ String.ofList (decimal n)

theorem nextName_eq (t : Table) (label : String) : t.nextName label = entryName label t.size := rfl

theorem decimal_inj {m n : Nat} (h : decimal m = decimal n) : m = n := by
  rw [← ofDigits_decimal m, h, ofDigits_decimal]

theorem toList_entryName (label : String) (n : Nat) :
    (entryName label n).toList = label.toList ++ '_' :: decimal n := by
  simp [entryName]

/-- Read from the end, the name of an entry is its number up to an underscore. -/
theorem takeDigits_reverse_entryName (label : String) (n : Nat) :
    takeDigits (entryName label n).toList.reverse =
      ((decimal n).reverse, '_' :: label.toList.reverse) := by
  have hname : (entryName label n).toList.reverse =
      (decimal n).reverse ++ '_' :: label.toList.reverse := by
    simp [toList_entryName]
  rw [hname]
  refine takeDigits_append _ _ ?_ (head_not_isDigit rfl _)
  intro c hc
  exact isDigit_of_mem_decimal (List.mem_reverse.1 hc)

/-- The name of an entry determines its label and its number. -/
theorem entryName_inj {label label' : String} {m n : Nat}
    (h : entryName label m = entryName label' n) : label = label' ∧ m = n := by
  have hm := takeDigits_reverse_entryName label m
  rw [h, takeDigits_reverse_entryName label' n] at hm
  obtain ⟨hnumber, hlabel⟩ := Prod.mk.inj hm
  refine ⟨?_, (decimal_inj (List.reverse_inj.1 hnumber)).symm⟩
  exact (String.toList_inj.1 (List.reverse_inj.1 (List.cons.inj hlabel).2)).symm

/-- Behind a label that is an identifier, the name is one. -/
theorem isIdentifier_entryName {label : String} (h : isIdentifier label = true) (n : Nat) :
    isIdentifier (entryName label n) = true := by
  unfold entryName
  refine isIdentifier_append (isIdentifier_append h (by simp [isIdentifierChar])) ?_
  intro c hc
  rw [String.toList_ofList] at hc
  have hdigit : c.isDigit = true := isDigit_of_mem_decimal hc
  simp [isIdentifierChar, Char.isAlphanum, hdigit]

/-- A name ends in a digit, and no word of the query language does. -/
theorem entryName_notMem_keywords (label : String) (n : Nat) : entryName label n ∉ keywords := by
  have hkeywords : ∀ k ∈ keywords, k.toList.getLast?.all (fun c => !c.isDigit) = true := by decide
  intro hmem
  have hname : (entryName label n).toList =
      (label.toList ++ '_' :: (decimal n).dropLast) ++ [(decimal n).getLast (decimal_ne_nil n)] := by
    rw [toList_entryName, List.append_assoc, List.cons_append, List.dropLast_concat_getLast]
  have hlast : (entryName label n).toList.getLast? =
      some ((decimal n).getLast (decimal_ne_nil n)) := by
    rw [hname, List.getLast?_concat]
  have hdigit : ((decimal n).getLast (decimal_ne_nil n)).isDigit = true :=
    isDigit_of_mem_decimal (List.getLast_mem _)
  have hend := hkeywords _ hmem
  rw [hlast, Option.all_some, hdigit] at hend
  cases hend

/-! ### Numbered entries -/

/-- The names of entries have the numbers from `n` on, behind labels of one class. -/
def Numbered (P : String → Prop) : Nat → List (String × Value) → Prop
  | _, [] => True
  | n, e :: es => (∃ label, P label ∧ e.1 = entryName label n) ∧ Numbered P (n + 1) es

namespace Numbered

variable {P Q : String → Prop} {n : Nat} {es fs : List (String × Value)}

theorem mono (h : Numbered P n es) (hPQ : ∀ label, P label → Q label) : Numbered Q n es := by
  induction es generalizing n with
  | nil => trivial
  | cons e es ih =>
      obtain ⟨⟨label, hP, hname⟩, hes⟩ := h
      exact ⟨⟨label, hPQ label hP, hname⟩, ih hes⟩

theorem append (hes : Numbered P n es) (hfs : Numbered P (n + es.length) fs) :
    Numbered P n (es ++ fs) := by
  induction es generalizing n with
  | nil => exact hfs
  | cons e es ih =>
      obtain ⟨hname, hes⟩ := hes
      rw [List.length_cons, Nat.add_comm es.length, ← Nat.add_assoc] at hfs
      exact ⟨hname, ih hes hfs⟩

theorem of_append (h : Numbered P n (es ++ fs)) : Numbered P n es := by
  induction es generalizing n with
  | nil => trivial
  | cons e es ih => exact ⟨h.1, ih h.2⟩

/-- The number of an entry is its place. -/
theorem exists_label (h : Numbered P n es) {i : Nat} {e : String × Value} (he : es[i]? = some e) :
    ∃ label, P label ∧ e.1 = entryName label (n + i) := by
  induction es generalizing n i with
  | nil => cases he
  | cons e' es ih =>
      obtain ⟨hname, hes⟩ := h
      cases i with
      | zero =>
          cases he
          exact hname
      | succ i =>
          have hrest := ih hes he
          rwa [Nat.add_right_comm] at hrest

/-- A name with a number before the first one or behind the last one is not among them. -/
theorem entryName_notMem (h : Numbered P n es) {k : Nat} (hk : k < n ∨ n + es.length ≤ k)
    (label : String) : entryName label k ∉ es.map Prod.fst := by
  intro hmem
  obtain ⟨e, he, hname⟩ := List.mem_map.1 hmem
  obtain ⟨i, hi, hget⟩ := List.mem_iff_getElem.1 he
  obtain ⟨label', -, hnumber⟩ := h.exists_label (List.getElem?_eq_some_iff.2 ⟨hi, hget⟩)
  have hsame : n + i = k := (entryName_inj (hnumber.symm.trans hname)).2
  omega

/-- The names of numbered entries are different. -/
theorem nodup (h : Numbered P n es) : (es.map Prod.fst).Nodup := by
  induction es generalizing n with
  | nil => exact List.nodup_nil
  | cons e es ih =>
      obtain ⟨⟨label, -, hname⟩, hes⟩ := h
      rw [List.map_cons, List.nodup_cons, hname]
      exact ⟨hes.entryName_notMem (Or.inl (Nat.lt_succ_self n)) label, ih hes⟩

end Numbered

/-- A value under a name that no entry has goes behind the entries. -/
theorem insertEntry_of_notMem {name : String} {v : Value} {es : List (String × Value)}
    (h : name ∉ es.map Prod.fst) : Table.insertEntry name v es = es ++ [(name, v)] := by
  induction es with
  | nil => rfl
  | cons e es ih =>
      rw [List.map_cons, List.mem_cons, not_or] at h
      obtain ⟨hne, hnotMem⟩ := h
      rw [Table.insertEntry, if_neg (Ne.symm hne), ih hnotMem]
      rfl

/-- A new entry replaces none of those that are numbered. -/
theorem Numbered.insertEntry_eq {P : String → Prop} {es : List (String × Value)}
    (h : Numbered P 0 es) (label : String) (v : Value) :
    Table.insertEntry (entryName label es.length) v es =
      es ++ [(entryName label es.length, v)] :=
  insertEntry_of_notMem (h.entryName_notMem (Or.inr (by omega)) label)

end BoundQuery
