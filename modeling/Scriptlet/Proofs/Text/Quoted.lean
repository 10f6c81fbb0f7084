import Mathlib.Data.List.Basic
import Mathlib.Order.Basic
import Scriptlet.Text.Quoted

/-!
# Quotation marks tell where a text ends

A text between quotation marks can hold quotation marks, backslashes and anything else, and still
whatever is written behind it cannot be taken for a part of it. No character is given in a way that
begins the way another is given, so what is between the marks can be read in one way only, and the
mark at the end is the first that does not belong to a character.

## Main results

* `Text.escaped_append_inj` — a character can be told from how it is given, whatever follows
* `Text.quoted_append_inj` — so can a text between quotation marks
-/

namespace Scriptlet

namespace Text

/-! ## Numbers -/

theorem digitChar_inj {m n : Nat} (hm : m < 16) (hn : n < 16)
    (h : Nat.digitChar m = Nat.digitChar n) : m = n := by
  have hall : ∀ m < 16, ∀ n < 16, Nat.digitChar m = Nat.digitChar n → m = n := by decide
  exact hall m hm n hn h

section Digits

variable {base : Nat}

/-- The last digit, and the digits in front of it. -/
theorem toDigits_eq_concat (hbase : 1 < base) (n : Nat) : Nat.toDigits base n =
    (if n < base then [] else Nat.toDigits base (n / base)) ++ [Nat.digitChar (n % base)] := by
  rw [Nat.toDigits_eq_if hbase]
  split
  · next hlt => rw [Nat.mod_eq_of_lt hlt, List.nil_append]
  · rfl

/-- No digit is the brace that ends a number. -/
theorem not_mem_toDigits (hbase : 1 < base) (hle : base ≤ 16) (n : Nat) :
    '}' ∉ Nat.toDigits base n := by
  have hdigit : ∀ m < 16, '}' ≠ Nat.digitChar m := by decide
  induction n using Nat.strongRecOn with
  | ind n ih =>
    rw [toDigits_eq_concat hbase, List.mem_append, List.mem_singleton]
    rintro (hfront | hlast)
    · split at hfront
      · cases hfront
      · exact ih (n / base) (Nat.div_lt_self (by omega) hbase) hfront
    · exact hdigit (n % base) (Nat.lt_of_lt_of_le (Nat.mod_lt _ (by omega)) hle) hlast

/-- The digits of a number tell which it is. -/
theorem toDigits_injective (hbase : 1 < base) (hle : base ≤ 16) :
    Function.Injective (Nat.toDigits base) := by
  have hmod_lt (n : Nat) : n % base < 16 := Nat.lt_of_lt_of_le (Nat.mod_lt n (by omega)) hle
  intro m
  induction m using Nat.strongRecOn with
  | ind m ih =>
    intro n h
    rw [toDigits_eq_concat hbase m, toDigits_eq_concat hbase n, List.append_singleton_inj] at h
    obtain ⟨hfront, hlast⟩ := h
    have hmod := digitChar_inj (hmod_lt m) (hmod_lt n) hlast
    by_cases hm : m < base <;> by_cases hn : n < base
    · rwa [Nat.mod_eq_of_lt hm, Nat.mod_eq_of_lt hn] at hmod
    · rw [if_pos hm, if_neg hn] at hfront
      exact absurd hfront.symm Nat.toDigits_ne_nil
    · rw [if_neg hm, if_pos hn] at hfront
      exact absurd hfront Nat.toDigits_ne_nil
    · rw [if_neg hm, if_neg hn] at hfront
      have hdiv := ih (m / base) (Nat.div_lt_self (by omega) hbase) hfront
      rw [← Nat.div_add_mod m base, hdiv, hmod, Nat.div_add_mod]

end Digits

/-- A number can be told from its digits, as it is written in a text. -/
theorem toString_nat_injective : Function.Injective (toString : Nat → String) := by
  intro m n h
  rw [Nat.toString_eq_repr, Nat.toString_eq_repr, Nat.repr_eq_ofList_toDigits,
    Nat.repr_eq_ofList_toDigits, String.ofList_inj] at h
  exact toDigits_injective (by decide) (by decide) h

/-! ## Characters -/

/-- How a character can be given. -/
inductive Given (c : Char) : List Char → Prop
  | letter {letter : Char} (h : (c, letter) ∈ letters) : Given c ['\\', letter]
  | number : Given c ('\\' :: 'u' :: '{' :: (Nat.toDigits 16 c.toNat ++ ['}']))
  | plain (hbackslash : c ≠ '\\') (hquote : c ≠ '"') : Given c [c]

theorem given_escaped (c : Char) : Given c (escaped c) := by
  unfold escaped
  split
  · next letter h =>
    obtain ⟨front, behind, hletters, _⟩ := List.lookup_eq_some_iff.mp h
    refine .letter ?_
    rw [hletters]
    exact List.mem_append_right _ (.head _)
  · next h =>
    split
    · exact .number
    · refine .plain ?_ ?_ <;> rintro rfl <;> revert h <;> decide

/-- No letter stands for two characters, and none for a number. -/
theorem letters_distinct {one other : Char × Char} (hone : one ∈ letters) (hother : other ∈ letters) :
    one.2 ≠ 'u' ∧ (one.2 = other.2 → one.1 = other.1) := by
  have hall : letters.all (fun one => letters.all fun other =>
      one.2 != 'u' && (one.2 != other.2 || one.1 == other.1)) = true := by decide
  have hpair := List.all_eq_true.mp (List.all_eq_true.mp hall one hone) other hother
  simpa [imp_iff_not_or] using hpair

/-- A character can be told from how it is given, whatever follows. -/
theorem Given.append_inj {c d : Char} {first second rest behind : List Char} (hc : Given c first)
    (hd : Given d second) (h : first ++ rest = second ++ behind) : c = d ∧ rest = behind := by
  cases hc with
  | letter hc =>
    cases hd with
    | letter hd =>
      obtain ⟨hsame, hrest⟩ := List.cons.inj (List.cons.inj h).2
      exact ⟨(letters_distinct hc hd).2 hsame, hrest⟩
    | number => exact absurd (List.cons.inj (List.cons.inj h).2).1 (letters_distinct hc hc).1
    | plain hbackslash _ => exact absurd (List.cons.inj h).1.symm hbackslash
  | number =>
    cases hd with
    | letter hd => exact absurd (List.cons.inj (List.cons.inj h).2).1.symm (letters_distinct hd hd).1
    | number =>
      simp only [List.cons_append, List.append_assoc, List.nil_append, List.cons.injEq,
        true_and] at h
      -- The first brace ends the number, so there are as many digits.
      have hindex := congrArg (List.idxOf '}') h
      have hbrace (n : Nat) : '}' ∉ Nat.toDigits 16 n :=
        not_mem_toDigits (by decide) (Nat.le_refl 16) n
      rw [List.idxOf_append_of_notMem (hbrace _), List.idxOf_append_of_notMem (hbrace _),
        List.idxOf_cons_self, List.idxOf_cons_self] at hindex
      obtain ⟨hdigits, hrest⟩ := List.append_inj h hindex
      have hnumber := toDigits_injective (by decide) (Nat.le_refl 16) hdigits
      exact ⟨Char.toNat_inj.mp hnumber, (List.cons.inj hrest).2⟩
    | plain hbackslash _ => exact absurd (List.cons.inj h).1.symm hbackslash
  | plain hbackslash _ =>
    cases hd with
    | letter | number => exact absurd (List.cons.inj h).1 hbackslash
    | plain => exact List.cons.inj h

theorem escaped_append_inj {c d : Char} {rest behind : List Char}
    (h : escaped c ++ rest = escaped d ++ behind) : c = d ∧ rest = behind :=
  (given_escaped c).append_inj (given_escaped d) h

/-- No character is given in a way that begins with a quotation mark. -/
theorem escaped_append_ne (c : Char) (rest behind : List Char) :
    escaped c ++ rest ≠ '"' :: behind := by
  intro h
  generalize hgiven : escaped c = given at h
  cases hgiven ▸ given_escaped c with
  | letter => exact absurd (List.cons.inj h).1 (by decide)
  | number => exact absurd (List.cons.inj h).1 (by decide)
  | plain _ hquote => exact hquote (List.cons.inj h).1

/-! ## Texts -/

theorem flatMap_escaped_inj {first second rest behind : List Char}
    (h : first.flatMap escaped ++ '"' :: rest = second.flatMap escaped ++ '"' :: behind) :
    first = second ∧ rest = behind := by
  induction first generalizing second with
  | nil =>
    cases second with
    | nil => exact ⟨rfl, (List.cons.inj h).2⟩
    | cons d second =>
      rw [List.flatMap_cons, List.append_assoc] at h
      exact absurd h.symm (escaped_append_ne _ _ _)
  | cons c first ih =>
    rw [List.flatMap_cons, List.append_assoc] at h
    cases second with
    | nil => exact absurd h (escaped_append_ne _ _ _)
    | cons d second =>
      rw [List.flatMap_cons, List.append_assoc] at h
      obtain ⟨rfl, htail⟩ := escaped_append_inj h
      obtain ⟨rfl, hrest⟩ := ih htail
      exact ⟨rfl, hrest⟩

theorem toList_quoted (text : String) :
    (quoted text).toList = '"' :: (text.toList.flatMap escaped ++ ['"']) := String.toList_ofList

/-- **A text between quotation marks can be told from what follows it.** -/
theorem quoted_append_inj {first second : String} {rest behind : List Char}
    (h : (quoted first).toList ++ rest = (quoted second).toList ++ behind) :
    first = second ∧ rest = behind := by
  simp only [toList_quoted, List.cons_append, List.append_assoc, List.nil_append,
    List.cons.injEq, true_and] at h
  obtain ⟨htext, hrest⟩ := flatMap_escaped_inj h
  exact ⟨String.toList_injective htext, hrest⟩

/-- What ends a text elsewhere does not end this one. -/
example : quoted "a\", \"b" = "\"a\\\", \\\"b\"" := by decide +kernel

end Text

end Scriptlet
