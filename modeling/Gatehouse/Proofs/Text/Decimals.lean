import Gatehouse.Text.Ascii
import Mathlib.Algebra.Group.Nat.Defs

/-!
# Written numbers

A number that is written in decimals is read as itself.

    readNat_toString     : the number that is read
    isDigit_of_mem       : the characters that are written
    length_toString_le   : how many there are
-/

namespace Gatehouse.Text

theorem toList_toString (n : Nat) : (toString n).toList = Nat.toDigits 10 n := by
  rw [Nat.toString_eq_repr, Nat.toList_repr]

theorem isDigit_of_mem {n : Nat} {c : Char} (h : c ∈ (toString n).toList) : isDigit c = true := by
  rw [toList_toString] at h
  exact Nat.isDigit_of_mem_toDigits (by decide) (by decide) h

theorem toString_ne_nil (n : Nat) : (toString n).toList ≠ [] := by
  rw [toList_toString]
  exact Nat.toDigits_ne_nil

/-- A number below a power of ten has no more digits than the exponent says. -/
theorem length_toString_le {n k : Nat} (hk : 0 < k) (h : n < 10 ^ k) :
    (toString n).toList.length ≤ k := by
  rw [toList_toString]
  exact (Nat.length_toDigits_le_iff (by decide) hk).mpr h

theorem digitOf_of_isDigit {c : Char} (h : isDigit c = true) :
    digitOf 10 c = some (c.toNat - '0'.toNat) := by
  have hvalue : digitValue c = some (c.toNat - '0'.toNat) := if_pos h
  have hlast : c.toNat ≤ '9'.toNat := by
    simp only [isDigit, Bool.and_eq_true, decide_eq_true_eq] at h
    exact h.2
  have hlt : c.toNat - '0'.toNat < 10 := by
    have hnine : '9'.toNat = 57 := rfl
    have hzero : '0'.toNat = 48 := rfl
    omega
  rw [digitOf, hvalue, Option.filter_some, if_pos (decide_eq_true hlt)]

/-- Digits are read from the left, each ten times as much as the next. -/
theorem foldl_digitOf {cs : List Char} (h : ∀ c ∈ cs, isDigit c = true) (n : Nat) :
    cs.foldl (fun acc c => do pure ((← acc) * 10 + (← digitOf 10 c))) (some n) =
      some (Nat.ofDigitChars 10 cs n) := by
  induction cs generalizing n with
  | nil => rfl
  | cons c cs ih =>
    have hstep : (do pure ((← some n) * 10 + (← digitOf 10 c)) : Option Nat) =
        some (10 * n + (c.toNat - '0'.toNat)) := by
      rw [digitOf_of_isDigit (h c List.mem_cons_self), Nat.mul_comm 10 n]
      rfl
    rw [List.foldl_cons, hstep, ih fun d hd => h d (List.mem_cons_of_mem _ hd),
      Nat.ofDigitChars_cons]

/-- **What is written is read.** -/
theorem readNat_toString (n : Nat) : readNat 10 (toString n).toList = some n := by
  have hempty : ¬(toString n).toList.isEmpty = true := by
    rw [List.isEmpty_iff]
    exact toString_ne_nil n
  rw [readNat, if_neg hempty, foldl_digitOf fun c hc => isDigit_of_mem hc, toList_toString,
    Nat.ofDigitChars_toDigits (by decide) (by decide)]

end Gatehouse.Text
