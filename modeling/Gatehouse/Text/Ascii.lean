/-!
# ASCII letters

Host names, header names and protocol names are compared without regard to the case of the
letters A to Z; all other characters count as they are.
-/

namespace Gatehouse.Text

/-- The text with the letters A to Z in lower case. -/
def lower (s : String) : String := String.ofList (s.toList.map Char.toLower)

/-- Equality up to the case of the letters A to Z. -/
def caselessEq (s t : String) : Bool := lower s == lower t

def isDigit (c : Char) : Bool := '0' ≤ c && c ≤ '9'

def isLetter (c : Char) : Bool := ('a' ≤ c && c ≤ 'z') || ('A' ≤ c && c ≤ 'Z')

/-- A character of ASCII that prints something. -/
def isGraphic (c : Char) : Bool := 0x20 < c.toNat && c.toNat < 0x7f

/-- The value of a digit in some base up to sixteen; letters count from ten. -/
def digitValue (c : Char) : Option Nat :=
  if isDigit c then some (c.toNat - '0'.toNat)
  else if 'a' ≤ c && c ≤ 'f' then some (c.toNat - 'a'.toNat + 10)
  else if 'A' ≤ c && c ≤ 'F' then some (c.toNat - 'A'.toNat + 10)
  else none

/-- The value of a digit of the base. -/
def digitOf (base : Nat) (c : Char) : Option Nat :=
  (digitValue c).filter (· < base)

/-- Reads the whole list as digits of the base; the empty list is no number. -/
def readNat (base : Nat) (cs : List Char) : Option Nat :=
  if cs.isEmpty then none
  else cs.foldl (fun acc c => do pure ((← acc) * base + (← digitOf base c))) (some 0)

/-! ## Lemmas -/

@[simp] theorem toList_lower (s : String) : (lower s).toList = s.toList.map Char.toLower := by
  simp [lower]

theorem caselessEq_iff (s t : String) : caselessEq s t = true ↔ lower s = lower t := by
  simp [caselessEq]

def IsCapital (c : Char) : Prop := c.val ≥ 'A'.val ∧ c.val ≤ 'Z'.val

theorem toLower_val {c : Char} (h : IsCapital c) : c.toLower.val = c.val + 32 :=
  congrArg Char.val (dif_pos h)

theorem toLower_of_not {c : Char} (h : ¬IsCapital c) : c.toLower = c := dif_neg h

/-- The small letter of a capital one is none. -/
theorem lt_toLower {c : Char} (h : IsCapital c) : 'Z'.val < c.toLower.val := by
  rw [toLower_val h]
  simp only [IsCapital, ge_iff_le, UInt32.le_iff_toNat_le] at h
  simp [UInt32.lt_iff_toNat_lt, UInt32.toNat_add] at h ⊢
  omega

/-- A change of case neither makes nor hides a character before the small letters that is no
letter. -/
theorem toLower_beq {d : Char} (hd : d.val ≤ 'Z'.val) (hnot : ¬IsCapital d) (c : Char) :
    (c.toLower == d) = (c == d) := by
  by_cases h : IsCapital c
  · have hc : c ≠ d := by
      rintro rfl
      exact hnot h
    have hlower : c.toLower ≠ d := by
      rintro rfl
      exact UInt32.not_lt.mpr hd (lt_toLower h)
    rw [beq_false_of_ne hc, beq_false_of_ne hlower]
  · rw [toLower_of_not h]

/-- A change of case neither makes nor hides a point. -/
theorem toLower_eq_point (c : Char) : (c.toLower == '.') = (c == '.') :=
  toLower_beq (by decide) (fun h => absurd h.1 (by decide)) c

/-- What is in small letters stays as it is. -/
@[simp] theorem toLower_toLower (c : Char) : c.toLower.toLower = c.toLower := by
  by_cases h : IsCapital c
  · exact toLower_of_not fun hcapital => UInt32.not_lt.mpr hcapital.2 (lt_toLower h)
  · rw [toLower_of_not h, toLower_of_not h]

theorem isGraphic_iff (c : Char) : isGraphic c = true ↔ 0x20 < c.toNat ∧ c.toNat < 0x7f := by
  simp [isGraphic]

theorem isGraphic_of_isLetter (c : Char) (h : isLetter c = true) : isGraphic c = true := by
  simp only [isLetter, Bool.or_eq_true, Bool.and_eq_true, decide_eq_true_eq, Char.le_def,
    UInt32.le_iff_toNat_le] at h
  rw [isGraphic_iff]
  have e : c.toNat = c.val.toNat := rfl
  simp at h
  omega

theorem isGraphic_of_isDigit (c : Char) (h : isDigit c = true) : isGraphic c = true := by
  simp only [isDigit, Bool.and_eq_true, decide_eq_true_eq, Char.le_def,
    UInt32.le_iff_toNat_le] at h
  rw [isGraphic_iff]
  have e : c.toNat = c.val.toNat := rfl
  simp at h
  omega

theorem isGraphic_toLower_ofNat : ∀ n, n < 0x7f →
    isGraphic (Char.ofNat n) = true → isGraphic (Char.ofNat n).toLower = true := by
  decide +kernel

theorem isGraphic_toLower (c : Char) (h : isGraphic c = true) : isGraphic c.toLower = true := by
  have hc := (isGraphic_iff c).1 h
  rw [← Char.ofNat_toNat c] at h ⊢
  exact isGraphic_toLower_ofNat c.toNat hc.2 h

end Gatehouse.Text
