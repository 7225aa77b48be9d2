/-!
# Octets

What travels over a connection is a list of octets.  A text is sent as UTF-8; header values and
other single-byte text are read and written one character per octet (`latin`).
-/

namespace Gatehouse

abbrev Octets := List UInt8

namespace Octets

def ofText (s : String) : Octets := s.toUTF8.data.toList

/-- The text whose UTF-8 form this is, if there is one. -/
def text? (bs : Octets) : Option String := String.fromUTF8? ⟨bs.toArray⟩

/-- One octet per character, for characters up to U+00FF. -/
def ofLatin (s : String) : Octets := s.toList.map fun c => c.toNat.toUInt8

/-- One character per octet. -/
def latin (bs : Octets) : String := String.ofList (bs.map fun b => Char.ofNat b.toNat)

/-- The octet, with the letters a to z in upper case. -/
def upper (b : UInt8) : UInt8 := if 97 ≤ b && b ≤ 122 then b - 32 else b

/-- The octet, with the letters A to Z in lower case. -/
def lower (b : UInt8) : UInt8 := if 65 ≤ b && b ≤ 90 then b + 32 else b

/-- The hexadecimal digit of a number below sixteen, in lower case. -/
def hexDigit (n : Nat) : Char := if n < 10 then Char.ofNat (48 + n) else Char.ofNat (87 + n)

/-- Two lower-case hexadecimal digits per octet. -/
def hex (bs : Octets) : String :=
  String.ofList (bs.flatMap fun b => [hexDigit (b.toNat / 16), hexDigit (b.toNat % 16)])

/-- The number whose digits in base 256 these are, the first the most significant. -/
def toNat (bs : Octets) : Nat := bs.foldl (fun n b => n * 256 + b.toNat) 0

/-- The last digits in base 256 of a number, the most significant first. -/
def bigEndian : (length : Nat) → Nat → Octets
  | 0, _ => []
  | length + 1, n => bigEndian length (n / 256) ++ [n.toUInt8]

/-! ## Lemmas -/

@[simp] theorem toList_latin (bs : Octets) :
    (latin bs).toList = bs.map fun b => Char.ofNat b.toNat := by
  simp [latin]

theorem ofLatin_latin (bs : Octets) : ofLatin (latin bs) = bs := by
  have h : ∀ b : UInt8, (Char.ofNat b.toNat).toNat.toUInt8 = b := by
    intro b
    have hb : b.toNat < 256 := b.toNat_lt
    have : (Char.ofNat b.toNat).toNat = b.toNat := by
      unfold Char.ofNat
      rw [dif_pos (by unfold Nat.isValidChar; omega)]
      rfl
    rw [this]; simp
  simp only [ofLatin, toList_latin, List.map_map]
  conv => rhs; rw [← List.map_id bs]
  exact List.map_congr_left fun b _ => h b

theorem latin_ofLatin (s : String) (h : ∀ c ∈ s.toList, c.toNat < 256) : latin (ofLatin s) = s := by
  have hchar : ∀ c ∈ s.toList, Char.ofNat c.toNat.toUInt8.toNat = c := by
    intro c hc
    have hoctet : c.toNat.toUInt8.toNat = c.toNat := UInt8.toNat_ofNat_of_lt' (h c hc)
    rw [hoctet, Char.ofNat_toNat]
  have hmap : (ofLatin s).map (fun b => Char.ofNat b.toNat) = s.toList := by
    rw [ofLatin, List.map_map]
    exact (List.map_congr_left hchar).trans (List.map_id _)
  rw [latin, hmap, String.ofList_toList]

theorem ofText_ofList (cs : List Char) :
    ofText (String.ofList cs) = cs.flatMap String.utf8EncodeChar := by
  show (cs.flatMap String.utf8EncodeChar).toByteArray.data.toList = _
  simp

/-- ASCII text has one octet per character. -/
theorem ofText_eq_ofLatin (s : String) (h : ∀ c ∈ s.toList, c.toNat < 128) :
    ofText s = ofLatin s := by
  rw [← String.ofList_toList (s := s), ofText_ofList]
  unfold ofLatin
  rw [String.toList_ofList]
  generalize s.toList = cs at h
  induction cs with
  | nil => rfl
  | cons c cs ih =>
    have hc : c.toNat < 128 := h c List.mem_cons_self
    have he : String.utf8EncodeChar c = [c.toNat.toUInt8] := by
      unfold String.utf8EncodeChar
      rw [if_pos (by show c.toNat ≤ 127; omega)]
      rfl
    rw [List.flatMap_cons, he, ih fun d hd => h d (List.mem_cons_of_mem c hd)]
    rfl

end Octets

end Gatehouse
