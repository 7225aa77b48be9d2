import Gatehouse.Octets
import Gatehouse.Text.Ascii
import Gatehouse.Text.Blank
import Gatehouse.Text.Split

/-!
# Header fields

The headers of a message are a list of fields whose names are in lower case.  A name may occur
several times; the order of its values matters, the order between names does not.
-/

namespace Gatehouse.Http

open Text

/-- A header field; the name is in lower case. -/
structure Field where
  name : String
  value : Octets
deriving DecidableEq, Repr

abbrev Headers := List Field

/-- Whether an octet may stand in a field value: no control character but the tab. -/
def isFieldOctet (b : UInt8) : Bool := (32 ≤ b && b != 127) || b == 9

/-- Whether an octet is visible ASCII, a space or a tab. -/
def isVisible (b : UInt8) : Bool := (32 ≤ b && b < 127) || b == 9

/-- A field value as text, if all of it is visible. -/
def visibleText? (value : Octets) : Option String :=
  if value.all isVisible then some (Octets.latin value) else none

theorem isFieldOctet_of_isVisible {b : UInt8} (h : isVisible b = true) : isFieldOctet b = true := by
  simp only [isVisible, isFieldOctet, Bool.or_eq_true, Bool.and_eq_true, decide_eq_true_eq,
    bne_iff_ne] at h ⊢
  exact h.imp_left fun hrange => ⟨hrange.1, UInt8.ne_of_lt hrange.2⟩

theorem all_isVisible_ofText {s : String} (h : ∀ c ∈ s.toList, isGraphic c = true) :
    (Octets.ofText s).all isVisible = true := by
  have hgraphic : ∀ c ∈ s.toList, 0x20 < c.toNat ∧ c.toNat < 0x7f := fun c hc =>
    (isGraphic_iff c).mp (h c hc)
  rw [Octets.ofText_eq_ofLatin s fun c hc => Nat.lt_succ_of_lt (hgraphic c hc).2, Octets.ofLatin,
    List.all_map, List.all_eq_true]
  intro c hc
  obtain ⟨hlow, hhigh⟩ := hgraphic c hc
  have hoctet : c.toNat.toUInt8.toNat = c.toNat :=
    UInt8.toNat_ofNat_of_lt' (Nat.lt_trans hhigh (by decide))
  simp only [Function.comp, isVisible, Bool.or_eq_true, Bool.and_eq_true, decide_eq_true_eq,
    UInt8.le_iff_toNat_le, UInt8.lt_iff_toNat_lt, hoctet]
  exact .inl ⟨Nat.le_of_lt hlow, hhigh⟩

theorem all_isFieldOctet_ofText {s : String} (h : ∀ c ∈ s.toList, isGraphic c = true) :
    (Octets.ofText s).all isFieldOctet = true :=
  List.all_eq_true.mpr fun b hb =>
    isFieldOctet_of_isVisible (List.all_eq_true.mp (all_isVisible_ofText h) b hb)

theorem visibleText?_ofText {s : String} (h : ∀ c ∈ s.toList, isGraphic c = true) :
    visibleText? (Octets.ofText s) = some s := by
  have hascii : ∀ c ∈ s.toList, c.toNat < 128 := fun c hc =>
    Nat.lt_succ_of_lt ((isGraphic_iff c).mp (h c hc)).2
  rw [visibleText?, if_pos (all_isVisible_ofText h), Octets.ofText_eq_ofLatin s hascii,
    Octets.latin_ofLatin s fun c hc => Nat.lt_trans (hascii c hc) (by decide)]

namespace Headers

def values (hs : Headers) (name : String) : List Octets :=
  (hs.filter (·.name == name)).map (·.value)

def first? (hs : Headers) (name : String) : Option Octets := (hs.values name).head?

def has (hs : Headers) (name : String) : Bool := hs.any (·.name == name)

def erase (hs : Headers) (name : String) : Headers := hs.filter (·.name != name)

def eraseAll (hs : Headers) (names : List String) : Headers := names.foldl erase hs

/-- The headers with this as the only value of the name. -/
def set (hs : Headers) (name : String) (value : Octets) : Headers :=
  hs.erase name ++ [⟨name, value⟩]

/-- The headers with this as the only value of the name, given as text. -/
def setText (hs : Headers) (name value : String) : Headers := hs.set name (Octets.ofText value)

/-- Whether some value of the name, read as a list separated by commas, holds the token. -/
def hasToken (hs : Headers) (name token : String) : Bool :=
  (hs.values name).any fun value =>
    match visibleText? value with
    | none => false
    | some text =>
      (splitAll (· == ',') text.toList).any fun part =>
        caselessEq (String.ofList (trimChars part)) token

/-! ## Lemmas

What an operation on headers does is said by the values of each name; what is read from headers
depends on these values only. -/

variable (hs : Headers)

theorem values_append (hs' : Headers) (n : String) :
    (hs ++ hs').values n = hs.values n ++ hs'.values n := by
  simp [values, List.filter_append]

theorem values_erase (m n : String) :
    (hs.erase m).values n = if n = m then [] else hs.values n := by
  unfold values erase
  rw [List.filter_filter]
  split
  · next h =>
    subst h
    rw [List.filter_eq_nil_iff.2 fun f _ => by simp]
    rfl
  · next h =>
    congr 1
    apply List.filter_congr
    intro f _
    by_cases hf : f.name = n <;> simp [hf, h]

theorem values_eraseAll (names : List String) (n : String) :
    (hs.eraseAll names).values n = if n ∈ names then [] else hs.values n := by
  unfold eraseAll
  induction names generalizing hs with
  | nil => simp
  | cons m names ih =>
    rw [List.foldl_cons, ih, values_erase]
    by_cases hn : n ∈ names <;> by_cases hm : n = m <;> simp [hn, hm]

theorem values_set (m : String) (value : Octets) (n : String) :
    (hs.set m value).values n = if n = m then [value] else hs.values n := by
  unfold set
  rw [values_append, values_erase]
  by_cases h : n = m
  · simp [h, values]
  · simp [h, values, Ne.symm h]

theorem values_setText (m value n : String) :
    (hs.setText m value).values n = if n = m then [Octets.ofText value] else hs.values n :=
  values_set hs m _ n

variable {hs}

theorem first?_congr {hs' : Headers} {n : String} (h : hs.values n = hs'.values n) :
    hs.first? n = hs'.first? n := by
  simp only [first?, h]

theorem hasToken_congr {hs' : Headers} {n : String} (h : hs.values n = hs'.values n)
    (token : String) : hs.hasToken n token = hs'.hasToken n token := by
  simp only [hasToken, h]

end Headers

end Gatehouse.Http
