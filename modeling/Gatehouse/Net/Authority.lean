import Gatehouse.Text.Ascii
import Gatehouse.Text.Blank
import Gatehouse.Text.Split

/-!
# Authorities

The authority of a URI is `userinfo@host:port`, where the user information and the port are
optional.  `Authority.ofText?` accepts a text of the allowed characters whose brackets are one pair
at most, with at most one colon after the last `@` or `]`, where percent signs come only before an
`@` or a `]`, and where something follows the last `@`.
-/

namespace Gatehouse.Net

open Text

/-- An accepted authority, kept as it is written. -/
structure Authority where
  text : String
deriving DecidableEq, Repr

namespace Authority

def endsAuthority (c : Char) : Bool := c == '/' || c == '?' || c == '#'

/-- The characters that may stand in an authority, apart from colons, brackets, `@` and `%`. -/
def isPlain (c : Char) : Bool :=
  isLetter c || isDigit c || "!$&'()*+,-.;=_~".toList.contains c

/-- The characters that may stand in an authority. -/
def isAllowed (c : Char) : Bool := isPlain c || ":[]@%".toList.contains c

structure Scan where
  /-- Colons since the last `@` or `]`. -/
  colons : Nat := 0
  opened : Bool := false
  closed : Bool := false
  /-- A percent sign since the last `@` or `]`. -/
  percent : Bool := false
  /-- Characters since the last `@`, if there was one. -/
  sinceAt : Option Nat := none
deriving Repr

/-- One more character; `none` if it cannot stand here. -/
def Scan.step (s : Scan) (c : Char) : Option Scan :=
  let s' := { s with sinceAt := s.sinceAt.map (· + 1) }
  if c == ':' then
    if 8 ≤ s.colons then none else some { s' with colons := s.colons + 1 }
  else if c == '[' then
    if s.percent || s.opened then none else some { s' with opened := true }
  else if c == ']' then
    if s.closed || !s.opened then none
    else some { s' with closed := true, colons := 0, percent := false }
  else if c == '@' then
    some { s with sinceAt := some 0, colons := 0, percent := false }
  else if c == '%' then some { s' with percent := true }
  else if isPlain c then some s'
  else none

/-- What a scan must have seen for an authority to be complete. -/
def Scan.complete (s : Scan) : Bool :=
  s.opened == s.closed && s.colons ≤ 1 && s.sinceAt != some 0 && !s.percent

/-- The length of the authority at the front of a text, up to a character that ends it. -/
def scan (cs : List Char) : Option Nat := go {} 0 cs
where
  /-- Scans on from a state. -/
  go (s : Scan) (n : Nat) : List Char → Option Nat
    | [] => if s.complete then some n else none
    | c :: r =>
      if endsAuthority c then if s.complete then some n else none
      else match s.step c with
        | none => none
        | some s => go s (n + 1) r

/-- The authority that the whole text writes; the empty text writes none. -/
def ofText? (s : String) : Option Authority :=
  if s.isEmpty then none
  else if scan s.toList = some s.toList.length then some ⟨s⟩ else none

/-- Up to and with the first character that satisfies `p`; all if there is none. -/
def upTo (p : Char → Bool) (cs : List Char) : List Char :=
  cs.takeWhile (fun c => !p c) ++ (cs.dropWhile fun c => !p c).take 1

/-- The characters after the last `@`. -/
def afterUser (cs : List Char) : List Char := (cs.reverse.takeWhile (· != '@')).reverse

/-- The host: what follows the last `@`, with brackets around it or else up to a colon. -/
def hostChars (cs : List Char) : List Char :=
  let cs := afterUser cs
  if cs.head? = some '[' then upTo (· == ']') cs else cs.takeWhile (· != ':')

def host (a : Authority) : String := String.ofList (hostChars a.text.toList)

/-- The text after the colon that follows the host, if there is one. -/
def portText? (a : Authority) : Option String :=
  let cs := afterUser a.text.toList
  match cs.drop (hostChars a.text.toList).length with
  | ':' :: port => some (String.ofList port)
  | _ => none

/-- The port, if one is written as a number up to 65535; a plus sign may stand before it. -/
def port? (a : Authority) : Option Nat := do
  let n ← match (← a.portText?).toList with
    | '+' :: r => readNat 10 r
    | r => readNat 10 r
  if n ≤ 65535 then some n else none

/-! ## Lemmas -/

theorem isGraphic_of_isAllowed (c : Char) (h : isAllowed c = true) : isGraphic c = true := by
  simp only [isAllowed, isPlain, Bool.or_eq_true] at h
  rcases h with ((h | h) | h) | h
  · exact isGraphic_of_isLetter c h
  · exact isGraphic_of_isDigit c h
  · have : "!$&'()*+,-.;=_~".toList.all isGraphic = true := by decide
    exact List.all_eq_true.mp this c (by simpa using h)
  · have : ":[]@%".toList.all isGraphic = true := by decide
    exact List.all_eq_true.mp this c (by simpa using h)

theorem isAllowed_of_step {s t : Scan} {c : Char} (h : s.step c = some t) : isAllowed c = true := by
  have special : ":[]@%".toList.all isAllowed = true := by decide
  unfold Scan.step at h
  by_cases hc : c ∈ ":[]@%".toList
  · exact List.all_eq_true.mp special c hc
  · have hne : c ≠ ':' ∧ c ≠ '[' ∧ c ≠ ']' ∧ c ≠ '@' ∧ c ≠ '%' := by simpa using hc
    by_cases hp : isPlain c
    · simp [isAllowed, hp]
    · simp [hne, hp] at h

/-- All that a scan goes over may stand in an authority. -/
theorem isAllowed_of_go {s : Scan} {n m : Nat} {cs : List Char} (h : scan.go s n cs = some m) :
    n ≤ m ∧ ∀ c ∈ cs.take (m - n), isAllowed c = true := by
  induction cs generalizing s n with
  | nil =>
    unfold scan.go at h
    split at h
    · cases h; simp
    · cases h
  | cons d cs ih =>
    unfold scan.go at h
    split at h
    · split at h
      · cases h; simp
      · cases h
    · cases hs : s.step d with
      | none => rw [hs] at h; cases h
      | some t =>
        rw [hs] at h
        obtain ⟨hle, hall⟩ := ih h
        refine ⟨by omega, fun c hc => ?_⟩
        rw [show m - n = (m - (n + 1)) + 1 by omega, List.take_succ_cons] at hc
        rcases List.mem_cons.1 hc with rfl | hc
        · exact isAllowed_of_step hs
        · exact hall c hc

/-- An accepted authority is kept as it was written, in characters that may stand in it. -/
theorem ofText?_eq_some {s : String} {a : Authority} (h : ofText? s = some a) :
    a.text = s ∧ ∀ c ∈ s.toList, isAllowed c = true := by
  unfold ofText? at h
  split at h
  · cases h
  · split at h
    · next hs =>
      cases h
      have := (isAllowed_of_go hs).2
      rw [Nat.sub_zero, List.take_length] at this
      exact ⟨rfl, this⟩
    · cases h

theorem mem_of_mem_afterUser {c : Char} {cs : List Char} (h : c ∈ afterUser cs) : c ∈ cs := by
  unfold afterUser at h
  exact List.mem_reverse.1 ((List.takeWhile_sublist _).mem (List.mem_reverse.1 h))

theorem mem_of_mem_upTo {p : Char → Bool} {c : Char} {cs : List Char} (h : c ∈ upTo p cs) :
    c ∈ cs := by
  unfold upTo at h
  rcases List.mem_append.1 h with h | h
  · exact (List.takeWhile_sublist _).mem h
  · exact (List.dropWhile_sublist _).mem (List.mem_of_mem_take h)

/-- The host is a part of the authority. -/
theorem mem_of_mem_hostChars {c : Char} {cs : List Char} (h : c ∈ hostChars cs) : c ∈ cs := by
  unfold hostChars at h
  simp only at h
  split at h
  · exact mem_of_mem_afterUser (mem_of_mem_upTo h)
  · exact mem_of_mem_afterUser ((List.takeWhile_sublist _).mem h)

/-- The host of an accepted authority is visible text. -/
theorem isGraphic_of_mem_host {s : String} {a : Authority} (h : ofText? s = some a) {c : Char}
    (hc : c ∈ a.host.toList) : isGraphic c = true := by
  obtain ⟨rfl, hall⟩ := ofText?_eq_some h
  rw [host, String.toList_ofList] at hc
  exact isGraphic_of_isAllowed c (hall c (mem_of_mem_hostChars hc))

end Authority

end Gatehouse.Net
