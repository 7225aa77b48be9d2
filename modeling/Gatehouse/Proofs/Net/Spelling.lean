import Gatehouse.Host
import Gatehouse.Net.Authority
import Mathlib.Data.List.TakeWhile

/-!
# Spellings of a host

In an authority a host may have user information before it and points and a port after it.  None of
this counts: whatever stands around the host, its canonical form is the same.

    Authority.IsHost                 : a name or an address that may be the host
    Authority.Around                 : what stands around a host
    Authority.canonical_hostChars    : it does not count
-/

namespace Gatehouse.Net.Authority

/-- A name or an IPv4 address, or an address in brackets. -/
def IsHost (host : List Char) : Prop :=
  '@' ∉ host ∧ ((host.head? ≠ some '[' ∧ ':' ∉ host) ∨
    ∃ address, host = '[' :: (address ++ [']']) ∧ ']' ∉ address)

/-- What stands around a host: user information, points and a port. -/
structure Around where
  user : Option (List Char) := none
  points : Nat := 0
  port : Option (List Char) := none

def Around.rest (s : Around) : List Char :=
  List.replicate s.points '.' ++ (s.port.map (':' :: ·)).getD []

def Around.write (s : Around) (host : List Char) : List Char :=
  (s.user.map (· ++ ['@'])).getD [] ++ (host ++ s.rest)

/-- A port without a sign that ends user information. -/
def Around.HasPort (s : Around) : Prop := ∀ port, s.port = some port → '@' ∉ port

theorem afterUser_eq_self {cs : List Char} (h : '@' ∉ cs) : afterUser cs = cs := by
  have hall : ∀ c ∈ cs.reverse, (c != '@') = true := fun c hc =>
    bne_iff_ne.mpr fun heq => h (heq ▸ List.mem_reverse.mp hc)
  rw [afterUser, List.takeWhile_eq_self_iff.mpr hall, List.reverse_reverse]

theorem afterUser_append {cs : List Char} (h : '@' ∉ cs) (user : List Char) :
    afterUser (user ++ '@' :: cs) = cs := by
  have hall : ∀ c ∈ cs.reverse, (c != '@') = true := fun c hc =>
    bne_iff_ne.mpr fun heq => h (heq ▸ List.mem_reverse.mp hc)
  rw [afterUser, List.reverse_append, List.reverse_cons, List.append_assoc,
    List.takeWhile_append_of_pos hall]
  simp

theorem afterUser_write {s : Around} {host : List Char} (hport : s.HasPort) (hhost : '@' ∉ host) :
    afterUser (s.write host) = host ++ s.rest := by
  have hrest : '@' ∉ host ++ s.rest := by
    unfold Around.rest
    cases hs : s.port with
    | none => simp [hhost, List.mem_replicate]
    | some port => simp [hhost, List.mem_replicate, hport port hs]
  unfold Around.write
  cases s.user with
  | none => exact afterUser_eq_self hrest
  | some user =>
    rw [Option.map_some, Option.getD_some, List.append_assoc]
    exact afterUser_append hrest user

/-- A name ends before a colon, and points at its end belong to it. -/
theorem takeWhile_rest {s : Around} {host : List Char} (hcolon : ':' ∉ host) :
    (host ++ s.rest).takeWhile (· != ':') = host ++ List.replicate s.points '.' := by
  have hall : ∀ c ∈ host ++ List.replicate s.points '.', (c != ':') = true := by
    intro c hc
    rcases List.mem_append.mp hc with hc | hc
    · exact bne_iff_ne.mpr fun heq => hcolon (heq ▸ hc)
    · rw [List.eq_of_mem_replicate hc]
      rfl
  unfold Around.rest
  rw [← List.append_assoc, List.takeWhile_append_of_pos hall]
  cases s.port <;> simp

/-- An address ends with its bracket. -/
theorem upTo_append {address rest : List Char} (hclosed : ']' ∉ address) :
    upTo (· == ']') ('[' :: (address ++ [']']) ++ rest) = '[' :: (address ++ [']']) := by
  have hall : ∀ c ∈ '[' :: address, (!(c == ']')) = true := by
    intro c hc
    rcases List.mem_cons.mp hc with rfl | hc
    · rfl
    · have hc' : c ≠ ']' := fun heq => hclosed (heq ▸ hc)
      simpa using hc'
  have hsplit : '[' :: (address ++ [']']) ++ rest = ('[' :: address) ++ (']' :: rest) := by simp
  unfold upTo
  rw [hsplit, List.takeWhile_append_of_pos hall, List.dropWhile_append_of_pos hall]
  simp

theorem head?_rest (s : Around) : s.rest.head? ≠ some '[' := by
  unfold Around.rest
  cases s.points <;> cases s.port <;> simp [List.replicate_succ]

/-- A name is the host up to the points at its end. -/
theorem hostChars_write {s : Around} {host : List Char} (hport : s.HasPort) (hat : '@' ∉ host)
    (hopen : host.head? ≠ some '[') (hcolon : ':' ∉ host) :
    hostChars (s.write host) = host ++ List.replicate s.points '.' := by
  have hhead : (host ++ s.rest).head? ≠ some '[' := by
    cases host with
    | nil => exact head?_rest s
    | cons c cs => exact hopen
  rw [hostChars, afterUser_write hport hat, if_neg hhead, takeWhile_rest hcolon]

/-- **What stands around a host does not count.** -/
theorem canonical_hostChars {s : Around} {host : List Char} (hport : s.HasPort)
    (hhost : IsHost host) :
    Host.canonicalChars (hostChars (s.write host)) = Host.canonicalChars host := by
  obtain ⟨hat, ⟨hopen, hcolon⟩ | ⟨address, rfl, hclosed⟩⟩ := hhost
  · rw [hostChars_write hport hat hopen hcolon, Host.canonicalChars_append_points]
  · rw [hostChars, afterUser_write hport hat, if_pos (by simp), upTo_append hclosed]

end Gatehouse.Net.Authority
