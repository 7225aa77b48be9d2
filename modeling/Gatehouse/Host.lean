import Gatehouse.Text.Ascii
import Gatehouse.Text.Blank
import Gatehouse.Net.Ip

/-!
# Host names

Hosts are looked up by their canonical form: trailing dots removed and the letters A to Z in lower
case.  A host is local when it is an IP address, with or without brackets, or a name that ends in
`.local`; only local hosts are served over plain HTTP.
-/

namespace Gatehouse.Host

open Text

/-- The canonical form of a host, under which it is looked up. -/
def canonicalChars (cs : List Char) : List Char :=
  (dropEndWhile (· == '.') cs).map Char.toLower

/-- The canonical form of a host, under which it is looked up. -/
def canonical (host : String) : String := String.ofList (canonicalChars host.toList)

/-- The canonical form of a host that may have blank characters around it. -/
def canonicalTrimmed (host : String) : String := canonical (trim host)

/-- The text without one opening bracket before and one closing bracket after it, if both are
there. -/
def unbracket (host : String) : String :=
  match host.toList with
  | '[' :: r => if r.getLast? = some ']' then String.ofList r.dropLast else host
  | _ => host

def localSuffix : List Char := ".local".toList

/-- Whether plain HTTP serves this host itself: an IP address or a name in `.local`. -/
def isLocal (host : String) : Bool :=
  (Net.Ip.ofText? (unbracket host)).isSome || localSuffix.isSuffixOf host.toList

/-! ## Lemmas -/

@[simp] theorem toList_canonical (host : String) :
    (canonical host).toList = canonicalChars host.toList := by
  simp [canonical]

theorem canonicalChars_eq (cs : List Char) :
    canonicalChars cs = dropEndWhile (· == '.') (cs.map Char.toLower) := by
  have hpoint : (· == '.') ∘ Char.toLower = (· == '.') := funext toLower_eq_point
  rw [dropEndWhile_map, hpoint, canonicalChars]

/-- The canonical form of a host is canonical. -/
@[simp] theorem canonical_canonical (host : String) :
    canonical (canonical host) = canonical host := by
  have hlower : Char.toLower ∘ Char.toLower = Char.toLower := funext toLower_toLower
  rw [canonical, toList_canonical, canonicalChars_eq, canonicalChars, List.map_map, hlower,
    ← canonicalChars, canonicalChars_eq, dropEndWhile_dropEndWhile, ← canonicalChars_eq]
  rfl

/-- Points at the end do not count. -/
theorem canonicalChars_append_points (cs : List Char) (n : Nat) :
    canonicalChars (cs ++ List.replicate n '.') = canonicalChars cs := by
  unfold canonicalChars
  congr 1
  induction n with
  | zero => rw [List.replicate_zero, List.append_nil]
  | succ n ih =>
    rw [List.replicate_succ', ← List.append_assoc, dropEndWhile_concat, if_pos (beq_self_eq_true _),
      ih]

/-- The canonical form of visible text is visible. -/
theorem isGraphic_of_mem_canonicalChars {cs : List Char}
    (h : ∀ c ∈ cs, isGraphic c = true) {c : Char} (hc : c ∈ canonicalChars cs) :
    isGraphic c = true := by
  obtain ⟨d, hd, rfl⟩ := List.mem_map.1 hc
  exact isGraphic_toLower d (h d (mem_of_mem_dropEndWhile hd))

end Gatehouse.Host
