import Gatehouse.Host
import Mathlib.Data.List.TakeWhile

/-!
# Texts without blanks around them

A text is trimmed if no blank character is at either end.  The canonical form of a host keeps the
blanks around it, so that it is trimmed only if the host is; then it does not matter whether the
host is trimmed first.

    trimChars_eq_self_iff      : the characters at the ends
    isTrimmed_trim             : nothing is left to trim afterwards
    Host.exists_points         : what the canonical form leaves out
    Host.canonical_eq_iff      : the hosts with a given canonical form that is trimmed
    Host.canonicalTrimmed_eq_empty_iff : the hosts of which nothing is left
    Host.isTrimmed_canonicalTrimmed_iff : when no blanks come to light at the end
-/

namespace Gatehouse

namespace Text

def IsTrimmed (s : String) : Prop := trim s = s

instance (s : String) : Decidable (IsTrimmed s) := inferInstanceAs (Decidable (trim s = s))

theorem isTrimmed_iff (s : String) : IsTrimmed s ↔ trimChars s.toList = s.toList := by
  rw [IsTrimmed, ← String.toList_inj, toList_trim]

theorem dropEndWhile_isBlank_eq_self_iff (cs : List Char) :
    dropEndWhile isBlank cs = cs ↔ ∀ c, cs.getLast? = some c → isBlank c = false := by
  rw [dropEndWhile, List.reverse_eq_iff, dropWhile_isBlank_eq_self_iff, List.head?_reverse]

theorem isPrefix_dropEndWhile {α : Type} (p : α → Bool) (l : List α) : dropEndWhile p l <+: l := by
  have hsuffix := List.reverse_prefix.mpr (List.dropWhile_suffix (l := l.reverse) p)
  rwa [List.reverse_reverse] at hsuffix

/-- What is trimmed neither begins nor ends with a blank character. -/
theorem trimChars_eq_self_iff (cs : List Char) :
    trimChars cs = cs ↔ (∀ c, cs.head? = some c → isBlank c = false) ∧
      ∀ c, cs.getLast? = some c → isBlank c = false := by
  rw [← dropWhile_isBlank_eq_self_iff, ← dropEndWhile_isBlank_eq_self_iff]
  constructor
  · intro h
    have hlength : cs.length ≤ (cs.dropWhile isBlank).length := by
      have hle := (isPrefix_dropEndWhile isBlank (cs.dropWhile isBlank)).length_le
      rwa [← trimChars, h] at hle
    have hleft : cs.dropWhile isBlank = cs :=
      (List.dropWhile_suffix isBlank).eq_of_length_le hlength
    rw [trimChars, hleft] at h
    exact ⟨hleft, h⟩
  · rintro ⟨hleft, hright⟩
    rw [trimChars, hleft, hright]

/-- Nothing is left to trim afterwards. -/
theorem isTrimmed_trim (s : String) : IsTrimmed (trim s) := by
  rw [isTrimmed_iff, toList_trim, trimChars_eq_self_iff]
  constructor
  · intro c hc
    obtain ⟨rear, hrear⟩ := isPrefix_dropEndWhile isBlank (s.toList.dropWhile isBlank)
    have hhead : (s.toList.dropWhile isBlank).head? = some c := by
      rw [← hrear, List.head?_append]
      exact Option.or_eq_some_iff.mpr (.inl hc)
    have hkept := List.head?_dropWhile_not isBlank s.toList
    rw [hhead] at hkept
    exact hkept
  · rw [← dropEndWhile_isBlank_eq_self_iff]
    exact dropEndWhile_dropEndWhile _ _

/-- Blanks around a text make it longer. -/
theorem length_trim_lt {s : String} (h : ¬IsTrimmed s) : (trim s).length < s.length := by
  have hsub : (trimChars s.toList).Sublist s.toList :=
    (isPrefix_dropEndWhile _ _).sublist.trans (List.dropWhile_sublist isBlank)
  rw [← String.length_toList, ← String.length_toList, toList_trim]
  refine Nat.lt_of_le_of_ne hsub.length_le fun hlength => h ?_
  exact (isTrimmed_iff s).mpr (hsub.eq_of_length hlength)

/-- A change of case neither makes nor hides a blank. -/
theorem isBlank_toLower (c : Char) : isBlank c.toLower = isBlank c := by
  by_cases h : IsCapital c
  · have hval : c.toLower.toNat = c.toNat + 32 := by
      have hlow : c.val.toNat ≤ 'Z'.val.toNat := h.2
      have hadd : (c.val + 32).toNat = c.val.toNat + 32 := by
        rw [UInt32.toNat_add]
        exact Nat.mod_eq_of_lt (Nat.lt_of_le_of_lt (Nat.add_le_add_right hlow 32) (by decide))
      exact (congrArg UInt32.toNat (toLower_val h)).trans hadd
    have hlow : 65 ≤ c.toNat := h.1
    have hhigh : c.toNat ≤ 90 := h.2
    rw [Bool.eq_iff_iff]
    simp only [isBlank, hval, Bool.or_eq_true, Bool.and_eq_true, decide_eq_true_eq, beq_iff_eq]
    omega
  · rw [toLower_of_not h]

end Text

namespace Host

open Text

/-- The canonical form leaves out points at the end only. -/
theorem exists_points (cs : List Char) :
    ∃ n, cs = dropEndWhile (· == '.') cs ++ List.replicate n '.' := by
  refine ⟨(cs.reverse.takeWhile (· == '.')).length, ?_⟩
  have hpoints : cs.reverse.takeWhile (· == '.') =
      List.replicate (cs.reverse.takeWhile (· == '.')).length '.' :=
    List.eq_replicate_of_mem fun c hc => by
      have hpoint := List.mem_takeWhile_imp hc
      exact beq_iff_eq.mp hpoint
  have hsplit := congrArg List.reverse (List.takeWhile_append_dropWhile (p := (· == '.'))
    (l := cs.reverse))
  rw [List.reverse_append, List.reverse_reverse, hpoints, List.reverse_replicate] at hsplit
  exact hsplit.symm

/-- If blanks are around a host, they are around its canonical form. -/
theorem trimChars_of_canonicalChars {cs : List Char}
    (h : trimChars (canonicalChars cs) = canonicalChars cs) : trimChars cs = cs := by
  obtain ⟨n, hn⟩ := exists_points cs
  rw [canonicalChars, trimChars_eq_self_iff, List.head?_map, List.getLast?_map] at h
  rw [trimChars_eq_self_iff]
  obtain ⟨hhead, hlast⟩ := h
  generalize dropEndWhile (· == '.') cs = kept at hn hhead hlast
  subst hn
  constructor
  · intro c hc
    cases kept with
    | nil =>
      rw [List.eq_of_mem_replicate (List.mem_of_head? hc)]
      rfl
    | cons d kept =>
      obtain rfl : d = c := Option.some.inj hc
      rw [← isBlank_toLower]
      exact hhead _ rfl
  · intro c hc
    rw [List.getLast?_append, Option.or_eq_some_iff] at hc
    obtain hc | ⟨-, hc⟩ := hc
    · rw [List.eq_of_mem_replicate (List.mem_of_getLast? hc)]
      rfl
    · rw [← isBlank_toLower]
      exact hlast _ (by rw [hc]; rfl)

/-- A trimmed name is the canonical form of the hosts that are trimmed and have it then. -/
theorem canonical_eq_iff {host name : String} (h : IsTrimmed name) :
    canonical host = name ↔ IsTrimmed host ∧ canonicalTrimmed host = name := by
  constructor
  · rintro rfl
    have hhost : IsTrimmed host := by
      rw [isTrimmed_iff, toList_canonical] at h
      exact (isTrimmed_iff host).mpr (trimChars_of_canonicalChars h)
    exact ⟨hhost, by rw [canonicalTrimmed, hhost]⟩
  · rintro ⟨hhost, rfl⟩
    rw [canonicalTrimmed, hhost]

/-- A host that ends in points has a blank right before them. -/
def BlankBeforePoints (host : String) : Prop :=
  ∃ stem c n, (trim host).toList = stem ++ c :: List.replicate n '.' ∧ isBlank c = true

/-- The host is trimmed before the points are taken off its end; blanks come to light only there. -/
theorem isTrimmed_canonicalTrimmed_iff (host : String) :
    IsTrimmed (canonicalTrimmed host) ↔ ¬BlankBeforePoints host := by
  have htrimmed := (isTrimmed_iff (trim host)).mp (isTrimmed_trim host)
  rw [trimChars_eq_self_iff] at htrimmed
  rw [isTrimmed_iff, canonicalTrimmed, toList_canonical, trimChars_eq_self_iff]
  unfold BlankBeforePoints
  generalize (trim host).toList = cs at htrimmed ⊢
  constructor
  · rintro ⟨-, hlast⟩ ⟨stem, c, n, rfl, hc⟩
    have hpoint : (c == '.') = false := by
      refine beq_false_of_ne ?_
      rintro rfl
      exact absurd hc (by decide)
    have hform : canonicalChars (stem ++ c :: List.replicate n '.') =
        (stem ++ [c]).map Char.toLower := by
      rw [List.append_cons, canonicalChars_append_points, canonicalChars,
        dropEndWhile_append_of_neg (· == '.') stem c hpoint]
    have hblank := hlast c.toLower (by rw [hform, List.map_append, List.getLast?_append]; rfl)
    rw [isBlank_toLower, hc] at hblank
    cases hblank
  · intro hnot
    obtain ⟨n, hn⟩ := exists_points cs
    rw [canonicalChars, List.head?_map, List.getLast?_map]
    generalize dropEndWhile (· == '.') cs = kept at hn ⊢
    subst hn
    constructor
    · intro c hc
      obtain ⟨d, hd, rfl⟩ := Option.map_eq_some_iff.mp hc
      rw [isBlank_toLower]
      refine htrimmed.1 d ?_
      rw [List.head?_append, hd]
      rfl
    · intro c hc
      obtain ⟨d, hd, rfl⟩ := Option.map_eq_some_iff.mp hc
      obtain ⟨stem, rfl⟩ := List.getLast?_eq_some_iff.mp hd
      rw [isBlank_toLower, ← Bool.not_eq_true]
      intro hblank
      exact hnot ⟨stem, d, n, (List.append_cons stem d _).symm, hblank⟩

theorem length_canonical_le (host : String) : (canonical host).length ≤ host.length := by
  rw [← String.length_toList, ← String.length_toList, toList_canonical, canonicalChars,
    List.length_map]
  exact (isPrefix_dropEndWhile _ _).length_le

/-- The hosts that are in canonical form, and trimmed besides. -/
theorem canonicalTrimmed_eq_self_iff (host : String) :
    canonicalTrimmed host = host ↔ IsTrimmed host ∧ canonical host = host := by
  constructor
  · intro h
    constructor
    · by_contra hblanks
      have hshorter := (length_canonical_le (trim host)).trans_lt (length_trim_lt hblanks)
      rw [← canonicalTrimmed, h] at hshorter
      exact lt_irrefl _ hshorter
    · rw [← h, canonicalTrimmed, canonical_canonical]
  · rintro ⟨htrimmed, h⟩
    rw [canonicalTrimmed, htrimmed, h]

theorem canonicalTrimmed_eq_empty_iff (host : String) :
    canonicalTrimmed host = "" ↔ ∀ c ∈ (trim host).toList, c = '.' := by
  rw [← String.toList_inj, canonicalTrimmed, toList_canonical, canonicalChars, String.toList_empty,
    List.map_eq_nil_iff]
  constructor
  · intro h c hc
    obtain ⟨n, hn⟩ := exists_points (trim host).toList
    rw [h, List.nil_append] at hn
    rw [hn] at hc
    exact List.eq_of_mem_replicate hc
  · intro h
    rw [dropEndWhile, List.reverse_eq_nil_iff, List.dropWhile_eq_nil_iff]
    exact fun c hc => beq_iff_eq.mpr (h c (List.mem_reverse.mp hc))

end Host

end Gatehouse
