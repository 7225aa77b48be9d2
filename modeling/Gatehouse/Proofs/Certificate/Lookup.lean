import Gatehouse.Certificate.Store
import Mathlib.Data.List.Induction

/-!
# What a look-up of certificates finds

A look-up should find a certificate whenever one that is loaded is valid for the name.  The labels
of the names lead there: those of a name that covers another begin those of the other, up to case.
But labels are compared as they are written, and of the certificates filed under the same labels,
as those of a domain and of its wildcard are, only the last one stays.

    certificates              : the certificates in the folders of a directory
    filings, lastFiled?       : where they are filed, and which of them was filed last
    Store.mem_entries_fileAll : a store holds what was filed last under each list of labels
    labels_of_nameCovers      : a name that covers another begins it, up to case
    Store.found_of_load       : what a look-up finds
-/

namespace Gatehouse.Certificate

open Text

/-! ## Filing -/

/-- The certificates in the folders of a directory, in the order of the folders. -/
def certificates (folders : List (String × Folder)) : List Leaf :=
  folders.filterMap fun f => match f.2 with
    | .file => none
    | .folder chain key => Folder.certified? chain key

/-- The labels that certificates are filed under, for each of their names. -/
def filings (cs : List Leaf) : List (List String × Leaf) :=
  cs.flatMap fun c => c.dnsNames.map fun name => (indexLabels name, c)

/-- The certificate that was filed last under some labels. -/
def lastFiled? (fs : List (List String × Leaf)) (labels : List String) : Option Leaf :=
  fs.reverse.lookup labels

theorem mem_of_lastFiled? {fs : List (List String × Leaf)} {labels : List String} {c : Leaf}
    (h : lastFiled? fs labels = some c) : (labels, c) ∈ fs := by
  obtain ⟨before, after, hfs, -⟩ := List.lookup_eq_some_iff.mp h
  rw [← List.mem_reverse, hfs]
  exact List.mem_append_right _ (List.mem_cons_self ..)

/-- What is filed comes after what was filed before. -/
theorem lastFiled?_concat (fs : List (List String × Leaf)) (l labels : List String) (c : Leaf) :
    lastFiled? (fs ++ [(l, c)]) labels = if labels = l then some c else lastFiled? fs labels := by
  unfold lastFiled?
  rw [List.reverse_append, List.reverse_singleton, List.singleton_append, List.lookup_cons]
  by_cases h : labels = l
  · simp [h]
  · simp [h, beq_false_of_ne h]

theorem exists_lastFiled? {fs : List (List String × Leaf)} {labels : List String} {c : Leaf}
    (h : (labels, c) ∈ fs) : ∃ c', lastFiled? fs labels = some c' := by
  cases hlast : lastFiled? fs labels with
  | some c' => exact ⟨c', rfl⟩
  | none =>
    have hnone := List.lookup_eq_none_iff.mp hlast (labels, c) (List.mem_reverse.mpr h)
    simp at hnone

theorem mem_filings {cs : List Leaf} {labels : List String} {c : Leaf} :
    (labels, c) ∈ filings cs ↔ c ∈ cs ∧ ∃ name ∈ c.dnsNames, indexLabels name = labels := by
  unfold filings
  rw [List.mem_flatMap]
  constructor
  · rintro ⟨c', hc', hmem⟩
    obtain ⟨name, hname, heq⟩ := List.mem_map.mp hmem
    cases heq
    exact ⟨hc', name, hname, rfl⟩
  · rintro ⟨hc, name, hname, rfl⟩
    exact ⟨c, hc, List.mem_map.mpr ⟨name, hname, rfl⟩⟩

namespace Store

/-- Files certificates one after the other. -/
def fileAll (s : Store) (fs : List (List String × Leaf)) : Store :=
  fs.foldl (fun s f => s.file f.1 f.2) s

theorem add_eq (s : Store) (c : Leaf) :
    s.add c = s.fileAll (c.dnsNames.map fun name => (indexLabels name, c)) := by
  rw [fileAll, List.foldl_map]
  rfl

/-- Loading files each certificate in its turn. -/
theorem eq_of_addFolders {directory : String} {folders : List (String × Folder)} {s t : Store}
    (h : addFolders directory s folders = .ok t) :
    t = s.fileAll (filings (certificates folders)) := by
  induction folders generalizing s with
  | nil =>
    cases h
    rfl
  | cons f folders ih =>
    obtain ⟨name, f⟩ := f
    cases f with
    | file => exact ih h
    | folder chain key =>
      unfold addFolders at h
      cases hc : Folder.certified? chain key with
      | none =>
        rw [hc] at h
        cases h
      | some c =>
        rw [hc] at h
        rw [ih h, add_eq]
        simp only [fileAll, certificates, filings, List.filterMap_cons, hc, List.flatMap_cons,
          List.foldl_append]

theorem eq_of_load {directory : String} {folders : List (String × Folder)} {s : Store}
    (h : load directory (some folders) = .ok s) :
    s = empty.fileAll (filings (certificates folders)) :=
  eq_of_addFolders h

/-- **A store holds what was filed last** under each list of labels. -/
theorem mem_entries_fileAll (fs : List (List String × Leaf)) (labels : List String) (c : Leaf) :
    (labels, c) ∈ (empty.fileAll fs).entries ↔ lastFiled? fs labels = some c := by
  induction fs using List.reverseRecOn with
  | nil => simp [fileAll, empty, lastFiled?]
  | append_singleton fs f ih =>
    obtain ⟨l, c'⟩ := f
    rw [lastFiled?_concat]
    have hfile : empty.fileAll (fs ++ [(l, c')]) = (empty.fileAll fs).file l c' := by
      rw [fileAll, List.foldl_append]
      rfl
    rw [hfile, file, List.mem_append, List.mem_filter, List.mem_singleton, ih]
    by_cases hl : labels = l
    · simp [hl, eq_comm]
    · simp [hl]

theorem mem_prefixSearch {s : Store} {asked : List String} {c : Leaf} :
    c ∈ s.prefixSearch asked ↔ ∃ labels, labels <+: asked ∧ (labels, c) ∈ s.entries := by
  simp [prefixSearch, List.mem_mergeSort, and_comm]

/-- Something is found if the labels lead to a certificate that is valid for the name. -/
theorem isSome_get? {s : Store} {name : String} (hname : Tls.DnsName.isValid name = true) :
    (s.get? name).isSome = true ↔
      ∃ e ∈ s.entries, e.1 <+: reversedLabels name ∧ e.2.isValidFor name = true := by
  simp only [get?, hname, if_true, List.find?_isSome, mem_prefixSearch]
  constructor
  · rintro ⟨c, ⟨labels, hbegins, hmem⟩, hvalid⟩
    exact ⟨(labels, c), hmem, hbegins, hvalid⟩
  · rintro ⟨⟨labels, c⟩, hmem, hbegins, hvalid⟩
    exact ⟨c, ⟨labels, hbegins, hmem⟩, hvalid⟩

theorem of_get?_eq_some {s : Store} {name : String} {c : Leaf} (h : s.get? name = some c) :
    c ∈ s.prefixSearch (reversedLabels name) ∧ c.isValidFor name = true := by
  unfold get? at h
  split at h
  · exact ⟨List.mem_of_find?_eq_some h, by simpa using List.find?_some h⟩
  · cases h

end Store

/-! ## Labels -/

theorem splitAll_append {α : Type} {p : α → Bool} {u v : List α} {a : α}
    (hu : ∀ b ∈ u, p b = false) (ha : p a = true) :
    splitAll p (u ++ a :: v) = u :: splitAll p v := by
  induction u with
  | nil => simp [splitAll, ha]
  | cons b u ih =>
    have hb : p b = false := hu b (List.mem_cons_self ..)
    have hrest := ih fun b' hb' => hu b' (List.mem_cons_of_mem b hb')
    simp [splitAll, hb, hrest]

theorem reversedLabels_lower (s : String) :
    reversedLabels (lower s) = (reversedLabels s).map lower := by
  unfold reversedLabels
  rw [toList_lower, splitAll_map Char.toLower toLower_eq_point, List.map_reverse, List.map_map,
    List.map_map]
  congr 2
  funext cs
  simp [lower]

theorem toList_of_wildcardBase? {name base : String} (h : wildcardBase? name = some base) :
    name.toList = '*' :: '.' :: base.toList := by
  unfold wildcardBase? at h
  split at h
  · next r hr =>
    cases h
    rw [hr, String.toList_ofList]
  · cases h

/-- The labels that a name in small letters is filed under are in small letters. -/
theorem indexLabels_of_lower {name : String} (h : lower name = name) :
    (indexLabels name).map lower = indexLabels name := by
  unfold indexLabels
  rw [← reversedLabels_lower]
  congr 1
  cases hbase : wildcardBase? name with
  | none => exact h
  | some base =>
    have hlist := toList_of_wildcardBase? hbase
    have hsame : name.toList.map Char.toLower = name.toList := by rw [← toList_lower, h]
    rw [hlist] at hsame
    simp only [List.map_cons, List.cons.injEq] at hsame
    rw [Option.getD_some, ← String.toList_inj, toList_lower, hsame.2.2]

/-- **A name that covers another begins it, up to case**: its labels, or those of the base of a
wildcard, are the first labels of the other from the right. -/
theorem labels_of_nameCovers {name serverName : String} (h : nameCovers name serverName = true) :
    (indexLabels name).map lower <+: (reversedLabels (withoutEndPoint serverName)).map lower := by
  unfold nameCovers at h
  dsimp only at h
  split at h
  · next hbase =>
    have hsame : (indexLabels name).map lower =
        (reversedLabels (withoutEndPoint serverName)).map lower := by
      rw [indexLabels, hbase, Option.getD_none, ← reversedLabels_lower, ← reversedLabels_lower,
        (caselessEq_iff _ _).mp h]
    exact hsame ▸ List.prefix_rfl
  · next base hbase =>
    split at h
    · next label rest hcut =>
      obtain ⟨-, hrest⟩ := Bool.and_eq_true_iff.mp h
      obtain ⟨⟨u, v⟩, hsplit, heq⟩ := Option.map_eq_some_iff.mp hcut
      cases heq
      obtain ⟨hu, a, ha, hasked⟩ := (splitFirst_eq_some_iff _ _ _ _).mp hsplit
      have hlabels : reversedLabels (withoutEndPoint serverName) =
          reversedLabels (String.ofList v) ++ [String.ofList u] := by
        simp only [reversedLabels, hasked, splitAll_append hu ha, List.map_cons,
          List.reverse_cons, String.toList_ofList]
      rw [indexLabels, hbase, Option.getD_some, hlabels, List.map_append, ← reversedLabels_lower,
        ← reversedLabels_lower, (caselessEq_iff _ _).mp hrest]
      exact List.prefix_append _ _
    · cases h

/-! ## What is found -/

namespace Store

/-- **What a look-up finds.**  A certificate that is found has been loaded and is valid for the
name.  One is found exactly when, among the loaded ones that are valid for the name, there is one
that was the last to be filed under some of the labels with which the name begins from the right.
If all is written in small letters, the name has no point at its end and no two certificates were
filed under the same labels, then that is each of those that are valid. -/
theorem found_of_load {directory : String} {folders : List (String × Folder)} {s : Store}
    {name : String} (h : load directory (some folders) = .ok s)
    (hname : Tls.DnsName.isValid name = true) :
    (∀ c, s.get? name = some c → c ∈ certificates folders ∧ c.isValidFor name = true) ∧
    ((s.get? name).isSome = true ↔ ∃ c ∈ certificates folders, c.isValidFor name = true ∧
      ∃ labels, labels <+: reversedLabels name ∧
        lastFiled? (filings (certificates folders)) labels = some c) ∧
    (lower name = name → name.toList.getLast? ≠ some '.' →
      (∀ c ∈ certificates folders, ∀ m ∈ c.dnsNames, lower m = m) →
      (∀ c ∈ certificates folders, ∀ c' ∈ certificates folders, ∀ m ∈ c.dnsNames,
        ∀ m' ∈ c'.dnsNames, indexLabels m = indexLabels m' → c = c') →
      ((s.get? name).isSome = true ↔ ∃ c ∈ certificates folders, c.isValidFor name = true)) := by
  have hentries : ∀ labels c, (labels, c) ∈ s.entries ↔
      lastFiled? (filings (certificates folders)) labels = some c := by
    rw [eq_of_load h]
    exact mem_entries_fileAll _
  have hloaded : ∀ labels c, lastFiled? (filings (certificates folders)) labels = some c →
      c ∈ certificates folders := fun labels c hlast =>
    (mem_filings.mp (mem_of_lastFiled? hlast)).1
  have hexact : (s.get? name).isSome = true ↔ ∃ c ∈ certificates folders,
      c.isValidFor name = true ∧ ∃ labels, labels <+: reversedLabels name ∧
        lastFiled? (filings (certificates folders)) labels = some c := by
    rw [isSome_get? hname]
    constructor
    · rintro ⟨⟨labels, c⟩, hmem, hbegins, hvalid⟩
      have hlast := (hentries labels c).mp hmem
      exact ⟨c, hloaded labels c hlast, hvalid, labels, hbegins, hlast⟩
    · rintro ⟨c, -, hvalid, labels, hbegins, hlast⟩
      exact ⟨(labels, c), (hentries labels c).mpr hlast, hbegins, hvalid⟩
  refine ⟨?_, hexact, ?_⟩
  · intro c hc
    obtain ⟨hfound, hvalid⟩ := of_get?_eq_some hc
    obtain ⟨labels, -, hmem⟩ := mem_prefixSearch.mp hfound
    exact ⟨hloaded labels c ((hentries labels c).mp hmem), hvalid⟩
  · intro hsmall hpoint hnames hapart
    rw [hexact]
    refine ⟨fun ⟨c, hc, hvalid, _⟩ => ⟨c, hc, hvalid⟩, ?_⟩
    rintro ⟨c, hc, hvalid⟩
    obtain ⟨m, hm, hcovers⟩ := List.any_eq_true.mp hvalid
    have hbegins := labels_of_nameCovers hcovers
    rw [withoutEndPoint, if_neg hpoint, indexLabels_of_lower (hnames c hc m hm),
      ← reversedLabels_lower, hsmall] at hbegins
    have hfiled : (indexLabels m, c) ∈ filings (certificates folders) :=
      mem_filings.mpr ⟨hc, m, hm, rfl⟩
    -- Whoever was filed last under these labels is the same certificate.
    obtain ⟨c', hlast⟩ := exists_lastFiled? hfiled
    obtain ⟨hc', m', hm', hlabels⟩ := mem_filings.mp (mem_of_lastFiled? hlast)
    obtain rfl : c = c' := hapart c hc c' hc' m hm m' hm' hlabels.symm
    exact ⟨c, hc, hvalid, indexLabels m, hbegins, hlast⟩

/-- The folder of a certificate for some names. -/
def folderFor (names : List String) : Folder :=
  .folder (.certificates [some ⟨"", names.map .dns, ⟨"", .ofSeconds 0, .ofSeconds 0⟩, 0⟩]) (.key 0)

/-- A domain, and a wildcard of another one. -/
def twoFolders : List (String × Folder) :=
  [("one", folderFor ["shop.example.com"]), ("two", folderFor ["*.a.example"])]

theorem found_in_twoFolders : ∃ s, load "certs" (some twoFolders) = .ok s ∧
    Tls.DnsName.isValid "www.a.example" = true ∧ (s.get? "www.a.example").isSome = true := by
  have hname : Tls.DnsName.isValid "www.a.example" = true := by decide +kernel
  obtain ⟨s, hs⟩ : ∃ s, load "certs" (some twoFolders) = .ok s := ⟨_, rfl⟩
  obtain ⟨-, -, hcomplete⟩ := found_of_load hs hname
  refine ⟨s, hs, hname, (hcomplete ?_ ?_ ?_ ?_).mpr ?_⟩ <;> decide +kernel

/-- A certificate that has been loaded is valid for a DNS name, and none is found for it. -/
def Hides (folders : List (String × Folder)) (name : String) : Prop :=
  Tls.DnsName.isValid name = true ∧ (∃ c ∈ certificates folders, c.isValidFor name = true) ∧
    ∃ s, load "certs" (some folders) = .ok s ∧ s.get? name = none

/-- Case hides a certificate, a point at the end does, and of a domain and its wildcard the one
that is loaded later hides the other. -/
theorem valid_and_not_found :
    Hides [("upper", folderFor ["MiXed.Example.com"])] "mixed.example.com" ∧
    Hides [("base", folderFor ["example.com"])] "example.com." ∧
    Hides [("base", folderFor ["example.com"]), ("wild", folderFor ["*.example.com"])]
      "example.com" ∧
    Hides [("wild", folderFor ["*.example.com"]), ("base", folderFor ["example.com"])]
      "www.example.com" := by
  have hnone : ∀ {s : Store} {name : String}, Tls.DnsName.isValid name = true →
      (∀ e ∈ s.entries, e.1 <+: reversedLabels name → e.2.isValidFor name = false) →
      s.get? name = none := by
    intro s name hname hall
    rw [← Option.not_isSome_iff_eq_none, isSome_get? hname]
    rintro ⟨e, he, hbegins, hvalid⟩
    rw [hall e he hbegins] at hvalid
    cases hvalid
  refine ⟨⟨?_, ?_, _, rfl, hnone ?_ ?_⟩, ⟨?_, ?_, _, rfl, hnone ?_ ?_⟩,
    ⟨?_, ?_, _, rfl, hnone ?_ ?_⟩, ⟨?_, ?_, _, rfl, hnone ?_ ?_⟩⟩ <;> decide +kernel

end Store

end Gatehouse.Certificate
