import Gatehouse.Proofs.Net.Rereading
import Gatehouse.Proofs.Net.Spelling
import Gatehouse.Proofs.Text.Decimals

/-!
# A host with a port

A plain name with a port is an authority, of which the name and the port are read again; it stays
one within the text of a URL.

    Authority.withPort             : the authority that is written
    Authority.ofText?_withPort     : it is accepted
    Authority.host_withPort,
    Authority.port?_withPort       : what is read of it
    Target.ofText?_http            : a URL of plain HTTP is read by its parts
-/

namespace Gatehouse.Net

open Text

namespace Authority

/-- Characters that may stand in an authority, and do not structure it. -/
def IsName (cs : List Char) : Prop := cs ≠ [] ∧ ∀ c ∈ cs, isPlain c = true

def withPort (host : String) (port : Nat) : Authority := ⟨host ++ ":" ++ toString port⟩

/-! ## Plain characters -/

/-- A plain character neither structures an authority nor ends it. -/
theorem ne_of_isPlain {c : Char} (h : isPlain c = true) : c ≠ ':' ∧ c ≠ '[' ∧ c ≠ ']' ∧ c ≠ '@' ∧
    c ≠ '%' ∧ c ≠ '/' ∧ c ≠ '?' ∧ c ≠ '#' := by
  refine ⟨?_, ?_, ?_, ?_, ?_, ?_, ?_, ?_⟩ <;> rintro rfl <;> revert h <;> decide

theorem endsAuthority_of_isPlain {c : Char} (h : isPlain c = true) : endsAuthority c = false :=
  endsAuthority_of_isAllowed (by rw [isAllowed, h, Bool.true_or])

/-- Without an `@` before it, a plain character changes nothing for a scan. -/
theorem step_of_isPlain {s : Scan} (hs : s.sinceAt = none) {c : Char} (h : isPlain c = true) :
    s.step c = some s := by
  obtain ⟨hcolon, hopen, hclose, hat, hpercent, -, -, -⟩ := ne_of_isPlain h
  obtain ⟨colons, opened, closed, percent, sinceAt⟩ := s
  obtain rfl : sinceAt = none := hs
  rw [Scan.step, beq_false_of_ne hcolon, beq_false_of_ne hopen, beq_false_of_ne hclose,
    beq_false_of_ne hat, beq_false_of_ne hpercent, h]
  rfl

/-- A scan goes over plain characters. -/
theorem go_append {s : Scan} (hs : s.sinceAt = none) {cs : List Char}
    (hplain : ∀ c ∈ cs, isPlain c = true) (n : Nat) (rest : List Char) :
    scan.go s n (cs ++ rest) = scan.go s (n + cs.length) rest := by
  induction cs generalizing n with
  | nil => rfl
  | cons c cs ih =>
    have hc := hplain c List.mem_cons_self
    have hgo : scan.go s n (c :: cs ++ rest) = scan.go s (n + 1) (cs ++ rest) := by
      rw [List.cons_append, scan.go, endsAuthority_of_isPlain hc, step_of_isPlain hs hc]
      rfl
    rw [hgo, ih fun d hd => hplain d (List.mem_cons_of_mem _ hd), List.length_cons, Nat.add_assoc,
      Nat.add_comm 1]

theorem isPlain_toString (n : Nat) : ∀ c ∈ (toString n).toList, isPlain c = true := by
  intro c hc
  rw [isPlain, isDigit_of_mem hc, Bool.or_true, Bool.true_or]

theorem not_mem_of_isPlain {cs : List Char} (hplain : ∀ c ∈ cs, isPlain c = true) :
    ':' ∉ cs ∧ '@' ∉ cs :=
  ⟨fun hc => (ne_of_isPlain (hplain _ hc)).1 rfl,
    fun hc => (ne_of_isPlain (hplain _ hc)).2.2.2.1 rfl⟩

/-! ## Authorities -/

theorem scan_name {name rest : List Char} (hname : IsName name) (hrest : EndsBefore rest) :
    scan (name ++ rest) = some name.length := by
  rw [scan, go_append rfl hname.2, go_of_endsBefore rfl hrest, Nat.zero_add]

/-- A name with a port is scanned up to its end. -/
theorem scan_withPort {host : String} (hhost : IsName host.toList) (port : Nat)
    {rest : List Char} (hrest : EndsBefore rest) :
    scan ((withPort host port).text.toList ++ rest) =
      some (withPort host port).text.toList.length := by
  have htext : (withPort host port).text.toList =
      host.toList ++ ':' :: (toString port).toList := by simp [withPort]
  have hcolon : (⟨0, false, false, false, none⟩ : Scan).step ':' =
      some ⟨1, false, false, false, none⟩ := rfl
  rw [htext, scan, List.append_assoc, go_append rfl hhost.2, List.cons_append, scan.go,
    if_neg (by decide), hcolon]
  dsimp only
  rw [go_append rfl (isPlain_toString port), go_of_endsBefore rfl hrest, List.length_append,
    List.length_cons]
  congr 1
  omega

theorem ofText?_name {name : String} (hname : IsName name.toList) :
    ofText? name = some ⟨name⟩ := by
  refine ofText?_of_scan (fun hempty => hname.1 (by simp [hempty])) ?_
  simpa using scan_name hname endsBefore_nil

theorem ofText?_withPort {host : String} (hhost : IsName host.toList) (port : Nat) :
    ofText? (withPort host port).text = some (withPort host port) := by
  refine ofText?_of_scan ?_ ?_
  · simp [withPort]
  · simpa using scan_withPort hhost port endsBefore_nil

/-! ## What is read of them -/

/-- A name with a port, or alone. -/
def portAround (port? : Option Nat) : Around :=
  { port := port?.map fun port => (toString port).toList }

theorem hasPort_portAround (port? : Option Nat) : (portAround port?).HasPort := by
  intro port hport
  obtain ⟨n, -, rfl⟩ := Option.map_eq_some_iff.mp hport
  exact (not_mem_of_isPlain (isPlain_toString n)).2

theorem toList_withPort (host : String) (port : Nat) :
    (withPort host port).text.toList = (portAround (some port)).write host.toList := by
  simp [withPort, portAround, Around.write, Around.rest]

theorem hostChars_of_isName {name : List Char} (hname : IsName name) (port? : Option Nat) :
    hostChars ((portAround port?).write name) = name := by
  obtain ⟨hcolon, hat⟩ := not_mem_of_isPlain hname.2
  have hopen : name.head? ≠ some '[' := fun hhead =>
    (ne_of_isPlain (hname.2 _ (List.mem_of_head? hhead))).2.1 rfl
  rw [hostChars_write (hasPort_portAround port?) hat hopen hcolon, portAround, List.replicate_zero,
    List.append_nil]

section

variable {name : String} (hname : IsName name.toList)

include hname

/-- A name is its own host. -/
theorem host_name : (⟨name⟩ : Authority).host = name := by
  have hwrite : name.toList = (portAround none).write name.toList := by
    simp [portAround, Around.write, Around.rest]
  rw [host, hwrite, hostChars_of_isName hname, String.ofList_toList]

theorem host_withPort (port : Nat) : (withPort name port).host = name := by
  rw [host, toList_withPort, hostChars_of_isName hname, String.ofList_toList]

theorem portText?_withPort (port : Nat) :
    (withPort name port).portText? = some (toString port) := by
  have hafter : afterUser ((portAround (some port)).write name.toList) =
      name.toList ++ ':' :: (toString port).toList :=
    afterUser_write (hasPort_portAround _) (not_mem_of_isPlain hname.2).2
  rw [portText?, toList_withPort, hafter, hostChars_of_isName hname,
    List.drop_left]
  exact congrArg some String.ofList_toList

/-- The port is read as it was written. -/
theorem port?_withPort {port : Nat} (hport : port ≤ 65535) :
    (withPort name port).port? = some port := by
  rw [port?, portText?_withPort hname]
  simp only [Option.bind_eq_bind, Option.bind_some]
  split
  · next r hsign =>
    have hdigit : isDigit '+' = true := isDigit_of_mem (hsign ▸ List.mem_cons_self)
    cases hdigit
  · rw [readNat_toString]
    exact if_pos hport

end

end Authority

/-! ## URLs -/

theorem utf8ByteSize_le (cs : List Char) : (String.ofList cs).utf8ByteSize ≤ 4 * cs.length := by
  induction cs with
  | nil => exact Nat.zero_le _
  | cons c cs ih =>
    have hc := Char.utf8Size_le_four c
    have hsize : (String.ofList (c :: cs)).utf8ByteSize =
        c.utf8Size + (String.ofList cs).utf8ByteSize := by
      rw [← List.singleton_append, String.ofList_append, String.utf8ByteSize_append]
      simp
    rw [hsize, List.length_cons]
    omega

/-- A URL of plain HTTP is read by its parts. -/
theorem Target.ofText?_http {cs : List Char} {n : Nat} {path : PathQuery}
    (hsize : 4 * (cs.length + 7) ≤ maxLength) (hn : n ≠ 0) (hscan : Authority.scan cs = some n)
    (hpath : PathQuery.ofChars? (cs.drop n) = some path) :
    Target.ofText? (String.ofList ("http://".toList ++ cs)) =
      some (.absolute "http" ⟨String.ofList (cs.take n)⟩ path) := by
  have hshort : ¬maxLength < (String.ofList ("http://".toList ++ cs)).utf8ByteSize := by
    have hle := utf8ByteSize_le ("http://".toList ++ cs)
    have hlength : ("http://".toList ++ cs).length = cs.length + 7 := rfl
    omega
  refine (ofText?_absolute "http".toList (by decide) (by decide) (by decide) cs).trans ?_
  refine (if_neg hshort).trans ?_
  rw [hscan, Option.bind_some, if_neg hn, hpath]
  rfl

end Gatehouse.Net
