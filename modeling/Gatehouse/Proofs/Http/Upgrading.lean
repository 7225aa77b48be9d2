import Gatehouse.Http.Forward
import Gatehouse.Http.Framing

/-!
# Switching protocols

A request asks to switch protocols if its `Connection` header lists `upgrade` and it names a protocol
in its `Upgrade` header.  The gateway reads lists as text; what they hold is told here by their octets
(`hasToken_iff`).  The connections are joined only if the backend agrees to the protocol that was
asked for, but whatever it answers goes to the client: a client may be told that protocols are switched
on a connection that is joined to none.

    Lists                     : a value lists a token
    Request.AsksFor           : a request asks to switch to a protocol
    Response.SwitchesTo       : a response agrees to switch to it
    switching_iff_joined      : when a client that is told to switch is joined to the backend
-/

namespace Gatehouse.Http

open Text

/-! ## Specification -/

/-- Equality up to the case of the letters A to Z. -/
def SameLetters (bs bs' : Octets) : Prop := bs.map Octets.lower = bs'.map Octets.lower

instance (bs bs' : Octets) : Decidable (SameLetters bs bs') :=
  inferInstanceAs (Decidable (bs.map Octets.lower = bs'.map Octets.lower))

/-- The elements of a list: what is between its commas, without the spaces and tabs around it. -/
def elements (value : Octets) : List Octets := (splitAll (· == 44) value).map trimValue

/-- A value, read as a list, holds a token. -/
def Lists (value token : Octets) : Prop := ∃ part ∈ elements value, SameLetters part token

instance (value token : Octets) : Decidable (Lists value token) :=
  inferInstanceAs (Decidable (∃ part ∈ elements value, SameLetters part token))

/-- Some value of the name that is visible as a whole lists the token. -/
def Headers.Lists (hs : Headers) (name : String) (token : Octets) : Prop :=
  ∃ value ∈ hs.values name, value.all isVisible = true ∧ Http.Lists value token

def Request.AsksFor (r : Request) (protocol : Octets) : Prop :=
  r.headers.Lists "connection" (Octets.ofText "upgrade") ∧
    (r.headers.values "upgrade").head? = some protocol

/-- The response agrees to switch to a protocol. -/
def Response.SwitchesTo (response : Response) (protocol : Octets) : Prop :=
  response.status = 101 ∧
    ∃ value, (response.headers.values "upgrade").head? = some value ∧ SameLetters value protocol

/-! ## Text and octets -/

theorem lists_iff (value token : Octets) :
    Lists value token ↔ ∃ part ∈ splitAll (· == 44) value, SameLetters (trimValue part) token := by
  simp only [Lists, elements, List.mem_map]
  constructor
  · rintro ⟨_, ⟨part, hpart, rfl⟩, h⟩
    exact ⟨part, hpart, h⟩
  · rintro ⟨part, hpart, h⟩
    exact ⟨_, ⟨part, hpart, rfl⟩, h⟩

/-- An octet and its character have the same part in a list. -/
theorem ofNat_octet : ∀ n, n < 256 →
    (Char.ofNat n == ',') = (n.toUInt8 == 44) ∧
    (Char.ofNat n).toLower = Char.ofNat (Octets.lower n.toUInt8).toNat ∧
    (isVisible n.toUInt8 = true →
      isBlank (Char.ofNat n) = (n.toUInt8 == 32 || n.toUInt8 == 9)) := by
  decide +kernel

theorem ofNat_toNat_octet (b : UInt8) :
    (Char.ofNat b.toNat == ',') = (b == 44) ∧
    (Char.ofNat b.toNat).toLower = Char.ofNat (Octets.lower b).toNat ∧
    (isVisible b = true → isBlank (Char.ofNat b.toNat) = (b == 32 || b == 9)) := by
  simpa using ofNat_octet b.toNat b.toNat_lt

theorem latin_inj {bs bs' : Octets} : Octets.latin bs = Octets.latin bs' ↔ bs = bs' := by
  constructor
  · intro h
    rw [← Octets.ofLatin_latin bs, h, Octets.ofLatin_latin]
  · exact congrArg Octets.latin

theorem lower_latin (bs : Octets) : lower (Octets.latin bs) = Octets.latin (bs.map Octets.lower) := by
  rw [← String.toList_inj, toList_lower, Octets.toList_latin, Octets.toList_latin, List.map_map,
    List.map_map]
  exact List.map_congr_left fun b _ => (ofNat_toNat_octet b).2.1

theorem dropWhile_map_of_forall {α β : Type} {p : α → Bool} {q : β → Bool} {f : α → β} {l : List α}
    (h : ∀ a ∈ l, q (f a) = p a) : (l.map f).dropWhile q = (l.dropWhile p).map f := by
  induction l with
  | nil => rfl
  | cons a l ih =>
    have hrest := ih fun b hb => h b (List.mem_cons_of_mem a hb)
    have ha := h a List.mem_cons_self
    rw [List.map_cons, List.dropWhile_cons, List.dropWhile_cons, ha]
    split
    · exact hrest
    · rfl

/-- Of what is visible, spaces and tabs are trimmed. -/
theorem trimChars_octets {part : Octets} (h : ∀ b ∈ part, isVisible b = true) :
    trimChars (part.map fun b => Char.ofNat b.toNat) =
      (trimValue part).map fun b => Char.ofNat b.toNat := by
  have hblank : ∀ b ∈ part, isBlank (Char.ofNat b.toNat) = (b == 32 || b == 9) := fun b hb =>
    (ofNat_toNat_octet b).2.2 (h b hb)
  -- What is left after the first run goes is still visible, so that the same holds at the end.
  rw [trimChars, dropWhile_map_of_forall hblank, dropEndWhile, ← List.map_reverse,
    dropWhile_map_of_forall, ← List.map_reverse]
  · rfl
  · intro b hb
    exact hblank b ((List.dropWhile_sublist _).mem (List.mem_reverse.mp hb))

theorem caselessEq_part {part : Octets} (h : ∀ b ∈ part, isVisible b = true) {token : String}
    (htoken : ∀ c ∈ token.toList, c.toNat < 128) :
    caselessEq (String.ofList (trimChars (part.map fun b => Char.ofNat b.toNat))) token = true ↔
      SameLetters (trimValue part) (Octets.ofText token) := by
  have hlatin : token = Octets.latin (Octets.ofText token) := by
    rw [Octets.ofText_eq_ofLatin token htoken,
      Octets.latin_ofLatin token fun c hc => Nat.lt_trans (htoken c hc) (by decide)]
  rw [caselessEq_iff, trimChars_octets h, ← Octets.latin, hlatin, lower_latin, lower_latin, latin_inj,
    ← hlatin]
  rfl

/-- **What it means to read a token**: it is listed by a value that is visible text. -/
theorem hasToken_iff (hs : Headers) (name : String) {token : String}
    (hascii : (token.toList.all fun c => c.toNat < 128) = true) :
    hs.hasToken name token = true ↔ hs.Lists name (Octets.ofText token) := by
  have htoken : ∀ c ∈ token.toList, c.toNat < 128 := fun c hc =>
    of_decide_eq_true (List.all_eq_true.mp hascii c hc)
  unfold Headers.hasToken Headers.Lists
  rw [List.any_eq_true]
  refine exists_congr fun value => and_congr_right fun _ => ?_
  unfold visibleText?
  by_cases hvisible : value.all isVisible = true
  · have hcomma : ∀ b : UInt8, (Char.ofNat b.toNat == ',') = (b == 44) := fun b =>
      (ofNat_toNat_octet b).1
    rw [if_pos hvisible]
    dsimp only
    rw [Octets.toList_latin, splitAll_map _ hcomma, List.any_map, List.any_eq_true]
    simp only [hvisible, true_and, lists_iff]
    refine exists_congr fun part => and_congr_right fun hpart => ?_
    exact caselessEq_part (fun b hb =>
      List.all_eq_true.mp hvisible b (mem_of_mem_splitAll hpart hb)) htoken
  · rw [if_neg hvisible]
    simp [hvisible]

/-! ## Asking and agreeing -/

theorem upgrade?_eq_some_iff (r : Request) (protocol : Octets) :
    r.upgrade? = some protocol ↔ r.AsksFor protocol := by
  unfold Request.upgrade? Request.AsksFor
  rw [← hasToken_iff r.headers "connection" (by decide)]
  split
  · next h => simp [h, Headers.first?]
  · next h => simp [h]

theorem acceptsUpgrade_iff (response : Response) (protocol : Octets) :
    acceptsUpgrade response protocol = true ↔ response.SwitchesTo protocol := by
  unfold acceptsUpgrade Response.SwitchesTo Headers.first? SameLetters
  cases (response.headers.values "upgrade").head? <;> simp

theorem status_refusal_ne (e : Refusal) : e.response.status ≠ 101 := by
  cases e <;> decide

/-! ## What the client is told -/

section

variable (client : Client) (r : Request) (destination : String) (o : Origin)

theorem status_forwardReply_iff :
    (forwardReply client r destination o).response.status = 101 ↔
      ∃ response, client (r.toOutbound destination o) = some response ∧ response.status = 101 := by
  unfold forwardReply forward
  cases client (r.toOutbound destination o) with
  | none => simpa using status_refusal_ne .backend
  | some response => simp

theorem joined_forwardReply_iff :
    (forwardReply client r destination o).joined = true ↔
      ∃ protocol response, r.AsksFor protocol ∧
        client (r.toOutbound destination o) = some response ∧ response.SwitchesTo protocol := by
  unfold forwardReply forward
  cases client (r.toOutbound destination o) with
  | none => simp
  | some response =>
    simp only [Option.any_eq_true, upgrade?_eq_some_iff, acceptsUpgrade_iff]
    simp

/-- **Who is told to switch, and who is joined.**  A client is told that protocols are switched
whenever the backend says so.  Its connection is joined to the backend's if it asked for a protocol
and the backend agreed to this one.  The two differ exactly if a backend switches protocols unasked
or to another one. -/
theorem switching_iff_joined :
    ((forwardReply client r destination o).response.status = 101 ↔
      ∃ response, client (r.toOutbound destination o) = some response ∧ response.status = 101) ∧
    ((forwardReply client r destination o).joined = true ↔
      ∃ protocol response, r.AsksFor protocol ∧
        client (r.toOutbound destination o) = some response ∧ response.SwitchesTo protocol) ∧
    (((forwardReply client r destination o).response.status = 101 ↔
        (forwardReply client r destination o).joined = true) ↔
      ∀ response, client (r.toOutbound destination o) = some response → response.status = 101 →
        ∃ protocol, r.AsksFor protocol ∧ response.SwitchesTo protocol) := by
  refine ⟨status_forwardReply_iff client r destination o,
    joined_forwardReply_iff client r destination o, ?_⟩
  rw [status_forwardReply_iff, joined_forwardReply_iff]
  constructor
  · -- The backend answers once, so that the answer the connections are joined for is this one.
    intro h response hclient hswitch
    obtain ⟨protocol, response', hasks, hclient', hagrees⟩ := h.mp ⟨response, hclient, hswitch⟩
    obtain rfl : response' = response := Option.some.inj (hclient'.symm.trans hclient)
    exact ⟨protocol, hasks, hagrees⟩
  · intro h
    constructor
    · rintro ⟨response, hclient, hswitch⟩
      obtain ⟨protocol, hasks, hagrees⟩ := h response hclient hswitch
      exact ⟨protocol, response, hasks, hclient, hagrees⟩
    · rintro ⟨protocol, response, -, hclient, hagrees⟩
      exact ⟨response, hclient, hagrees.1⟩

end

/-- A backend that switches to the protocol `echo`, whatever it is asked. -/
def echoing : Client := fun _ => some
  { status := 101
    headers := [⟨"connection", Octets.ofText "upgrade"⟩, ⟨"upgrade", Octets.ofText "echo"⟩] }

def socketVisit (headers : Headers) : Request where
  target := .origin ⟨"/socket", none⟩
  headers := ⟨"host", Octets.ofText "b.example"⟩ :: headers

/-- The headers that ask to switch to a protocol. -/
def askingFor (protocol : String) : Headers :=
  [⟨"connection", Octets.ofText "keep-alive, Upgrade"⟩, ⟨"upgrade", Octets.ofText protocol⟩]

/-- The origin of a request that came by HTTPS. -/
def socketOrigin : Origin :=
  ⟨{ ip := .v4 ⟨203, 0, 113, 5⟩, port := 50000 }, "b.example", .https⟩

example : (forwardReply echoing (socketVisit (askingFor "Echo")) "10.0.0.7:80" socketOrigin).joined =
    true := by
  decide +kernel

/-- A client that did not ask to switch is told to, and so is one that asked for another protocol;
neither is joined to the backend. -/
theorem unasked_switch_is_told :
    ((forwardReply echoing (socketVisit []) "10.0.0.7:80" socketOrigin).response.status = 101 ∧
      (forwardReply echoing (socketVisit []) "10.0.0.7:80" socketOrigin).joined = false ∧
      (socketVisit []).upgrade? = none) ∧
    (forwardReply echoing (socketVisit (askingFor "websocket")) "10.0.0.7:80"
        socketOrigin).response.status = 101 ∧
      (forwardReply echoing (socketVisit (askingFor "websocket")) "10.0.0.7:80"
        socketOrigin).joined = false ∧
      (socketVisit (askingFor "websocket")).upgrade? = some (Octets.ofText "websocket") := by
  decide +kernel

end Gatehouse.Http
