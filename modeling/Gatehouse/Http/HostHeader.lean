import Gatehouse.Http.Message
import Gatehouse.Host

/-!
# The host of a request

The host comes from the first `Host` header, or else from the authority of the target.  It must be
visible text that reads as an authority; what counts is the canonical form of its host part.
-/

namespace Gatehouse.Http

def Request.hostText (r : Request) : Except Refusal String :=
  match r.headers.first? "host" with
  | some value => match visibleText? value with
    | some text => .ok text
    | none => .error .invalidHost
  | none => match r.target.authority? with
    | some authority => .ok authority.host
    | none => .error .missingHost

/-- The host of the request in canonical form, without port. -/
def Request.host (r : Request) : Except Refusal String :=
  match r.hostText with
  | .error e => .error e
  | .ok text =>
    match Net.Authority.ofText? text with
    | none => .error .invalidHost
    | some authority =>
      let host := Host.canonical authority.host
      if host.isEmpty then .error .invalidHost else .ok host

/-! ## Lemmas -/

/-- A host is the canonical form of the host part of an authority. -/
theorem Request.host_eq_ok {r : Request} {host : String} (h : r.host = .ok host) :
    ∃ text authority, r.hostText = .ok text ∧ Net.Authority.ofText? text = some authority ∧
      Host.canonical authority.host = host ∧ host ≠ "" := by
  unfold Request.host at h
  split at h
  · cases h
  · next text ht =>
    split at h
    · cases h
    · next authority ha =>
      by_cases he : (Host.canonical authority.host).isEmpty
      · rw [if_pos he] at h; cases h
      · rw [if_neg he, Except.ok.injEq] at h
        refine ⟨text, authority, ht, ha, h, ?_⟩
        rintro rfl
        exact he (by rw [h]; rfl)

/-- A host is visible text. -/
theorem Request.isGraphic_of_mem_host {r : Request} {host : String} (h : r.host = .ok host)
    {c : Char} (hc : c ∈ host.toList) : Text.isGraphic c = true := by
  obtain ⟨text, authority, _, ha, rfl, _⟩ := Request.host_eq_ok h
  rw [Host.toList_canonical] at hc
  exact Host.isGraphic_of_mem_canonicalChars
    (fun _ hd => Net.Authority.isGraphic_of_mem_host ha hd) hc

/-- A host can stand in a field. -/
theorem Request.isFieldOctet_of_host {r : Request} {host : String} (h : r.host = .ok host) :
    (Octets.ofText host).all isFieldOctet = true :=
  all_isFieldOctet_ofText fun _ hc => isGraphic_of_mem_host h hc

end Gatehouse.Http
