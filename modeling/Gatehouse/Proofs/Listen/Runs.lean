import Gatehouse.Listen.Listener

/-!
# Runs of listeners

What is true of whole runs of a listener, from what is true of its steps.  Two kinds of facts carry
over.  A quantity that no step loses is conserved: what was held and what was gained since is what
was lost and what is held now, in this order.  And where the steps of a listener are steps of one
that it is made of, its runs are runs of that one.

    results, delivered, failures  : what accepts return
    observed                      : what can be seen during a run, step by step
    run?_conserves                : a quantity that every step conserves is conserved by every run
    run?_observes, run?_projects  : runs of a listener are runs of those that it is made of
-/

namespace Gatehouse.Listen

variable {σ ε κ : Type}

def connection? : Accepted κ → Option κ
  | .ok c => some c
  | .error _ => none

/-- The error in a result, unless it is that there will be no more connections. -/
def error? : Accepted κ → Option ListenerError
  | .ok _ => none
  | .error .closed => none
  | .error e => some e

def Act.result? : Act ε κ → Option (Accepted κ)
  | .accepted r => some r
  | _ => none

def results (acts : List (Act ε κ)) : List (Accepted κ) := acts.filterMap Act.result?

def delivered (acts : List (Act ε κ)) : List κ := (results acts).filterMap connection?

def failures (acts : List (Act ε κ)) : List ListenerError := (results acts).filterMap error?

theorem delivered_concat (acts : List (Act ε κ)) (a : Act ε κ) :
    delivered (acts ++ [a]) = delivered acts ++ (a.result?.bind connection?).toList := by
  simp only [delivered, results, List.filterMap_append]
  cases ha : a.result? with
  | none => simp [ha]
  | some r => cases r <;> simp [ha, connection?]

section

variable [Listener σ ε κ] [DecidableEq κ]

/-- What can be seen during a run, where each step shows one thing at most. -/
def observed {β : Type} (see : σ → Act ε κ → Option β) : σ → List (Act ε κ) → List β
  | _, [] => []
  | s, a :: acts =>
    match perform? s a with
    | none => []
    | some t => (see s a).toList ++ observed see t acts

/-- What the acts alone tell can be seen without the states. -/
theorem observed_of_acts {β : Type} (see : Act ε κ → Option β) {s t : σ} {acts : List (Act ε κ)}
    (h : run? s acts = some t) : observed (fun _ => see) s acts = acts.filterMap see := by
  induction acts generalizing s with
  | nil => rfl
  | cons a acts ih =>
    obtain ⟨m, hm, hrest⟩ := run?_cons.mp h
    simp only [observed, hm, ih hrest, List.filterMap_cons]
    cases see a <;> rfl

/-- What is seen of a run that goes on. -/
theorem observed_concat {β : Type} (see : σ → Act ε κ → Option β) {s m t : σ}
    {acts : List (Act ε κ)} {a : Act ε κ} (h : run? s acts = some m) (ha : perform? m a = some t) :
    observed see s (acts ++ [a]) = observed see s acts ++ (see m a).toList := by
  induction acts generalizing s with
  | nil =>
    obtain rfl : s = m := Option.some.inj h
    simp [observed, ha]
  | cons b acts ih =>
    obtain ⟨m', hm', hrest⟩ := run?_cons.mp h
    rw [List.cons_append]
    simp only [observed, hm', ih hrest, List.append_assoc]

/-- What holds at the start, and after one step more whenever it holds, holds after every run. -/
theorem run?_induction (prop : List (Act ε κ) → σ → Prop) {s : σ} (hnil : prop [] s)
    (hstep : ∀ acts m a t, prop acts m → perform? m a = some t → prop (acts ++ [a]) t)
    {acts : List (Act ε κ)} {t : σ} (h : run? s acts = some t) : prop acts t := by
  have hfrom : ∀ before m, prop before m → run? m acts = some t → prop (before ++ acts) t := by
    clear h hnil
    induction acts with
    | nil =>
      intro before m hm h
      obtain rfl : m = t := Option.some.inj h
      rwa [List.append_nil]
    | cons a acts ih =>
      intro before m hm h
      obtain ⟨m', hm', hrest⟩ := run?_cons.mp h
      have hmore := ih (before ++ [a]) m' (hstep before m a m' hm hm') hrest
      rwa [List.append_assoc, List.singleton_append] at hmore
  exact hfrom [] s hnil h

/-- An invariant of the steps is one of the runs. -/
theorem run?_keeps {inv : σ → Prop} (hstep : ∀ s a t, inv s → perform? s a = some t → inv t)
    {s t : σ} {acts : List (Act ε κ)} (hs : inv s) (h : run? s acts = some t) : inv t :=
  run?_induction (fun _ m => inv m) hs (fun _ m a t hm ht => hstep m a t hm ht) h

/-- What acts of one kind bring about, and no others, and nothing takes back, is there from the
first of them on. -/
theorem run?_iff_mem {prop : σ → Prop} {b : Act ε κ}
    (hstep : ∀ s a t, perform? s a = some t → (prop t ↔ prop s ∨ a = b))
    {s t : σ} {acts : List (Act ε κ)} (h : run? s acts = some t) :
    prop t ↔ prop s ∨ b ∈ acts := by
  refine run?_induction (fun acts m => prop m ↔ prop s ∨ b ∈ acts) (by simp) ?_ h
  intro acts m a t hm ht
  rw [hstep m a t ht, hm, List.mem_append, List.mem_singleton, or_assoc, eq_comm]

/-- **What every step conserves is conserved by every run.** -/
theorem run?_conserves {β : Type} (inv : σ → Prop) (ok : Act ε κ → Prop) (held : σ → List β)
    (gained : σ → Act ε κ → Option β) (lost : Act ε κ → Option β)
    (hstep : ∀ s a t, inv s → ok a → perform? s a = some t →
      inv t ∧ held s ++ (gained s a).toList = (lost a).toList ++ held t)
    {s t : σ} {acts : List (Act ε κ)} (hs : inv s) (hok : ∀ a ∈ acts, ok a)
    (h : run? s acts = some t) :
    held s ++ observed gained s acts = acts.filterMap lost ++ held t := by
  induction acts generalizing s with
  | nil =>
    obtain rfl : s = t := Option.some.inj h
    simp [observed]
  | cons a acts ih =>
    obtain ⟨m, hm, hrest⟩ := run?_cons.mp h
    have hoka : ok a := hok a (List.mem_cons_self ..)
    obtain ⟨hinv, hone⟩ := hstep s a m hs hoka hm
    have hrun := ih hinv (fun b hb => hok b (List.mem_cons_of_mem a hb)) hrest
    have hlost : (a :: acts).filterMap lost = (lost a).toList ++ acts.filterMap lost := by
      cases hl : lost a <;> simp [hl]
    calc held s ++ observed gained s (a :: acts)
        = (held s ++ (gained s a).toList) ++ observed gained m acts := by
          simp only [observed, hm, List.append_assoc]
      _ = (lost a).toList ++ (held m ++ observed gained m acts) := by
          rw [hone, List.append_assoc]
      _ = (a :: acts).filterMap lost ++ held t := by
          rw [hrun, hlost, List.append_assoc]

/-- **Runs of a listener are runs of what it is made of.**  A relation of states under which each
step stands for a step of the other listener, or for none, holds after runs as well. -/
theorem run?_observes {τ δ μ : Type} [Listener τ δ μ] [DecidableEq μ] {rel : σ → τ → Prop}
    {ok : Act ε κ → Prop} {see : σ → Act ε κ → Option (Act δ μ)}
    (hstep : ∀ s u a t, rel s u → ok a → perform? s a = some t →
      ∃ v, rel t v ∧ run? u (see s a).toList = some v)
    {s t : σ} {u : τ} {acts : List (Act ε κ)} (hs : rel s u) (hok : ∀ a ∈ acts, ok a)
    (h : run? s acts = some t) :
    ∃ v, rel t v ∧ run? u (observed see s acts) = some v := by
  induction acts generalizing s u with
  | nil =>
    obtain rfl : s = t := Option.some.inj h
    exact ⟨u, hs, rfl⟩
  | cons a acts ih =>
    obtain ⟨m, hm, hrest⟩ := run?_cons.mp h
    obtain ⟨v, hv, hfirst⟩ := hstep s u a m hs (hok a (List.mem_cons_self ..)) hm
    obtain ⟨w, hw, hlater⟩ := ih hv (fun b hb => hok b (List.mem_cons_of_mem a hb)) hrest
    refine ⟨w, hw, ?_⟩
    simp only [observed, hm]
    exact run?_append.mpr ⟨v, hfirst, hlater⟩

/-- So they are if the acts alone tell which steps there are. -/
theorem run?_projects {τ δ μ : Type} [Listener τ δ μ] [DecidableEq μ] {rel : σ → τ → Prop}
    {ok : Act ε κ → Prop} {project : Act ε κ → Option (Act δ μ)}
    (hstep : ∀ s u a t, rel s u → ok a → perform? s a = some t →
      ∃ v, rel t v ∧ run? u (project a).toList = some v)
    {s t : σ} {u : τ} {acts : List (Act ε κ)} (hs : rel s u) (hok : ∀ a ∈ acts, ok a)
    (h : run? s acts = some t) :
    ∃ v, rel t v ∧ run? u (acts.filterMap project) = some v := by
  rw [← observed_of_acts project h]
  exact run?_observes hstep hs hok h

end

end Gatehouse.Listen
