import Gatehouse.Tls.Peek

/-!
# Where a stream is cut

Peeking reads a stream in the pieces in which it comes.  The acceptor is asked after each of them,
so that the first answer comes at the end of some piece, and a piece that does not fit any more is
refused as a whole, even if a hello ends within it.  Where everything fits, a piece is as good as
its octets one by one; so to read one octet at a time is to read best, and other cuts differ from
that only by a piece that is refused.

    Settled            : an answer that has been given is not changed by what follows
    walk               : what reading in pieces comes to, without the stream
    walk_singly_append : a piece that fits is as good as its octets
    exists_cuts_ne_iff : when it matters where a stream is cut
    cuts_differ_iff    : it does near the limit on what is kept only
-/

namespace Gatehouse.Tls

/-! ## Specification -/

/-- What peeking tells; all errors are alike. -/
inductive Outcome where
  | hello (hello : Hello)
  | failed
  | pending
deriving DecidableEq, Repr

def Peeked.outcome {ρ : Type} : Peeked ρ → Outcome
  | .hello h _ => .hello h
  | .failed _ => .failed
  | .pending => .pending

/-- A stream that comes in the given pieces, and then ends or is silent. -/
def inPieces (hangs : Bool) (pieces : List Octets) : ScriptedStream :=
  { segments := pieces.map .data, hangs }

/-- What peeking tells of a stream that comes in the given pieces. -/
def tells {σ : Type} (a : Acceptor σ) (hangs : Bool) (pieces : List Octets) : Outcome :=
  (peek ScriptedStream.read a (inPieces hangs pieces)).outcome

/-- Pieces for one read each. -/
def ForReads (pieces : List Octets) : Prop :=
  ∀ piece ∈ pieces, piece ≠ [] ∧ piece.length ≤ chunkSize

/-- A way to cut some octets into pieces for one read each. -/
structure IsCut (bs : Octets) (pieces : List Octets) : Prop where
  joined : pieces.flatten = bs
  forReads : ForReads pieces

def singly (bs : Octets) : List Octets := bs.map fun b => [b]

theorem singly_append (bs cs : Octets) : singly (bs ++ cs) = singly bs ++ singly cs :=
  List.map_append

/-- Nothing is known at first, and what has been told of some octets is not changed by others. -/
structure Settled (f : Octets → Verdict) : Prop where
  nil : f [] = .incomplete
  append : ∀ bs more, f bs ≠ .incomplete → f (bs ++ more) = f bs

/-- What is not known yet was not known before. -/
theorem Settled.incomplete_of_append {f : Octets → Verdict} (hf : Settled f) {bs more : Octets}
    (h : f (bs ++ more) = .incomplete) : f bs = .incomplete := by
  by_cases hbs : f bs = .incomplete
  · exact hbs
  · rwa [hf.append bs more hbs] at h

theorem Settled.incomplete_of_take {f : Octets → Verdict} (hf : Settled f) {bs : Octets}
    {m n : Nat} (hmn : m ≤ n) (h : f (bs.take n) = .incomplete) : f (bs.take m) = .incomplete := by
  rw [← List.take_append_drop m (bs.take n), List.take_take, Nat.min_eq_left hmn] at h
  exact hf.incomplete_of_append h

/-! ## Reading in pieces -/

/-- What comes of pieces after some octets have been read. -/
def walk (f : Octets → Verdict) (last : Outcome) : (before : Octets) → List Octets → Outcome
  | _, [] => last
  | before, piece :: pieces =>
    if maxHello < (before ++ piece).length then .failed
    else match f (before ++ piece) with
      | .hello hello => .hello hello
      | .invalid => .failed
      | .incomplete => walk f last (before ++ piece) pieces

section

variable {f : Octets → Verdict} {last : Outcome}

theorem walk_cons_of_lt {before piece : Octets} {pieces : List Octets}
    (h : maxHello < (before ++ piece).length) :
    walk f last before (piece :: pieces) = .failed := by
  rw [walk, if_pos h]

theorem walk_cons_of_le {before piece : Octets} {pieces : List Octets}
    (h : (before ++ piece).length ≤ maxHello) :
    walk f last before (piece :: pieces) =
      match f (before ++ piece) with
      | .hello hello => .hello hello
      | .invalid => .failed
      | .incomplete => walk f last (before ++ piece) pieces := by
  rw [walk, if_neg (Nat.not_lt.mpr h)]

/-- A piece that fits is as good as its octets one by one. -/
theorem walk_singly_append (hf : Settled f) {before piece : Octets} (pieces : List Octets)
    (hpiece : piece ≠ []) (h : (before ++ piece).length ≤ maxHello) :
    walk f last before (singly piece ++ pieces) = walk f last before (piece :: pieces) := by
  induction piece generalizing before with
  | nil => exact absurd rfl hpiece
  | cons b bs ih =>
    cases bs with
    | nil => rfl
    | cons c cs =>
      have hsplit : before ++ b :: c :: cs = before ++ [b] ++ c :: cs := by simp
      have hfirst : (before ++ [b]).length ≤ maxHello := by
        simp only [List.length_append, List.length_cons, List.length_nil] at h ⊢
        omega
      have hrest : (before ++ [b] ++ c :: cs).length ≤ maxHello := hsplit ▸ h
      show walk f last before ([b] :: (singly (c :: cs) ++ pieces)) = _
      rw [walk_cons_of_le hfirst, walk_cons_of_le h, hsplit]
      -- An answer after the first octet is the answer after all of the piece.
      cases hone : f (before ++ [b]) with
      | incomplete => rw [ih (by simp) hrest, walk_cons_of_le hrest]
      | hello hello => rw [hf.append _ (c :: cs) (by simp [hone]), hone]
      | invalid => rw [hf.append _ (c :: cs) (by simp [hone]), hone]

/-- Pieces come to what their octets come to one by one, unless one of them is refused. -/
theorem walk_eq_or_refused (hf : Settled f) {before : Octets} {pieces : List Octets}
    (hbefore : f before = .incomplete) (hpieces : ∀ piece ∈ pieces, piece ≠ []) :
    walk f last before pieces = walk f last before (singly pieces.flatten) ∨
    walk f last before pieces = .failed ∧
      ∃ heads piece tails, pieces = heads ++ piece :: tails ∧
        f (before ++ heads.flatten) = .incomplete ∧
        maxHello < (before ++ heads.flatten ++ piece).length := by
  induction pieces generalizing before with
  | nil => exact .inl rfl
  | cons piece pieces ih =>
    obtain ⟨hpiece, hpieces⟩ := List.forall_mem_cons.mp hpieces
    by_cases hfits : (before ++ piece).length ≤ maxHello
    · have hsingly : walk f last before (singly (piece :: pieces).flatten) =
          walk f last before (piece :: singly pieces.flatten) := by
        rw [List.flatten_cons, singly_append]
        exact walk_singly_append hf _ hpiece hfits
      rw [hsingly, walk_cons_of_le hfits, walk_cons_of_le hfits]
      cases hone : f (before ++ piece) with
      | hello hello => exact .inl rfl
      | invalid => exact .inl rfl
      | incomplete =>
        rcases ih hone hpieces with hsame | ⟨hfailed, heads, p, tails, rfl, hheads, hlong⟩
        · exact .inl hsame
        · refine .inr ⟨hfailed, piece :: heads, p, tails, rfl, ?_⟩
          rw [List.flatten_cons, ← List.append_assoc]
          exact ⟨hheads, hlong⟩
    · refine .inr ⟨walk_cons_of_lt (Nat.not_le.mp hfits), [], piece, pieces, rfl, ?_⟩
      rw [List.flatten_nil, List.append_nil]
      exact ⟨hbefore, Nat.not_le.mp hfits⟩

/-- Octets of which nothing follows yet are read one by one, unless one of them is refused. -/
theorem walk_through (hf : Settled f) {before bs : Octets} (h : f (before ++ bs) = .incomplete) :
    (∀ pieces, walk f last before (singly bs ++ pieces) = .failed) ∨
    ∀ pieces, walk f last before (singly bs ++ pieces) =
      walk f last (before ++ bs) pieces := by
  induction bs generalizing before with
  | nil =>
    refine .inr fun pieces => ?_
    rw [List.append_nil]
    rfl
  | cons b bs ih =>
    have hsplit : before ++ b :: bs = before ++ [b] ++ bs := by simp
    rw [hsplit] at h ⊢
    by_cases hfits : (before ++ [b]).length ≤ maxHello
    · have hone : f (before ++ [b]) = .incomplete := hf.incomplete_of_append h
      have hstep : ∀ pieces, walk f last before (singly (b :: bs) ++ pieces) =
          walk f last (before ++ [b]) (singly bs ++ pieces) := by
        intro pieces
        show walk f last before ([b] :: (singly bs ++ pieces)) = _
        rw [walk_cons_of_le hfits, hone]
      simp only [hstep]
      exact ih h
    · exact .inl fun pieces => walk_cons_of_lt (Nat.not_le.mp hfits)

/-! ## When cuts matter -/

theorem isCut_singly (bs : Octets) : IsCut bs (singly bs) where
  joined := by simp [singly, ← List.flatMap_def]
  forReads piece h := by
    obtain ⟨b, -, rfl⟩ := List.mem_map.mp h
    exact ⟨List.cons_ne_nil b [], show 1 ≤ chunkSize by decide⟩

/-- Any octets in the middle that fit into one read can be read at once. -/
theorem isCut_around {bs : Octets} {b n : Nat} (hpos : 0 < n) (hn : n ≤ chunkSize)
    (hend : b + n ≤ bs.length) :
    IsCut bs (singly (bs.take b) ++ (bs.drop b).take n :: singly (bs.drop (b + n))) where
  joined := by
    rw [List.flatten_append, List.flatten_cons, (isCut_singly _).joined, (isCut_singly _).joined,
      ← List.drop_drop, List.take_append_drop, List.take_append_drop]
  forReads piece h := by
    have hlength : ((bs.drop b).take n).length = n := by
      rw [List.length_take, List.length_drop]
      omega
    rcases List.mem_append.mp h with h | h
    · exact (isCut_singly _).forReads piece h
    · rcases List.mem_cons.mp h with rfl | h
      · refine ⟨fun hnil => ?_, Nat.le_trans (Nat.le_of_eq hlength) hn⟩
        rw [hnil] at hlength
        exact absurd hlength (Nat.ne_of_lt hpos)
      · exact (isCut_singly _).forReads piece h

/-- Some octets that fit into one read go beyond the limit, before anything is known. -/
def Overflows (f : Octets → Verdict) (bs : Octets) : Prop :=
  ∃ b n, 0 < n ∧ n ≤ chunkSize ∧ b + n ≤ bs.length ∧ f (bs.take b) = .incomplete ∧
    maxHello < b + n

/-- A cut comes to what the octets come to one by one, or fails where they overflow. -/
theorem walk_of_isCut (hf : Settled f) {bs : Octets} {pieces : List Octets}
    (h : IsCut bs pieces) :
    walk f last [] pieces = walk f last [] (singly bs) ∨
    walk f last [] pieces = .failed ∧ Overflows f bs := by
  obtain ⟨rfl, hforReads⟩ := h
  refine (walk_eq_or_refused hf hf.nil fun p hp => (hforReads p hp).1).imp_right ?_
  rintro ⟨hfailed, heads, piece, tails, rfl, hheads, hlong⟩
  obtain ⟨hne, hfits⟩ := hforReads piece (by simp)
  have htake : (heads ++ piece :: tails).flatten.take heads.flatten.length = heads.flatten := by
    simp
  rw [List.nil_append] at hheads hlong
  refine ⟨hfailed, heads.flatten.length, piece.length, List.length_pos_iff.mpr hne, hfits, ?_⟩
  rw [htake]
  refine ⟨?_, hheads, by rwa [List.length_append] at hlong⟩
  rw [List.flatten_append, List.flatten_cons, List.length_append, List.length_append]
  omega

/-- It matters where a stream is cut if something comes of its octets one by one and they
overflow. -/
theorem exists_walks_ne_iff (hf : Settled f) (bs : Octets) :
    (∃ pieces pieces', IsCut bs pieces ∧ IsCut bs pieces' ∧
      walk f last [] pieces ≠ walk f last [] pieces') ↔
    walk f last [] (singly bs) ≠ .failed ∧ Overflows f bs := by
  constructor
  · rintro ⟨pieces, pieces', h, h', hne⟩
    rcases walk_of_isCut hf h with hsame | ⟨hfailed, hover⟩
    · rcases walk_of_isCut hf h' with hsame' | ⟨hfailed', hover⟩
      · exact absurd (hsame.trans hsame'.symm) hne
      · rw [hsame, hfailed'] at hne
        exact ⟨hne, hover⟩
    · refine ⟨fun hsingly => ?_, hover⟩
      rcases walk_of_isCut hf h' with hsame' | ⟨hfailed', -⟩
      · exact hne (hfailed.trans (hsame'.trans hsingly).symm)
      · exact hne (hfailed.trans hfailed'.symm)
  · -- The octets before the overflow are read one by one, and then as many at once as overflow.
    rintro ⟨hsingly, b, n, hpos, hn, hend, hincomplete, hlong⟩
    refine ⟨_, _, isCut_singly bs, isCut_around hpos hn hend, fun hsame => hsingly ?_⟩
    rcases walk_through hf (show f ([] ++ bs.take b) = .incomplete from hincomplete) with
      hrefused | hthrough
    · rw [← List.take_append_drop b bs, singly_append]
      exact hrefused _
    · rw [hsame, hthrough]
      refine walk_cons_of_lt ?_
      rw [List.nil_append, List.length_append, List.length_take, List.length_take,
        List.length_drop]
      omega

end

/-! ## Peeking as reading in pieces -/

/-- What comes of silence or of the end. -/
def atEnd (hangs : Bool) : Outcome := if hangs then .pending else .failed

/-- A piece for one read is read by one read. -/
theorem read_inPieces {hangs : Bool} {b : UInt8} {bs : Octets} {pieces : List Octets}
    (h : (b :: bs).length ≤ chunkSize) :
    ScriptedStream.read chunkSize (inPieces hangs ((b :: bs) :: pieces)) =
      (.data (b :: bs), inPieces hangs pieces) := by
  simp [ScriptedStream.read, inPieces, ScriptedStream.readSegments, List.take_of_length_le h,
    List.drop_of_length_le h]

variable {f : Octets → Verdict}

/-- Peeking at a stream that comes in pieces tells what comes of the pieces. -/
theorem outcome_peekFrom {hangs : Bool} {pieces : List Octets} (hpieces : ForReads pieces)
    (kept : Octets) :
    (peekFrom ScriptedStream.read (.ofFunction f) (fun _ => chunkSize) kept kept
      (inPieces hangs pieces)).outcome = walk f (atEnd hangs) kept pieces := by
  -- By induction on the pieces; the acceptor has been fed what is kept.
  induction pieces generalizing kept with
  | nil =>
    rw [peekFrom]
    cases hangs <;> rfl
  | cons piece pieces ih =>
    obtain ⟨⟨hne, hfits⟩, hrest⟩ := List.forall_mem_cons.mp hpieces
    cases piece with
    | nil => exact absurd rfl hne
    | cons b bs =>
      have hlength : (kept ++ b :: bs).length = kept.length + (b :: bs).length :=
        List.length_append
      rw [peekFrom, if_neg (by decide), read_inPieces hfits]
      dsimp only
      by_cases hmax : maxHello < kept.length + (b :: bs).length
      · rw [dif_pos hmax]
        exact (walk_cons_of_lt (hlength ▸ hmax)).symm
      · rw [dif_neg hmax, walk_cons_of_le (hlength ▸ Nat.not_lt.mp hmax)]
        simp only [Acceptor.feed_ofFunction, Acceptor.judge_ofFunction]
        cases f (kept ++ b :: bs) with
        | hello hello => rfl
        | invalid => rfl
        | incomplete => exact ih hrest _

theorem tells_eq_walk (f : Octets → Verdict) (hangs : Bool) {bs : Octets} {pieces : List Octets}
    (h : IsCut bs pieces) :
    tells (.ofFunction f) hangs pieces = walk f (atEnd hangs) [] pieces :=
  outcome_peekFrom h.forReads []

/-- It matters where a stream is cut if something comes of its octets one by one and they
overflow. -/
theorem exists_cuts_ne_iff (hf : Settled f) (hangs : Bool) (bs : Octets) :
    (∃ pieces pieces', IsCut bs pieces ∧ IsCut bs pieces' ∧
      tells (.ofFunction f) hangs pieces ≠ tells (.ofFunction f) hangs pieces') ↔
    tells (.ofFunction f) hangs (singly bs) ≠ .failed ∧ Overflows f bs := by
  rw [tells_eq_walk f hangs (isCut_singly bs), ← exists_walks_ne_iff hf]
  refine exists_congr fun pieces => exists_congr fun pieces' => and_congr_right fun h =>
    and_congr_right fun h' => ?_
  rw [tells_eq_walk f hangs h, tells_eq_walk f hangs h']

/-! ## The limit -/

/-- The first octets of a stream, up to the limit, as they are read one by one. -/
theorem walk_singly_take (hf : Settled f) (last : Outcome) {bs : Octets} (hbs : bs ≠ []) :
    walk f last [] (singly bs) =
      match f (bs.take maxHello) with
      | .hello hello => .hello hello
      | .invalid => .failed
      | .incomplete => walk f last (bs.take maxHello) (singly (bs.drop maxHello)) := by
  have hsplit : singly bs = singly (bs.take maxHello) ++ singly (bs.drop maxHello) := by
    rw [← singly_append, List.take_append_drop]
  have hne : bs.take maxHello ≠ [] := by simpa [maxHello] using hbs
  have hfits : ([] ++ bs.take maxHello).length ≤ maxHello := List.length_take_le maxHello bs
  rw [hsplit, walk_singly_append hf _ hne hfits, walk_cons_of_le hfits]
  rfl

/-- Octets beyond the limit are read only if there was an answer before. -/
theorem exists_hello_of_long (hf : Settled f) {last : Outcome} {bs : Octets}
    (hlong : maxHello < bs.length) (h : walk f last [] (singly bs) ≠ .failed) :
    ∃ hello, f (bs.take maxHello) = .hello hello := by
  rw [walk_singly_take hf last (List.length_pos_iff.mp (Nat.zero_lt_of_lt hlong))] at h
  cases hf' : f (bs.take maxHello) with
  | hello hello => exact ⟨hello, rfl⟩
  | invalid => exact absurd (by rw [hf']) h
  | incomplete =>
    refine absurd ?_ h
    rw [hf']
    obtain ⟨c, cs, hdrop⟩ : ∃ c cs, bs.drop maxHello = c :: cs :=
      List.exists_cons_of_ne_nil (mt List.drop_eq_nil_iff.mp (Nat.not_le.mpr hlong))
    have hrefused : maxHello < (bs.take maxHello ++ [c]).length := by
      rw [List.length_append, List.length_take, Nat.min_eq_left (Nat.le_of_lt hlong)]
      exact Nat.lt_succ_self maxHello
    rw [hdrop]
    exact walk_cons_of_lt hrefused

/-- **It matters where a stream is cut near the limit only.**  With an acceptor that tells what
follows from the octets that it was fed, two cuts of a stream come to different things exactly when
more octets come than may be kept, and nothing is known yet one read before the limit but a hello is
complete within it.  Then the cut that ends at the hello is told it, and one with a piece that goes
beyond the limit fails: all that a cut may change is that it fails, and octets that come one by one
are told every hello within the limit. -/
theorem cuts_differ_iff {f : Octets → Verdict} (hf : Settled f) (bs : Octets) (hangs : Bool) :
    ((∃ pieces pieces', IsCut bs pieces ∧ IsCut bs pieces' ∧
        tells (.ofFunction f) hangs pieces ≠ tells (.ofFunction f) hangs pieces') ↔
      maxHello < bs.length ∧ f (bs.take (maxHello + 1 - chunkSize)) = .incomplete ∧
        ∃ hello, f (bs.take maxHello) = .hello hello) ∧
    (∀ pieces, IsCut bs pieces →
      tells (.ofFunction f) hangs pieces = tells (.ofFunction f) hangs (singly bs) ∨
        tells (.ofFunction f) hangs pieces = .failed) ∧
    ∀ hello, f (bs.take maxHello) = .hello hello →
      tells (.ofFunction f) hangs (singly bs) = .hello hello := by
  have htold : ∀ hello, f (bs.take maxHello) = .hello hello →
      tells (.ofFunction f) hangs (singly bs) = .hello hello := by
    intro hello hhello
    have hbs : bs ≠ [] := by
      rintro rfl
      rw [List.take_nil, hf.nil] at hhello
      cases hhello
    rw [tells_eq_walk f hangs (isCut_singly bs), walk_singly_take hf _ hbs, hhello]
  refine ⟨?_, ?_, htold⟩
  · rw [exists_cuts_ne_iff hf]
    constructor
    · -- What overflows begins after the last place from which a read stays within the limit.
      rintro ⟨hsingly, b, n, -, hn, hend, hincomplete, hlong⟩
      refine ⟨Nat.lt_of_lt_of_le hlong hend, ?_, ?_⟩
      · exact hf.incomplete_of_take (by omega) hincomplete
      · rw [tells_eq_walk f hangs (isCut_singly bs)] at hsingly
        exact exists_hello_of_long hf (Nat.lt_of_lt_of_le hlong hend) hsingly
    · rintro ⟨hlong, hincomplete, hello, hhello⟩
      have htells : tells (.ofFunction f) hangs (singly bs) ≠ .failed := by
        rw [htold hello hhello]
        exact nofun
      refine ⟨htells, maxHello + 1 - chunkSize, chunkSize, by decide, Nat.le_refl _, ?_,
        hincomplete, ?_⟩
      · exact hlong
      · exact Nat.lt_succ_self maxHello
  · intro pieces h
    rw [tells_eq_walk f hangs h, tells_eq_walk f hangs (isCut_singly bs)]
    exact (walk_of_isCut hf h).imp_right (·.1)

/-- For this a hello is complete at some place short of the limit. -/
def lateHello (bs : Octets) : Verdict := if 62000 ≤ bs.length then .hello {} else .incomplete

theorem settled_lateHello : Settled lateHello where
  nil := by simp [lateHello]
  append bs more h := by
    have hlate : 62000 ≤ bs.length := by
      by_cases hlate : 62000 ≤ bs.length
      · exact hlate
      · simp [lateHello, hlate] at h
    have hmore : 62000 ≤ (bs ++ more).length := by
      rw [List.length_append]
      omega
    rw [lateHello, lateHello, if_pos hlate, if_pos hmore]

/-- One octet more than may be kept. -/
def tooMany : Octets := List.replicate (maxHello + 1) 0

theorem lateHello_refused_with_tooMany : Settled lateHello ∧
    ∃ pieces pieces', IsCut tooMany pieces ∧ IsCut tooMany pieces' ∧
      tells (.ofFunction lateHello) true pieces ≠ tells (.ofFunction lateHello) true pieces' := by
  have hlength : tooMany.length = maxHello + 1 := List.length_replicate
  refine ⟨settled_lateHello,
    (cuts_differ_iff settled_lateHello tooMany true).1.mpr ⟨?_, ?_, {}, ?_⟩⟩
  · rw [hlength]
    exact Nat.lt_succ_self maxHello
  · rw [lateHello, if_neg]
    rw [List.length_take, hlength]
    decide
  · rw [lateHello, if_pos]
    rw [List.length_take, hlength]
    decide

end Gatehouse.Tls
