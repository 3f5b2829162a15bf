import Mathlib.Tactic.Linarith
import Mathlib.Tactic.Ring
import PionTransport.Replay.Wrapped

/-!
# Unwrapped positions of the wrapping detector

Numbers return after a lap, so the history of the wrapping detector is kept in
unwrapped positions: the head starts at position zero and only moves forward,
and an accepted number is placed by its distance from the head at that time.
The mask is the window of accepted positions, whatever the order of accepts.
As long as the window is at most half a lap, a number accepted inside it is
measured at exactly its own position again, hence rejected.
-/

namespace PionTransport.Replay

open PionTransport.Core WrappedSlidingWindowDetector

/-- The history variable: initial head, position of the head, and accepted numbers with
their positions, newest first. -/
structure Positions where
  start : Nat
  head : Int
  accepted : List (Nat × Int)
  deriving DecidableEq, Repr

/-- The position was given to some accepted number. -/
def Positions.Taken (g : Positions) (p : Int) : Prop := ∃ a ∈ g.accepted, a.2 = p

/-- The head gets its initial value from the first check in range. -/
def Positions.recordCheck (d : WrappedSlidingWindowDetector) (g : Positions) (seq : Nat) :
    Positions :=
  if seq > d.maxSeq ∨ d.init then g else { g with start := startHead d.maxSeq seq }

/-- An accepted number is placed at its distance from the head, which moves to a number
ahead of it. -/
def Positions.recordAccept (g : Positions) (seq : Nat) (diff : Int) : Positions :=
  { g with
    head := if diff < 0 then g.head - diff else g.head
    accepted := (seq, g.head - diff) :: g.accepted }

/-- The effect of one call on the history variable. -/
def Positions.record (s : Session WrappedSlidingWindowDetector) (g : Positions) :
    Call → Positions
  | .checkSeq seq => g.recordCheck s.detector seq
  | .accept issued =>
    match s.tokens[issued]? with
    | none => g
    | some tok =>
      if tok.passed then g.recordAccept tok.seq (s.detector.diff tok.seq) else g

/-- The detector's state is the window of accepted positions below the head. -/
structure Located (windowSize maxSeq : Nat) (d : WrappedSlidingWindowDetector)
    (g : Positions) : Prop where
  maxSeq_eq : d.maxSeq = maxSeq
  windowSize_eq : d.windowSize = windowSize
  latest_le : d.latestSeq ≤ maxSeq
  congr : ((maxSeq + 1 : Nat) : Int) ∣ d.latestSeq - (g.start + g.head)
  valid : d.mask.Valid
  width : d.mask.n = windowSize
  tracks : Tracks windowSize d.mask.testBit g.head g.Taken
  behind : ∀ p, g.Taken p → p ≤ g.head
  placed : ∀ a ∈ g.accepted,
    a.1 ≤ maxSeq ∧ ((maxSeq + 1 : Nat) : Int) ∣ a.1 - (g.start + a.2)
  fresh : d.init = false → g.head = 0 ∧ g.accepted = []

variable {windowSize maxSeq : Nat} {d : WrappedSlidingWindowDetector} {g : Positions}

/-- A new detector has no positions. -/
theorem located_withWrap (hw : windowSize + 63 < 2 ^ 64) (maxSeq : Nat) :
    Located windowSize maxSeq (withWrap windowSize maxSeq) ⟨0, 0, []⟩ := by
  obtain ⟨hvalid, hzero⟩ := newFixedBigInt_valid hw
  have hnone : ∀ p, ¬ (⟨0, 0, []⟩ : Positions).Taken p := by simp [Positions.Taken]
  exact ⟨rfl, rfl, Nat.zero_le _, ⟨0, by simp [withWrap]⟩, hvalid, rfl,
    (tracks_empty hzero 0).congr fun p => (iff_false_intro (hnone p)).symm,
    fun p hp => absurd hp (hnone p), by simp, fun _ => ⟨rfl, rfl⟩⟩

variable {seq : Nat}

/-- Setting the initial head gives the head position zero. -/
theorem Located.initHead_spec (hl : Located windowSize maxSeq d g) (hseq : seq ≤ maxSeq) :
    Located windowSize maxSeq (d.initHead seq) (g.recordCheck d seq) ∧
      (d.initHead seq).init = true := by
  have hin : ¬ seq > maxSeq := Nat.not_lt.mpr hseq
  unfold initHead Positions.recordCheck
  rw [hl.maxSeq_eq]
  cases hinit : d.init with
  | true =>
    simp only [hin, or_true, ite_true]
    exact ⟨hl, hinit⟩
  | false =>
    obtain ⟨hhead, haccepted⟩ := hl.fresh hinit
    have hstart := startHead_le hseq
    simp only [hin, or_self, ite_false, Bool.false_eq_true, and_true]
    refine ⟨rfl, hl.windowSize_eq, hstart, ⟨0, by simp [hhead]⟩, hl.valid, hl.width, hl.tracks,
      hl.behind, ?_, fun h => Bool.noConfusion h⟩
    intro a ha
    rw [haccepted] at ha
    cases ha

/-- The distance of a number in range is exact. -/
theorem Located.diff_eq (hl : Located windowSize maxSeq d g) (hmax : maxSeq < 2 ^ 63)
    (hseq : seq ≤ maxSeq) : d.diff seq = wrapDistance maxSeq d.latestSeq seq := by
  have hlatest := hl.latest_le
  obtain rfl := hl.maxSeq_eq
  exact WrappedSlidingWindowDetector.diff_eq hmax hlatest hseq

theorem Located.diff_bounds (hl : Located windowSize maxSeq d g) (hmax : maxSeq < 2 ^ 63)
    (hseq : seq ≤ maxSeq) :
    -(maxSeq + 1 : Int) < d.diff seq ∧ d.diff seq ≤ maxSeq + 1 := by
  rw [hl.diff_eq hmax hseq]
  exact wrapDistance_bounds hl.latest_le hseq

/-- A number accepted inside the window is found at its own position. -/
theorem Located.diff_accepted (hl : Located windowSize maxSeq d g) (hmax : maxSeq < 2 ^ 63)
    (hw : windowSize ≤ maxSeq / 2) {p : Int} (ha : (seq, p) ∈ g.accepted)
    (hp : g.head - p < windowSize) : d.diff seq = g.head - p := by
  obtain ⟨hseq, hplaced⟩ := hl.placed _ ha
  have hbehind := hl.behind p ⟨_, ha, rfl⟩
  have hcongr : ((maxSeq + 1 : Nat) : Int) ∣
      (d.latestSeq : Int) - seq - ((g.head - p).toNat : Int) := by
    have h := Int.dvd_sub hl.congr hplaced
    rwa [show (d.latestSeq : Int) - (g.start + g.head) - (seq - (g.start + p)) =
      d.latestSeq - seq - ((g.head - p).toNat : Int) by omega] at h
  rw [hl.diff_eq hmax hseq, wrapDistance_of_congr hl.latest_le hseq (by omega) hcongr]
  omega

@[simp] theorem Positions.recordCheck_head (d : WrappedSlidingWindowDetector) (g : Positions)
    (seq : Nat) : (g.recordCheck d seq).head = g.head := by
  unfold Positions.recordCheck
  split <;> rfl

@[simp] theorem Positions.recordCheck_accepted (d : WrappedSlidingWindowDetector) (g : Positions)
    (seq : Nat) : (g.recordCheck d seq).accepted = g.accepted := by
  unfold Positions.recordCheck
  split <;> rfl

/-- A window that fits half a lap converts to a signed word unchanged. -/
theorem Located.int64_windowSize (hl : Located windowSize maxSeq d g) (hmax : maxSeq < 2 ^ 63)
    (hw : windowSize ≤ maxSeq / 2) : int64 d.windowSize = windowSize := by
  rw [hl.windowSize_eq]
  exact int64_eq (by omega) (by omega)

/-- A window bit says whether its position was taken. -/
theorem Located.bit_spec (hl : Located windowSize maxSeq d g) {i : Nat} (hi : i < windowSize) :
    ∃ b, d.mask.bit i = some b ∧ (b ≠ 0 ↔ g.Taken (g.head - i)) := by
  refine ⟨_, hl.valid.bit_eq i, ?_⟩
  rw [← hl.tracks i hi]
  cases d.mask.testBit i <;> simp

/-- The verdict on a distance: ahead of the head, or inside the window and not taken. -/
theorem Located.judge_spec (hl : Located windowSize maxSeq d g) (hmax : maxSeq < 2 ^ 63)
    (hw : windowSize ≤ maxSeq / 2) (diff : Int) :
    ∃ ok, d.judge diff = some ok ∧
      (ok = true ↔ diff < 0 ∨ (diff < windowSize ∧ ¬ g.Taken (g.head - diff))) := by
  rw [judge, hl.int64_windowSize hmax hw]
  by_cases hold : diff ≥ windowSize
  · refine ⟨false, if_pos hold, ?_⟩
    simp only [Bool.false_eq_true, false_iff, not_or, not_and]
    exact ⟨by omega, fun hlt => absurd hold (Int.not_le.mpr hlt)⟩
  · rw [if_neg hold]
    by_cases hneg : diff < 0
    · exact ⟨true, if_neg (Int.not_le.mpr hneg), by simp [hneg]⟩
    · obtain ⟨k, rfl⟩ := Int.eq_ofNat_of_zero_le (Int.not_lt.mp hneg)
      obtain ⟨b, hbit, htaken⟩ := hl.bit_spec (i := k) (by omega)
      have hword : uint64 k = k := uint64_eq (by omega)
      have hside : ¬ (k : Int) < 0 ∧ (k : Int) < windowSize := by omega
      refine ⟨decide (b = 0), ?_, ?_⟩
      · rw [if_pos (Int.natCast_nonneg k), hword, hbit, Option.map_some]
      · simp only [decide_eq_true_eq, hside, false_or, true_and, ← htaken, not_not]

/-- The distance keeps the congruence of head and position. -/
theorem Located.placed_diff (hl : Located windowSize maxSeq d g) (hmax : maxSeq < 2 ^ 63)
    (hseq : seq ≤ maxSeq) :
    ((maxSeq + 1 : Nat) : Int) ∣ (seq : Int) - (g.start + (g.head - d.diff seq)) := by
  have h := Int.dvd_sub hl.congr (wrapDistance_congr maxSeq d.latestSeq seq)
  rw [hl.diff_eq hmax hseq]
  rwa [show (d.latestSeq : Int) - (g.start + g.head) -
      (d.latestSeq - seq - wrapDistance maxSeq d.latestSeq seq) =
    seq - (g.start + (g.head - wrapDistance maxSeq d.latestSeq seq)) by ring] at h

/-- Accepting a number takes its position, and moves the head exactly to a number ahead. -/
theorem Located.acceptDiff_spec (hl : Located windowSize maxSeq d g) (hmax : maxSeq < 2 ^ 63)
    (hinit : d.init = true) (hseq : seq ≤ maxSeq) {diff : Int}
    (hbounds : -(maxSeq + 1 : Int) < diff ∧ diff ≤ maxSeq + 1)
    (hplaced : ((maxSeq + 1 : Nat) : Int) ∣ (seq : Int) - (g.start + (g.head - diff))) :
    ∃ d', d.acceptDiff seq diff = some (d', decide (diff < 0)) ∧
      d'.latestSeq = (if diff < 0 then seq else d.latestSeq) ∧ d'.init = true ∧
      Located windowSize maxSeq d' (g.recordAccept seq diff) := by
  have hall : ∀ a ∈ (g.recordAccept seq diff).accepted,
      a.1 ≤ maxSeq ∧ ((maxSeq + 1 : Nat) : Int) ∣ a.1 - (g.start + a.2) := by
    intro a ha
    rcases List.mem_cons.mp ha with rfl | ha
    · exact ⟨hseq, hplaced⟩
    · exact hl.placed a ha
  have htaken : ∀ p, g.Taken p ∨ p = g.head - diff ↔ (g.recordAccept seq diff).Taken p := by
    intro p
    simp only [Positions.Taken, Positions.recordAccept, List.mem_cons, exists_eq_or_imp]
    rw [or_comm, eq_comm]
  have htracks := hl.tracks
  rw [← hl.width] at htracks
  by_cases hneg : diff < 0
  · obtain ⟨k, rfl⟩ : ∃ k : Nat, diff = -k := ⟨diff.natAbs, by omega⟩
    have hword : uint64 (int64 (- -(k : Int))) = k := by
      rw [Int.neg_neg, int64_eq (by omega) (by omega), uint64_eq (by omega)]
    have hhead : (g.recordAccept seq (-k)).head = g.head + k := by
      simp only [Positions.recordAccept, hneg, ite_true, Int.sub_neg]
    obtain ⟨hvalid, hwidth, hshift⟩ := hl.valid.lsh_tracks htracks hl.behind k
    obtain ⟨mask, hset, hvalid', hwidth', hmark⟩ :=
      hvalid.setBit_tracks (by rw [hwidth]; exact hshift) 0
    rw [hwidth, hl.width] at hwidth' hmark
    rw [hl.width] at hset
    refine ⟨{ d with mask := mask, latestSeq := seq }, ?_, (if_pos hneg).symm, hinit,
      hl.maxSeq_eq, hl.windowSize_eq, hseq, ?_, hvalid', hwidth', ?_, ?_, hall, ?_⟩
    · rw [acceptDiff, if_pos hneg, hword, hl.windowSize_eq]
      simp only [hset, Option.bind_eq_bind, Option.bind_some, Option.pure_def, hneg, decide_true]
    · rw [Int.sub_neg] at hplaced
      rw [hhead]
      exact hplaced
    · rw [hhead]
      refine hmark.congr fun p => ?_
      rw [← htaken, Int.natCast_zero, Int.sub_zero, Int.sub_neg]
    · intro p hp
      rw [hhead]
      rcases (htaken p).mpr hp with hp | rfl
      · have := hl.behind p hp
        omega
      · omega
    · rw [hinit]
      exact fun h => Bool.noConfusion h
  · obtain ⟨k, rfl⟩ := Int.eq_ofNat_of_zero_le (Int.not_lt.mp hneg)
    have hword : uint64 k = k := uint64_eq (by omega)
    have hhead : (g.recordAccept seq k).head = g.head := by
      simp only [Positions.recordAccept, hneg, ite_false]
    obtain ⟨mask, hset, hvalid', hwidth', hmark⟩ := hl.valid.setBit_tracks htracks k
    rw [hl.width] at hwidth' hmark
    refine ⟨{ d with mask := mask }, ?_, (if_neg hneg).symm, hinit, hl.maxSeq_eq,
      hl.windowSize_eq, hl.latest_le, ?_, hvalid', hwidth', ?_, ?_, hall, ?_⟩
    · rw [acceptDiff, if_neg hneg, hword]
      simp only [hset, Option.bind_eq_bind, Option.bind_some, Option.pure_def, hneg, decide_false]
    · rw [hhead]
      exact hl.congr
    · rw [hhead]
      exact hmark.congr htaken
    · intro p hp
      rw [hhead]
      rcases (htaken p).mpr hp with hp | rfl
      · exact hl.behind p hp
      · omega
    · rw [hinit]
      exact fun h => Bool.noConfusion h

/-- The positions of a session: passed tokens are in range and were issued after the head
was set. -/
structure LocatedSession (windowSize maxSeq : Nat) (s : Session WrappedSlidingWindowDetector)
    (g : Positions) : Prop where
  located : Located windowSize maxSeq s.detector g
  issued : ∀ tok ∈ s.tokens, tok.passed = true → tok.seq ≤ maxSeq ∧ s.detector.init = true

variable {s : Session WrappedSlidingWindowDetector}

/-- `CheckSeq` never panics; it keeps the positions and computes the verdict they determine. -/
theorem LocatedSession.checkToken_spec (hs : LocatedSession windowSize maxSeq s g)
    (hmax : maxSeq < 2 ^ 63) (hw : windowSize ≤ maxSeq / 2) (seq : Nat) :
    ∃ d' ok, s.detector.checkToken seq = some (d', ⟨seq, ok⟩) ∧
      (ok = true ↔ seq ≤ maxSeq ∧ (d'.diff seq < 0 ∨
        (d'.diff seq < windowSize ∧ ¬ g.Taken (g.head - d'.diff seq)))) ∧
      (s.detector.init = true → d' = s.detector) ∧
      LocatedSession windowSize maxSeq ⟨d', s.tokens ++ [⟨seq, ok⟩]⟩
        (g.recordCheck s.detector seq) := by
  have hl := hs.located
  by_cases hseq : seq ≤ maxSeq
  · have hin : ¬ seq > s.detector.maxSeq := by
      rw [hl.maxSeq_eq]
      exact Nat.not_lt.mpr hseq
    obtain ⟨hl', hinit⟩ := hl.initHead_spec hseq
    obtain ⟨ok, hjudge, hok⟩ := hl'.judge_spec hmax hw ((s.detector.initHead seq).diff seq)
    simp only [Positions.Taken, Positions.recordCheck_head,
      Positions.recordCheck_accepted] at hok
    refine ⟨s.detector.initHead seq, ok, ?_, ?_, ?_, hl', ?_⟩
    · simp only [checkToken, checkSeq, hin, ite_false, hjudge, Option.map_some,
        Option.bind_eq_bind, Option.bind_some]
      cases ok <;> rfl
    · rw [hok]
      simp only [hseq, true_and, Positions.Taken]
    · intro hset
      simp only [initHead, hset, ite_true]
    · intro tok htok hpassed
      refine ⟨?_, hinit⟩
      rcases List.mem_append.mp htok with htok | htok
      · exact (hs.issued tok htok hpassed).1
      · rw [List.mem_singleton.mp htok]
        exact hseq
  · have hout : seq > s.detector.maxSeq := by
      rw [hl.maxSeq_eq]
      exact Nat.lt_of_not_le hseq
    have hsame : g.recordCheck s.detector seq = g := if_pos (Or.inl hout)
    refine ⟨s.detector, false, ?_, by simp [hseq], fun _ => rfl, by rwa [hsame], ?_⟩
    · simp only [checkToken, checkSeq, hout, ite_true, Option.bind_eq_bind, Option.bind_some]
      rfl
    · intro tok htok hpassed
      rcases List.mem_append.mp htok with htok | htok
      · exact hs.issued tok htok hpassed
      · rw [List.mem_singleton.mp htok] at hpassed
        cases hpassed

/-- A number at the head is not ahead of it. -/
theorem wrapDistance_self_nonneg (maxSeq head : Nat) : 0 ≤ wrapDistance maxSeq head head := by
  unfold wrapDistance
  split_ifs <;> omega

/-- `Accept` of an issued token never panics; it keeps the positions and reports whether the
head moved. -/
theorem LocatedSession.accept_spec (hs : LocatedSession windowSize maxSeq s g)
    (hmax : maxSeq < 2 ^ 63) {issued : Nat} {tok : Token} (htok : s.tokens[issued]? = some tok) :
    ∃ d' latest, s.detector.accept tok = some (d', latest) ∧
      (latest = true ↔ d'.latestSeq ≠ s.detector.latestSeq) ∧
      (latest = true ↔ (g.record s (.accept issued)).head ≠ g.head) ∧
      LocatedSession windowSize maxSeq ⟨d', s.tokens⟩ (g.record s (.accept issued)) := by
  have hl := hs.located
  simp only [Positions.record, htok]
  cases hpassed : tok.passed with
  | false =>
    refine ⟨s.detector, false, by simp [accept, hpassed], by simp, by simp, ?_⟩
    simpa using hs
  | true =>
    obtain ⟨hseq, hinit⟩ := hs.issued tok (List.mem_of_getElem? htok) hpassed
    obtain ⟨d', haccept, hlatest, hinit', hl'⟩ := hl.acceptDiff_spec hmax hinit hseq
      (hl.diff_bounds hmax hseq) (hl.placed_diff hmax hseq)
    refine ⟨d', decide (s.detector.diff tok.seq < 0), ?_, ?_, ?_, hl',
      fun tok htok hp => ⟨(hs.issued tok htok hp).1, hinit'⟩⟩
    · simp only [accept, hpassed, Bool.not_true, Bool.false_eq_true, ite_false, haccept]
    · have hself := wrapDistance_self_nonneg maxSeq s.detector.latestSeq
      have hdiff := hl.diff_eq hmax hseq
      rw [decide_eq_true_eq, hlatest]
      by_cases hneg : s.detector.diff tok.seq < 0
      · simp only [hneg, ite_true, true_iff]
        intro he
        rw [hdiff, he] at hneg
        exact absurd hself (Int.not_le.mpr hneg)
      · simp only [hneg, ite_false, ne_eq, not_true]
    · rw [decide_eq_true_eq]
      simp only [ite_true, Positions.recordAccept]
      by_cases hneg : s.detector.diff tok.seq < 0
      · simp only [hneg, ite_true, true_iff]
        intro he
        have : s.detector.diff tok.seq = 0 := by linarith
        rw [this] at hneg
        exact absurd hneg (by decide)
      · simp only [hneg, ite_false, ne_eq, not_true]

/-- Every call succeeds and keeps the positions. -/
theorem LocatedSession.step_spec (hmax : maxSeq < 2 ^ 63) (hw : windowSize ≤ maxSeq / 2)
    (sg : Session WrappedSlidingWindowDetector × Positions) (call : Call)
    (hs : LocatedSession windowSize maxSeq sg.1 sg.2) :
    ∃ sg' reply, observe tokenApi.step Positions.record sg call = some (sg', reply) ∧
      LocatedSession windowSize maxSeq sg'.1 sg'.2 := by
  obtain ⟨s, g⟩ := sg
  cases call with
  | checkSeq seq =>
    obtain ⟨d', ok, hcheck, -, -, hs'⟩ := hs.checkToken_spec hmax hw seq
    refine ⟨(⟨d', s.tokens ++ [⟨seq, ok⟩]⟩, g.recordCheck s.detector seq), .token ⟨seq, ok⟩,
      ?_, hs'⟩
    simp only [observe, CheckAccepter.step, tokenApi, hcheck, Option.map_some, Positions.record]
  | accept issued =>
    cases htok : s.tokens[issued]? with
    | none =>
      refine ⟨(s, g), .notIssued, ?_, hs⟩
      simp only [observe, CheckAccepter.step, htok, Option.map_some, Positions.record]
    | some tok =>
      obtain ⟨d', latest, haccept, -, -, hs'⟩ := hs.accept_spec hmax htok
      refine ⟨(⟨d', s.tokens⟩, g.record s (.accept issued)), .latest latest, ?_, hs'⟩
      simp only [observe, CheckAccepter.step, tokenApi, htok, haccept, Option.map_some]

/-- What the positions of a reachable state determine. -/
structure PositionsExact (windowSize maxSeq : Nat) (s : Session WrappedSlidingWindowDetector)
    (g : Positions) : Prop where
  /-- The head is its initial value plus its position, up to whole laps. -/
  latest : ((maxSeq + 1 : Nat) : Int) ∣ s.detector.latestSeq - (g.start + g.head)
  /-- The mask is the window of accepted positions. -/
  bits : ∀ i, i < windowSize →
    ∃ b, s.detector.mask.bit i = some b ∧ (b ≠ 0 ↔ g.Taken (g.head - i))
  /-- A check passes ahead of the head, or at a free position of the window. -/
  check : ∀ seq, ∃ d' ok, s.detector.checkToken seq = some (d', ⟨seq, ok⟩) ∧
    (ok = true ↔ seq ≤ maxSeq ∧ (d'.diff seq < 0 ∨
      (d'.diff seq < windowSize ∧ ¬ g.Taken (g.head - d'.diff seq))))
  /-- `Accept` reports whether it moved the head. -/
  accept : ∀ issued tok, s.tokens[issued]? = some tok →
    ∃ d' latest, s.detector.accept tok = some (d', latest) ∧
      (latest = true ↔ d'.latestSeq ≠ s.detector.latestSeq) ∧
      (latest = true ↔ (g.record s (.accept issued)).head ≠ g.head)
  /-- An accepted number is rejected until its position leaves the window. -/
  replayed : ∀ seq p, (seq, p) ∈ g.accepted → g.head - p < windowSize →
    ∃ d', s.detector.checkToken seq = some (d', rejectedToken seq)

/-- The invariant determines every observable of the state. -/
theorem LocatedSession.exact (hs : LocatedSession windowSize maxSeq s g) (hmax : maxSeq < 2 ^ 63)
    (hw : windowSize ≤ maxSeq / 2) : PositionsExact windowSize maxSeq s g := by
  refine ⟨hs.located.congr, fun i hi => hs.located.bit_spec hi, ?_, ?_, ?_⟩
  · intro seq
    obtain ⟨d', ok, hcheck, hok, -⟩ := hs.checkToken_spec hmax hw seq
    exact ⟨d', ok, hcheck, hok⟩
  · intro issued tok htok
    obtain ⟨d', latest, haccept, hmoved, hhead, -⟩ := hs.accept_spec hmax htok
    exact ⟨d', latest, haccept, hmoved, hhead⟩
  · intro seq p hmem hp
    obtain ⟨d', ok, hcheck, hok, hsame, -⟩ := hs.checkToken_spec hmax hw seq
    have hinit : s.detector.init = true := by
      by_contra hfresh
      rw [(hs.located.fresh (Bool.eq_false_of_not_eq_true hfresh)).2] at hmem
      cases hmem
    have hdiff := hs.located.diff_accepted hmax hw hmem hp
    have hbehind := hs.located.behind p ⟨_, hmem, rfl⟩
    obtain rfl := hsame hinit
    refine ⟨s.detector, ?_⟩
    rw [hcheck]
    cases ok with
    | false => rfl
    | true =>
      obtain ⟨-, hneg | ⟨-, hfree⟩⟩ := hok.mp rfl
      · rw [hdiff] at hneg
        omega
      · rw [hdiff, show g.head - (g.head - p) = p by omega] at hfree
        exact absurd ⟨_, hmem, rfl⟩ hfree

/-- Every run of the wrapping detector succeeds, and its state is determined by the unwrapped
positions of the accepted numbers. -/
theorem run_positionsExact (hmax : maxSeq < 2 ^ 63) (hw : windowSize ≤ maxSeq / 2)
    (calls : List Call) :
    ∃ s g replies,
      run tokenApi.step ⟨withWrap windowSize maxSeq, []⟩ calls = some (s, replies) ∧
      run (observe tokenApi.step Positions.record)
        (⟨withWrap windowSize maxSeq, []⟩, ⟨0, 0, []⟩) calls = some ((s, g), replies) ∧
      PositionsExact windowSize maxSeq s g := by
  have hnew : LocatedSession windowSize maxSeq ⟨withWrap windowSize maxSeq, []⟩ ⟨0, 0, []⟩ :=
    ⟨located_withWrap (by omega) maxSeq, by simp⟩
  obtain ⟨⟨s, g⟩, replies, hrun, hs⟩ :=
    run_keeps (LocatedSession.step_spec hmax hw) calls
      (s := (⟨withWrap windowSize maxSeq, []⟩, ⟨0, 0, []⟩)) hnew
  exact ⟨s, g, replies, run_of_observe hrun, hrun, hs.exact hmax hw⟩

/-- The hypotheses hold for a 16-bit counter with a window of 64. -/
theorem run_positionsExact_window64 :
    ∃ s g replies,
      run tokenApi.step ⟨withWrap 64 65535, []⟩
        [.checkSeq 65535, .accept 0, .checkSeq 0, .accept 1, .accept 0] = some (s, replies) ∧
      run (observe tokenApi.step Positions.record) (⟨withWrap 64 65535, []⟩, ⟨0, 0, []⟩)
        [.checkSeq 65535, .accept 0, .checkSeq 0, .accept 1, .accept 0] =
          some ((s, g), replies) ∧
      PositionsExact 64 65535 s g :=
  run_positionsExact (by decide) (by decide) _

end PionTransport.Replay
