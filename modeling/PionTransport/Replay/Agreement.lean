import PionTransport.Replay.Sliding
import PionTransport.Replay.Wrapped

/-!
# The two detectors on numbers less than half the range apart

Fed with numbers that stay close together, both detectors keep the same head
and the same mask once the first number was accepted, so the wrapping detector
is the twin of the non-wrapping one. This needs a window in the signed range
and a limit of at least four: below that, `diff` measures the successor of the
head as behind it.
-/

namespace PionTransport.Replay

open PionTransport.Core

/-- One number through the non-wrapping detector. -/
theorem SlidingWindowDetector.take_eq (d : SlidingWindowDetector) (seq : Nat) :
    tokenApi.take d seq = (d.checkSeq seq).bind fun ok =>
      if ok then (d.acceptSeq seq).map fun r => (r.1, (true, r.2))
      else some (d, (false, false)) := by
  have hcheck : tokenApi.checkSeq d seq = (d.checkSeq seq).map fun ok => (d, ⟨seq, ok⟩) := by
    simp only [tokenApi, checkToken]
    cases d.checkSeq seq with
    | none => rfl
    | some ok => cases ok <;> rfl
  cases hseq : d.checkSeq seq with
  | none =>
    rw [hseq, Option.map_none] at hcheck
    rw [CheckAccepter.take_of_none hcheck, Option.bind_none]
  | some ok =>
    rw [hseq, Option.map_some] at hcheck
    rw [CheckAccepter.take_of_some hcheck, Option.bind_some]
    cases ok <;> rfl

/-- For numbers accepted right away, tokens and closures of the non-wrapping detector agree. -/
theorem SlidingWindowDetector.take_closure (d : SlidingWindowDetector) (seq : Nat) :
    closureApi.take d seq = tokenApi.take d seq := by
  rw [take_eq]
  cases hseq : d.checkSeq seq with
  | none =>
    have hcheck : closureApi.check d seq = none := by simp [closureApi, check, hseq]
    rw [ReplayDetector.take_of_none hcheck, Option.bind_none]
  | some ok =>
    cases ok with
    | false =>
      have hcheck : closureApi.check d seq = some (d, nop, false) := by
        simp [closureApi, check, hseq]
      rw [ReplayDetector.take_of_some hcheck]
      rfl
    | true =>
      have hcheck : closureApi.check d seq = some (d, fun d => d.acceptSeq seq, true) := by
        simp [closureApi, check, hseq]
      rw [ReplayDetector.take_of_some hcheck]
      rfl

theorem SlidingWindowDetector.take_of_gt {d : SlidingWindowDetector} {seq : Nat}
    (hseq : seq > d.maxSeq) : tokenApi.take d seq = some (d, (false, false)) := by
  rw [take_eq, checkSeq, if_pos hseq]
  rfl

namespace WrappedSlidingWindowDetector

/-- Accepting a passed token computes its distance anew. -/
theorem accept_of_passed (d : WrappedSlidingWindowDetector) (tok : Token)
    (h : tok.passed = true) : d.accept tok = d.acceptDiff tok.seq (d.diff tok.seq) := by
  rw [accept, h]
  exact if_neg (by decide)

theorem accept_passed (d : WrappedSlidingWindowDetector) (seq : Nat) :
    d.accept ⟨seq, true⟩ = d.acceptDiff seq (d.diff seq) :=
  d.accept_of_passed ⟨seq, true⟩ rfl

/-- A number out of range is rejected without any effect. -/
theorem take_of_gt {d : WrappedSlidingWindowDetector} {seq : Nat} (hseq : seq > d.maxSeq) :
    tokenApi.take d seq = some (d, (false, false)) := by
  have hcheck : tokenApi.checkSeq d seq = some (d, ⟨seq, false⟩) := by
    simp only [tokenApi]
    rw [checkToken_eq, if_pos hseq]
  rw [CheckAccepter.take_of_some hcheck]
  rfl

/-- One number in range through the wrapping detector. -/
theorem take_eq {d : WrappedSlidingWindowDetector} {seq : Nat} (hseq : ¬ seq > d.maxSeq) :
    tokenApi.take d seq =
      ((d.initHead seq).judge ((d.initHead seq).diff seq)).bind fun ok =>
        if ok then ((d.initHead seq).acceptDiff seq ((d.initHead seq).diff seq)).map
          fun r => (r.1, (true, r.2))
        else some (d.initHead seq, (false, false)) := by
  have hcheck : tokenApi.checkSeq d seq =
      ((d.initHead seq).judge ((d.initHead seq).diff seq)).map
        fun ok => (d.initHead seq, ⟨seq, ok⟩) := by
    simp only [tokenApi]
    rw [checkToken_eq, if_neg hseq]
  cases hjudge : (d.initHead seq).judge ((d.initHead seq).diff seq) with
  | none =>
    rw [hjudge, Option.map_none] at hcheck
    rw [CheckAccepter.take_of_none hcheck, Option.bind_none]
  | some ok =>
    rw [hjudge, Option.map_some] at hcheck
    rw [CheckAccepter.take_of_some hcheck, Option.bind_some]
    cases ok with
    | false => rfl
    | true =>
      simp only [tokenApi]
      rw [accept_passed, if_pos trivial]

/-- For numbers accepted right away, the distance of the check is that of the accept. -/
theorem take_closure (d : WrappedSlidingWindowDetector) (seq : Nat) :
    closureApi.take d seq = tokenApi.take d seq := by
  by_cases hseq : seq > d.maxSeq
  · have hcheck : closureApi.check d seq = some (d, nop, false) := by
      simp [closureApi, check, checkSeq, hseq]
    rw [take_of_gt hseq, ReplayDetector.take_of_some hcheck]
    rfl
  · rw [take_eq hseq]
    cases hjudge : (d.initHead seq).judge ((d.initHead seq).diff seq) with
    | none =>
      have hcheck : closureApi.check d seq = none := by
        simp [closureApi, check, checkSeq, hseq, hjudge]
      rw [ReplayDetector.take_of_none hcheck, Option.bind_none]
    | some ok =>
      cases ok with
      | false =>
        have hcheck : closureApi.check d seq = some (d.initHead seq, nop, false) := by
          simp [closureApi, check, checkSeq, hseq, hjudge]
        rw [ReplayDetector.take_of_some hcheck]
        rfl
      | true =>
        have hcheck : closureApi.check d seq = some (d.initHead seq,
            fun e => e.acceptDiff seq ((d.initHead seq).diff seq), true) := by
          simp [closureApi, check, checkSeq, hseq, hjudge]
        rw [ReplayDetector.take_of_some hcheck, Option.bind_some, if_pos rfl]

end WrappedSlidingWindowDetector

/-- The wrapping detector with the same window. -/
def SlidingWindowDetector.twin (d : SlidingWindowDetector) : WrappedSlidingWindowDetector :=
  ⟨d.latestSeq, d.maxSeq, d.windowSize, d.mask, true⟩

/-- The state after some number was accepted: the head is in range and marked. -/
structure Marked (windowSize maxSeq : Nat) (d : SlidingWindowDetector) : Prop where
  maxSeq_eq : d.maxSeq = maxSeq
  windowSize_eq : d.windowSize = windowSize
  latest_le : d.latestSeq ≤ maxSeq
  valid : d.mask.Valid
  width : d.mask.n = windowSize
  head : d.mask.testBit 0 = true

/-- Two numbers less than half the range apart. -/
def Near (maxSeq a b : Nat) : Prop := a - b < maxSeq / 2 ∧ b - a < maxSeq / 2

variable {windowSize maxSeq : Nat} {d : SlidingWindowDetector} {seq : Nat}

/-- Near the head, the wrapped distance is the plain difference. -/
theorem Marked.diff_eq (hm : Marked windowSize maxSeq d) (hmax : maxSeq < 2 ^ 63)
    (hseq : seq ≤ maxSeq) (hnear : Near maxSeq d.latestSeq seq) :
    d.twin.diff seq = (d.latestSeq : Int) - seq := by
  have hdiff : d.twin.diff seq = wrapDistance d.maxSeq d.latestSeq seq :=
    WrappedSlidingWindowDetector.diff_eq (d := d.twin) (by rw [← hm.maxSeq_eq] at hmax; exact hmax)
      (by have := hm.latest_le; rw [← hm.maxSeq_eq] at this; exact this)
      (by rw [← hm.maxSeq_eq] at hseq; exact hseq)
  obtain ⟨hahead, hbehind⟩ := hnear
  rw [hdiff, hm.maxSeq_eq]
  unfold wrapDistance
  rw [if_neg (by omega), if_neg (by omega)]

/-- Near the head, both detectors read the same bit of the mask. -/
theorem Marked.judge_eq (hm : Marked windowSize maxSeq d) (hw : windowSize < 2 ^ 63)
    (hseq : seq ≤ maxSeq) :
    d.twin.judge ((d.latestSeq : Int) - seq) = d.checkSeq seq := by
  have hin : ¬ seq > d.maxSeq := by
    rw [hm.maxSeq_eq]
    exact Nat.not_lt.mpr hseq
  have hwindow : int64 d.twin.windowSize = d.windowSize := by
    have hsame : d.twin.windowSize = d.windowSize := rfl
    rw [hsame, hm.windowSize_eq]
    exact int64_eq (by omega) (by omega)
  rw [WrappedSlidingWindowDetector.judge, hwindow, SlidingWindowDetector.checkSeq, if_neg hin]
  by_cases hle : seq ≤ d.latestSeq
  · have hcast : (d.latestSeq : Int) - seq = ((d.latestSeq - seq : Nat) : Int) := by omega
    rw [hcast, if_pos hle]
    by_cases hold : d.latestSeq - seq ≥ d.windowSize
    · rw [if_pos (Int.ofNat_le.mpr hold), if_pos hold]
    · have hlt : d.latestSeq - seq < windowSize := by
        rw [← hm.windowSize_eq]
        exact Nat.lt_of_not_le hold
      have hword : uint64 ((d.latestSeq - seq : Nat) : Int) = d.latestSeq - seq :=
        uint64_eq (by omega)
      rw [if_neg (fun h => hold (Int.ofNat_le.mp h)), if_neg hold,
        if_pos (Int.natCast_nonneg _), hword]
      rfl
  · have hneg : (d.latestSeq : Int) - seq < 0 := by omega
    rw [if_neg hle, if_neg (by omega), if_neg (by omega)]

/-- Near the head, both detectors make the same update when they accept. -/
theorem Marked.accept_twin (hm : Marked windowSize maxSeq d) (hmax : maxSeq < 2 ^ 63)
    (hw : 1 ≤ windowSize) (hseq : seq ≤ maxSeq) (hnear : Near maxSeq d.latestSeq seq) :
    ∃ d' latest, d.acceptSeq seq = some (d', latest) ∧
      d.twin.acceptDiff seq ((d.latestSeq : Int) - seq) = some (d'.twin, latest) ∧
      Marked windowSize maxSeq d' ∧ (d'.latestSeq = d.latestSeq ∨ d'.latestSeq = seq) := by
  obtain ⟨hahead, hbehind⟩ := hnear
  have hpos : ¬ d.maxSeq = 0 := by
    rw [hm.maxSeq_eq]
    omega
  have hlatest := hm.latest_le
  by_cases hnew : seq > d.latestSeq
  · have hword : uint64 (int64 (-((d.latestSeq : Int) - seq))) = seq - d.latestSeq := by
      rw [show -((d.latestSeq : Int) - seq) = ((seq - d.latestSeq : Nat) : Int) by omega,
        int64_eq (by omega) (by omega), uint64_eq (by omega)]
    have hne : ¬ (seq = 0 ∧ d.latestSeq = 0) := by omega
    obtain ⟨hvalid, hwidth, -⟩ := hm.valid.lsh_spec (min (seq - d.latestSeq) d.windowSize)
    obtain ⟨mask, hset, hvalid', hwidth', htest⟩ := hvalid.setBit_spec 0
    refine ⟨{ d with mask := mask, latestSeq := seq }, true, ?_, ?_,
      ⟨hm.maxSeq_eq, hm.windowSize_eq, hseq, hvalid', hwidth'.trans (hwidth.trans hm.width), ?_⟩,
      Or.inr rfl⟩
    · simp only [SlidingWindowDetector.acceptSeq, hne, hnew, ite_true, ite_false, hpos,
        Nat.sub_self, Nat.zero_mod, hset, Option.bind_eq_bind, Option.bind_some, Option.pure_def]
    · rw [WrappedSlidingWindowDetector.acceptDiff, if_pos (by omega), hword]
      simp only [SlidingWindowDetector.twin, hset, Option.bind_eq_bind, Option.bind_some,
        Option.pure_def]
    · have hin : 0 < (d.mask.lsh (min (seq - d.latestSeq) d.windowSize)).n := by
        rw [hwidth, hm.width]
        exact hw
      rw [htest, decide_eq_true ⟨rfl, hin⟩, Bool.or_true]
  · have hle : seq ≤ d.latestSeq := Nat.le_of_not_lt hnew
    have hword : uint64 ((d.latestSeq : Int) - seq) = d.latestSeq - seq := by
      rw [show (d.latestSeq : Int) - seq = ((d.latestSeq - seq : Nat) : Int) by omega,
        uint64_eq (by omega)]
    have hmod : (d.latestSeq - seq) % d.maxSeq = d.latestSeq - seq := by
      rw [hm.maxSeq_eq]
      exact Nat.mod_eq_of_lt (by omega)
    have hfirst : (if seq = 0 ∧ d.latestSeq = 0 then
        (d.mask.bit 0).map fun b => decide (b = 0) else some false) = some false := by
      rw [hm.valid.bit_eq, hm.head]
      split <;> rfl
    obtain ⟨mask, hset, hvalid', hwidth', htest⟩ := hm.valid.setBit_spec (d.latestSeq - seq)
    refine ⟨{ d with mask := mask }, false, ?_, ?_,
      ⟨hm.maxSeq_eq, hm.windowSize_eq, hlatest, hvalid', hwidth'.trans hm.width, ?_⟩, Or.inl rfl⟩
    · simp only [SlidingWindowDetector.acceptSeq, hfirst, hnew, ite_false, hpos, hmod, hset,
        Option.bind_eq_bind, Option.bind_some, Option.pure_def]
    · rw [WrappedSlidingWindowDetector.acceptDiff, if_neg (by omega), hword]
      simp only [SlidingWindowDetector.twin, hset, Option.bind_eq_bind, Option.bind_some,
        Option.pure_def]
    · rw [htest, hm.head, Bool.true_or]

/-- One number near the head or out of range: same outcome, and the states stay twins. -/
theorem Marked.take_twin (hm : Marked windowSize maxSeq d) (hmax : maxSeq < 2 ^ 63)
    (hw : 1 ≤ windowSize) (hw' : windowSize < 2 ^ 63)
    (hnear : seq ≤ maxSeq → Near maxSeq d.latestSeq seq) :
    ∃ d' out, SlidingWindowDetector.tokenApi.take d seq = some (d', out) ∧
      WrappedSlidingWindowDetector.tokenApi.take d.twin seq = some (d'.twin, out) ∧
      Marked windowSize maxSeq d' ∧
      (d'.latestSeq = d.latestSeq ∨ seq ≤ maxSeq ∧ d'.latestSeq = seq) := by
  by_cases hin : seq > d.twin.maxSeq
  · exact ⟨d, (false, false), SlidingWindowDetector.take_of_gt hin,
      WrappedSlidingWindowDetector.take_of_gt hin, hm, .inl rfl⟩
  have hseq : seq ≤ maxSeq := hm.maxSeq_eq ▸ Nat.le_of_not_lt hin
  have hinit : d.twin.initHead seq = d.twin := rfl
  obtain ⟨d', latest, haccept, htwin, hm', hlatest⟩ := hm.accept_twin hmax hw hseq (hnear hseq)
  have hcheck : ∃ ok, d.checkSeq seq = some ok := by
    unfold SlidingWindowDetector.checkSeq
    rw [hm.valid.bit_eq]
    split
    · exact ⟨_, rfl⟩
    · split
      · split
        · exact ⟨_, rfl⟩
        · exact ⟨_, rfl⟩
      · exact ⟨_, rfl⟩
  obtain ⟨ok, hok⟩ := hcheck
  rw [SlidingWindowDetector.take_eq, WrappedSlidingWindowDetector.take_eq hin, hinit,
    hm.diff_eq hmax hseq (hnear hseq), hm.judge_eq hw' hseq, hok, htwin, haccept]
  cases ok with
  | false => exact ⟨d, (false, false), rfl, rfl, hm, .inl rfl⟩
  | true => exact ⟨d', (true, latest), rfl, rfl, hm', hlatest.imp_right fun he => ⟨hseq, he⟩⟩

/-- The distance of a first number in a new wrapping detector. -/
theorem diff_first (windowSize : Nat) (hmax : maxSeq < 2 ^ 63) (hseq : seq ≤ maxSeq) :
    ((WrappedSlidingWindowDetector.withWrap windowSize maxSeq).initHead seq).diff seq =
      wrapDistance maxSeq (WrappedSlidingWindowDetector.startHead maxSeq seq) seq := by
  have hhead := WrappedSlidingWindowDetector.startHead_le hseq
  exact WrappedSlidingWindowDetector.diff_eq
    (d := (WrappedSlidingWindowDetector.withWrap windowSize maxSeq).initHead seq) hmax hhead hseq

/-- The first number in range passes both detectors, is the latest, and leaves them twins. -/
theorem take_first (hmax : maxSeq < 2 ^ 63) (h4 : 4 ≤ maxSeq) (hw : 1 ≤ windowSize)
    (hw' : windowSize < 2 ^ 63) (hseq : seq ≤ maxSeq) :
    ∃ d', SlidingWindowDetector.tokenApi.take (SlidingWindowDetector.new windowSize maxSeq) seq =
        some (d', (true, true)) ∧
      WrappedSlidingWindowDetector.tokenApi.take
          (WrappedSlidingWindowDetector.withWrap windowSize maxSeq) seq =
        some (d'.twin, (true, true)) ∧
      Marked windowSize maxSeq d' ∧ d'.latestSeq = seq := by
  obtain ⟨hvalid, hzero⟩ := newFixedBigInt_valid (n := windowSize) (by omega)
  obtain ⟨mask, hset, hvalid', hwidth, htest⟩ := hvalid.setBit_spec 0
  have hbit : (newFixedBigInt windowSize).bit 0 = some 0 := by
    rw [hvalid.bit_eq, hzero]
    rfl
  have hmark : mask.testBit 0 = true := by
    have hin : 0 < (newFixedBigInt windowSize).n := hw
    rw [htest]
    simp [hin]
  refine ⟨⟨seq, maxSeq, windowSize, mask⟩, ?_, ?_, ⟨rfl, rfl, hseq, hvalid', hwidth, hmark⟩, rfl⟩
  · have hmod : ¬ maxSeq = 0 := by omega
    have hwindow : ¬ windowSize = 0 := by omega
    have hin : ¬ maxSeq < seq := Nat.not_lt.mpr hseq
    rw [SlidingWindowDetector.take_eq]
    by_cases hpos : seq = 0
    · simp [SlidingWindowDetector.checkSeq, SlidingWindowDetector.acceptSeq,
        SlidingWindowDetector.new, hpos, hbit, hset, hmod, hwindow]
    · have hgt : 0 < seq := Nat.pos_of_ne_zero hpos
      simp [SlidingWindowDetector.checkSeq, SlidingWindowDetector.acceptSeq,
        SlidingWindowDetector.new, hpos, hin, hgt, hset, hmod, lsh_newFixedBigInt]
  · have hin : ¬ seq > (WrappedSlidingWindowDetector.withWrap windowSize maxSeq).maxSeq :=
      Nat.not_lt.mpr hseq
    have hhead : (WrappedSlidingWindowDetector.withWrap windowSize maxSeq).initHead seq =
        ⟨WrappedSlidingWindowDetector.startHead maxSeq seq, maxSeq, windowSize,
          newFixedBigInt windowSize, true⟩ := rfl
    have hone : uint64 (int64 (- -1)) = 1 := by decide
    have hwindow : int64 windowSize = windowSize := int64_eq (by omega) (by omega)
    rw [WrappedSlidingWindowDetector.take_eq hin, diff_first windowSize hmax hseq,
      wrapDistance_startHead h4, hhead, WrappedSlidingWindowDetector.judge,
      WrappedSlidingWindowDetector.acceptDiff, hone]
    simp only [hwindow, lsh_newFixedBigInt, hset]
    rw [if_neg (by omega), if_neg (by decide), if_pos (by decide)]
    rfl

/-- Numbers in range are pairwise near each other. -/
def Close (maxSeq : Nat) (seqs : List Nat) : Prop :=
  (seqs.filter (fun seq => decide (seq ≤ maxSeq))).Pairwise (Near maxSeq)

/-- The first of close numbers is near the others. -/
theorem Close.cons {seqs : List Nat} (h : Close maxSeq (seq :: seqs)) :
    Close maxSeq seqs ∧ (seq ≤ maxSeq → ∀ a ∈ seqs, a ≤ maxSeq → Near maxSeq seq a) := by
  by_cases hseq : seq ≤ maxSeq
  · rw [Close, List.filter_cons_of_pos (by simpa using hseq), List.pairwise_cons] at h
    exact ⟨h.2, fun _ a ha hle => h.1 a (List.mem_filter.mpr ⟨ha, by simpa using hle⟩)⟩
  · rw [Close, List.filter_cons_of_neg (by simpa using hseq)] at h
    exact ⟨h, fun hle => absurd hle hseq⟩

/-- From twin states, a close list has the same outcomes. -/
theorem Marked.run_twin (hmax : maxSeq < 2 ^ 63) (hw : 1 ≤ windowSize) (hw' : windowSize < 2 ^ 63)
    {seqs : List Nat} (hm : Marked windowSize maxSeq d) (hclose : Close maxSeq seqs)
    (hnear : ∀ a ∈ seqs, a ≤ maxSeq → Near maxSeq d.latestSeq a) :
    ∃ d' outs, run SlidingWindowDetector.tokenApi.take d seqs = some (d', outs) ∧
      run WrappedSlidingWindowDetector.tokenApi.take d.twin seqs = some (d'.twin, outs) := by
  induction seqs generalizing d with
  | nil => exact ⟨d, [], rfl, rfl⟩
  | cons seq seqs ih =>
    obtain ⟨hrest, hfirst⟩ := hclose.cons
    obtain ⟨d₁, out, htake, htwin, hm₁, hlatest⟩ := hm.take_twin hmax hw hw'
      (hnear seq List.mem_cons_self)
    have hnear₁ : ∀ a ∈ seqs, a ≤ maxSeq → Near maxSeq d₁.latestSeq a := by
      rcases hlatest with he | ⟨hseq, he⟩
      · rw [he]
        exact fun a ha => hnear a (List.mem_cons_of_mem seq ha)
      · rw [he]
        exact hfirst hseq
    obtain ⟨d', outs, hrun, hrun'⟩ := ih hm₁ hrest hnear₁
    exact ⟨d', out :: outs, run_cons_some htake hrun, run_cons_some htwin hrun'⟩

/-- From new detectors, a close list has the same outcomes. -/
theorem run_new_eq (hmax : maxSeq < 2 ^ 63) (h4 : 4 ≤ maxSeq) (hw : 1 ≤ windowSize)
    (hw' : windowSize < 2 ^ 63) {seqs : List Nat} (hclose : Close maxSeq seqs) :
    ∃ d' e' outs,
      run SlidingWindowDetector.tokenApi.take (SlidingWindowDetector.new windowSize maxSeq) seqs =
        some (d', outs) ∧
      run WrappedSlidingWindowDetector.tokenApi.take
        (WrappedSlidingWindowDetector.withWrap windowSize maxSeq) seqs = some (e', outs) := by
  induction seqs with
  | nil => exact ⟨_, _, [], rfl, rfl⟩
  | cons seq seqs ih =>
    obtain ⟨hrest, hfirst⟩ := hclose.cons
    by_cases hseq : seq ≤ maxSeq
    · obtain ⟨d₁, htake, htwin, hm, hlatest⟩ := take_first hmax h4 hw hw' hseq
      obtain ⟨d', outs, hrun, hrun'⟩ := hm.run_twin hmax hw hw' hrest (hlatest ▸ hfirst hseq)
      exact ⟨d', d'.twin, _, run_cons_some htake hrun, run_cons_some htwin hrun'⟩
    · have hgt : seq > maxSeq := Nat.lt_of_not_le hseq
      obtain ⟨d', e', outs, hrun, hrun'⟩ := ih hrest
      exact ⟨d', e', _, run_cons_some (SlidingWindowDetector.take_of_gt hgt) hrun,
        run_cons_some (WrappedSlidingWindowDetector.take_of_gt hgt) hrun'⟩

/-- Both detectors, through both interfaces, have the same verdicts and the same results of
accepting on every list of close numbers. -/
def Agree (windowSize maxSeq : Nat) : Prop :=
  ∀ seqs, Close maxSeq seqs → ∃ outs,
    (run SlidingWindowDetector.tokenApi.take
      (SlidingWindowDetector.new windowSize maxSeq) seqs).map Prod.snd = some outs ∧
    (run SlidingWindowDetector.closureApi.take
      (SlidingWindowDetector.new windowSize maxSeq) seqs).map Prod.snd = some outs ∧
    (run WrappedSlidingWindowDetector.tokenApi.take
      (WrappedSlidingWindowDetector.withWrap windowSize maxSeq) seqs).map Prod.snd = some outs ∧
    (run WrappedSlidingWindowDetector.closureApi.take
      (WrappedSlidingWindowDetector.withWrap windowSize maxSeq) seqs).map Prod.snd = some outs

theorem agree_of_le (hmax : maxSeq < 2 ^ 63) (h4 : 4 ≤ maxSeq) (hw : 1 ≤ windowSize)
    (hw' : windowSize < 2 ^ 63) : Agree windowSize maxSeq := by
  intro seqs hclose
  obtain ⟨d', e', outs, hnew, hwrap⟩ := run_new_eq hmax h4 hw hw' hclose
  have hsliding : SlidingWindowDetector.closureApi.take = SlidingWindowDetector.tokenApi.take :=
    funext fun d => funext d.take_closure
  have hwrapped : WrappedSlidingWindowDetector.closureApi.take =
      WrappedSlidingWindowDetector.tokenApi.take := funext fun d => funext d.take_closure
  rw [hsliding, hwrapped, hnew, hwrap]
  exact ⟨outs, rfl, rfl, rfl, rfl⟩

/-- The head bit of a new mask can be read and set, whatever its word count. -/
theorem newFixedBigInt_head (n : Nat) :
    (newFixedBigInt n).bit 0 = some 0 ∧ ∃ mask, (newFixedBigInt n).setBit 0 = some mask := by
  have hword : (newFixedBigInt n).bits[0]? = some 0 := by
    simp only [newFixedBigInt, List.getElem?_replicate]
    rw [if_pos (by omega)]
  unfold FixedBigInt.bit FixedBigInt.setBit
  split
  · exact ⟨rfl, _, rfl⟩
  · simp only [Nat.zero_div, hword]
    exact ⟨rfl, _, rfl⟩

/-- Number one is always the latest of a new non-wrapping detector. -/
theorem new_take_one (windowSize : Nat) (hpos : 1 ≤ maxSeq) :
    ∃ d', SlidingWindowDetector.tokenApi.take (SlidingWindowDetector.new windowSize maxSeq) 1 =
      some (d', (true, true)) := by
  obtain ⟨-, mask, hset⟩ := newFixedBigInt_head windowSize
  have hin : ¬ maxSeq < 1 := Nat.not_lt.mpr hpos
  have hmod : ¬ maxSeq = 0 := by omega
  rw [SlidingWindowDetector.take_eq]
  simp [SlidingWindowDetector.checkSeq, SlidingWindowDetector.acceptSeq,
    SlidingWindowDetector.new, hin, hmod, hset, lsh_newFixedBigInt]

/-- Without a limit, accepting number zero divides by zero. -/
theorem new_take_zero (hw : 1 ≤ windowSize) :
    SlidingWindowDetector.tokenApi.take (SlidingWindowDetector.new windowSize 0) 0 = none := by
  obtain ⟨hbit, -⟩ := newFixedBigInt_head windowSize
  have hwindow : ¬ windowSize = 0 := by omega
  rw [SlidingWindowDetector.take_eq]
  simp [SlidingWindowDetector.checkSeq, SlidingWindowDetector.acceptSeq,
    SlidingWindowDetector.new, hbit, hwindow]

/-- A number measured behind the head is not reported as the latest. -/
theorem WrappedSlidingWindowDetector.acceptDiff_behind {e e' : WrappedSlidingWindowDetector}
    {diff : Int} {latest : Bool} (hdiff : 0 ≤ diff)
    (h : e.acceptDiff seq diff = some (e', latest)) : latest = false := by
  rw [acceptDiff, if_neg (Int.not_lt.mpr hdiff)] at h
  obtain ⟨mask, -, he⟩ := Option.bind_eq_some_iff.mp h
  exact (Prod.mk.inj (Option.some.inj he)).2.symm

/-- Below limit four, the successor of head zero is measured a whole range behind it. -/
theorem wrapDistance_one (maxSeq : Nat) :
    (maxSeq < 4 → wrapDistance maxSeq (WrappedSlidingWindowDetector.startHead maxSeq 1) 1 =
      maxSeq) ∧
      -1 ≤ wrapDistance maxSeq (WrappedSlidingWindowDetector.startHead maxSeq 1) 1 := by
  have hhead : WrappedSlidingWindowDetector.startHead maxSeq 1 = 0 := rfl
  rw [hhead]
  unfold wrapDistance
  constructor
  · intro hsmall
    rw [if_neg (by omega), if_pos (by omega)]
    omega
  · split_ifs <;> omega

/-- With a small limit or a window beyond the signed range, number one is not the latest of a
new wrapping detector. -/
theorem withWrap_take_one (hmax : maxSeq < 2 ^ 63) (hpos : 1 ≤ maxSeq) (hword : windowSize < 2 ^ 64)
    (hbad : maxSeq < 4 ∨ 2 ^ 63 ≤ windowSize) {e' : WrappedSlidingWindowDetector} {ok latest : Bool}
    (htake : WrappedSlidingWindowDetector.tokenApi.take
      (WrappedSlidingWindowDetector.withWrap windowSize maxSeq) 1 = some (e', (ok, latest))) :
    latest = false := by
  have hin : ¬ 1 > (WrappedSlidingWindowDetector.withWrap windowSize maxSeq).maxSeq :=
    Nat.not_lt.mpr hpos
  have hwindow : ((WrappedSlidingWindowDetector.withWrap windowSize maxSeq).initHead 1).windowSize =
    windowSize := rfl
  have hone := wrapDistance_one maxSeq
  rw [WrappedSlidingWindowDetector.take_eq hin, diff_first windowSize hmax hpos] at htake
  obtain ⟨pass, hjudge, hrest⟩ := Option.bind_eq_some_iff.mp htake
  cases pass with
  | false =>
    simp only [Bool.false_eq_true, ite_false, Option.some.injEq, Prod.mk.injEq] at hrest
    exact hrest.2.2.symm
  | true =>
    obtain ⟨r, haccept, he⟩ := Option.map_eq_some_iff.mp (by simpa only [ite_true] using hrest)
    simp only [Prod.mk.injEq] at he
    rw [← he.2.2]
    refine WrappedSlidingWindowDetector.acceptDiff_behind ?_ haccept
    rcases hbad with hsmall | hlarge
    · rw [hone.1 hsmall]
      exact Int.natCast_nonneg maxSeq
    · exfalso
      have hnegative := int64_neg hlarge hword
      rw [WrappedSlidingWindowDetector.judge, hwindow, if_pos (by omega)] at hjudge
      cases hjudge

/-- A single number is close to itself. -/
theorem close_singleton (maxSeq seq : Nat) : Close maxSeq [seq] := by
  unfold Close
  by_cases hseq : seq ≤ maxSeq <;> simp [hseq]

/-- A configuration outside the range disagrees on a single number. -/
theorem not_agree_of_lt (hmax : maxSeq < 2 ^ 63) (hw : 1 ≤ windowSize)
    (hword : windowSize < 2 ^ 64) (hbad : maxSeq < 4 ∨ 2 ^ 63 ≤ windowSize) :
    ¬ Agree windowSize maxSeq := by
  intro hagree
  by_cases hpos : 1 ≤ maxSeq
  · obtain ⟨outs, hnew, -, hwrap, -⟩ := hagree [1] (close_singleton maxSeq 1)
    obtain ⟨d', htake⟩ := new_take_one windowSize hpos
    rw [run_cons htake] at hnew
    obtain rfl := Option.some.inj hnew
    obtain ⟨⟨e', outs⟩, hrun, houts⟩ := Option.map_eq_some_iff.mp hwrap
    obtain ⟨e₁, ⟨ok, latest⟩, outs', hstep, -, rfl⟩ := run_cons_inv hrun
    have hlatest := withWrap_take_one hmax hpos hword hbad hstep
    simp only [List.cons.injEq, Prod.mk.injEq] at houts
    rw [houts.1.2] at hlatest
    cases hlatest
  · obtain rfl : maxSeq = 0 := by omega
    obtain ⟨outs, hnew, -⟩ := hagree [0] (close_singleton 0 0)
    rw [run_cons_none (new_take_zero hw)] at hnew
    cases hnew

/-- The detectors agree on close numbers exactly for limits of at least four and windows in the
signed range. -/
theorem agree_iff (hmax : maxSeq < 2 ^ 63) (hw : 1 ≤ windowSize) (hword : windowSize < 2 ^ 64) :
    Agree windowSize maxSeq ↔ 4 ≤ maxSeq ∧ windowSize < 2 ^ 63 := by
  constructor
  · intro hagree
    by_contra hbad
    exact not_agree_of_lt hmax hw hword (by omega) hagree
  · rintro ⟨h4, hw'⟩
    exact agree_of_le hmax h4 hw hw'

/-- The detectors agree for a 16-bit counter with a window of 64. -/
theorem agree_window64 : Agree 64 65535 :=
  (agree_iff (by decide) (by decide) (by decide)).mpr (by decide)

/-- With limit 3 both detectors pass number one, but only the non-wrapping one calls it the
latest. -/
theorem limit_three_not_agree :
    (run SlidingWindowDetector.tokenApi.take (SlidingWindowDetector.new 64 3) [1]).map Prod.snd =
        some [(true, true)] ∧
      (run WrappedSlidingWindowDetector.tokenApi.take
        (WrappedSlidingWindowDetector.withWrap 64 3) [1]).map Prod.snd =
          some [(true, false)] ∧
      ¬ Agree 64 3 :=
  ⟨by decide +kernel, by decide +kernel,
    not_agree_of_lt (by decide) (by decide) (by decide) (Or.inl (by decide))⟩

end PionTransport.Replay
