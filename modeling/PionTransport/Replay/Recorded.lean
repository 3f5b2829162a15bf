import PionTransport.Replay.Sliding

/-!
# A number that has just passed is recorded

`Accept` reduces the distance behind the head modulo `maxSeq` before it marks the
number. The distance of a number that passed its check is at most `maxSeq`, and
it is `maxSeq` only for zero under a full head: then the remainder is zero, which
marks the head instead, or the division itself panics.
-/

namespace PionTransport.Replay

open PionTransport.Core

/-- A position that was read has a stored word. -/
theorem FixedBigInt.stored_of_bit {s : FixedBigInt} {i b : Nat} (hi : i < s.n)
    (hbit : s.bit i = some b) : i / 64 < s.bits.length := by
  simp only [FixedBigInt.bit, if_neg (Nat.not_le.mpr hi), Option.bind_eq_bind] at hbit
  obtain ⟨w, hw, -⟩ := Option.bind_eq_some_iff.mp hbit
  exact (List.getElem?_eq_some_iff.mp hw).1

@[simp] theorem FixedBigInt.n_lsh (s : FixedBigInt) (k : Nat) : (s.lsh k).n = s.n := by
  unfold FixedBigInt.lsh
  split <;> rfl

@[simp] theorem FixedBigInt.length_lsh (s : FixedBigInt) (k : Nat) :
    (s.lsh k).bits.length = s.bits.length := by
  unfold FixedBigInt.lsh
  split
  · rfl
  · simp only [List.length_set, length_lshLoop]

theorem FixedBigInt.setBit_shape {s s' : FixedBigInt} {i : Nat} (h : s.setBit i = some s') :
    s'.n = s.n ∧ s'.bits.length = s.bits.length := by
  unfold FixedBigInt.setBit at h
  split at h
  · cases h
    exact ⟨rfl, rfl⟩
  · obtain ⟨w, -, h⟩ := Option.bind_eq_some_iff.mp h
    cases h
    exact ⟨rfl, List.length_set⟩

namespace SlidingWindowDetector

/-- What every call keeps: the configuration, a mask of the width of the window with at least one
word, and a head in range. -/
structure Configured (windowSize maxSeq : Nat) (d : SlidingWindowDetector) : Prop where
  maxSeq_eq : d.maxSeq = maxSeq
  windowSize_eq : d.windowSize = windowSize
  width : d.mask.n = windowSize
  stored : 0 < d.mask.bits.length
  latest_le : d.latestSeq ≤ maxSeq

variable {windowSize maxSeq : Nat} {d d' : SlidingWindowDetector} {seq : Nat} {latest : Bool}

theorem configured_new (windowSize maxSeq : Nat) :
    (new windowSize maxSeq).Configured windowSize maxSeq where
  maxSeq_eq := rfl
  windowSize_eq := rfl
  width := rfl
  stored := by
    simp only [new, newFixedBigInt, List.length_replicate]
    omega
  latest_le := Nat.zero_le _

theorem le_maxSeq_of_checkSeq (h : d.checkSeq seq = some true) : seq ≤ d.maxSeq := by
  unfold checkSeq at h
  split at h
  · cases h
  · omega

/-- Accepting a number above the head moves the head there and marks it. -/
theorem acceptSeq_ahead (h : d.latestSeq < seq) (hmax : d.maxSeq ≠ 0) :
    d.acceptSeq seq = ((d.mask.lsh (min (seq - d.latestSeq) d.windowSize)).setBit 0).map
      fun mask => ({ d with mask := mask, latestSeq := seq }, true) := by
  have hfirst : ¬ (seq = 0 ∧ d.latestSeq = 0) := by omega
  simp only [acceptSeq, if_neg hfirst, gt_iff_lt, if_pos h, if_neg hmax, Nat.sub_self,
    Nat.zero_mod, Option.bind_eq_bind, Option.bind_some, Option.pure_def]
  cases (d.mask.lsh (min (seq - d.latestSeq) d.windowSize)).setBit 0 <;> rfl

/-- Accepting a number at or below the head marks the remainder of its distance. -/
theorem acceptSeq_behind (h : seq ≤ d.latestSeq) (hmax : d.maxSeq ≠ 0) :
    d.acceptSeq seq =
      (if seq = 0 ∧ d.latestSeq = 0 then (d.mask.bit 0).map fun b => decide (b = 0)
        else some false).bind fun latest =>
      (d.mask.setBit ((d.latestSeq - seq) % d.maxSeq)).map fun mask =>
        ({ d with mask := mask }, latest) := by
  simp only [acceptSeq, gt_iff_lt, if_neg (Nat.not_lt.mpr h), if_neg hmax, Option.bind_eq_bind,
    Option.pure_def, Option.map_eq_bind]
  rfl

theorem acceptSeq_zero (hmax : d.maxSeq = 0) : d.acceptSeq seq = none := by
  simp only [acceptSeq, Option.bind_eq_bind, Option.bind_eq_none_iff]
  intro first _
  by_cases h : d.latestSeq < seq
  · simp only [gt_iff_lt, if_pos h, if_pos hmax]
  · simp only [gt_iff_lt, if_neg h, if_pos hmax]

/-- Accepting a number in range keeps the configuration. -/
theorem Configured.acceptSeq (h : d.Configured windowSize maxSeq) (hseq : seq ≤ maxSeq)
    (haccept : d.acceptSeq seq = some (d', latest)) : d'.Configured windowSize maxSeq := by
  by_cases hmax : d.maxSeq = 0
  · rw [acceptSeq_zero hmax] at haccept
    cases haccept
  by_cases hle : seq ≤ d.latestSeq
  · rw [acceptSeq_behind hle hmax] at haccept
    obtain ⟨_, -, haccept⟩ := Option.bind_eq_some_iff.mp haccept
    obtain ⟨mask, hset, he⟩ := Option.map_eq_some_iff.mp haccept
    cases he
    obtain ⟨hn, hlen⟩ := FixedBigInt.setBit_shape hset
    exact ⟨h.maxSeq_eq, h.windowSize_eq, hn.trans h.width, hlen ▸ h.stored, h.latest_le⟩
  · rw [acceptSeq_ahead (Nat.lt_of_not_le hle) hmax] at haccept
    obtain ⟨mask, hset, he⟩ := Option.map_eq_some_iff.mp haccept
    cases he
    obtain ⟨hn, hlen⟩ := FixedBigInt.setBit_shape hset
    rw [FixedBigInt.n_lsh] at hn
    rw [FixedBigInt.length_lsh] at hlen
    exact ⟨h.maxSeq_eq, h.windowSize_eq, hn.trans h.width, hlen ▸ h.stored, hseq⟩

/-- A session with a configured detector and tokens in range. -/
structure ConfiguredSession (windowSize maxSeq : Nat) (s : Session SlidingWindowDetector) :
    Prop where
  detector : s.detector.Configured windowSize maxSeq
  tokens : ∀ tok ∈ s.tokens, tok.passed = true → tok.seq ≤ maxSeq

/-- A check reports its verdict in a token and leaves the detector alone. -/
theorem checkToken_eq_some {tok : Token} (h : d.checkToken seq = some (d', tok)) :
    d' = d ∧ tok.seq = seq ∧ d.checkSeq seq = some tok.passed := by
  obtain ⟨ok, hcheck, h⟩ := Option.bind_eq_some_iff.mp h
  cases ok <;> cases h <;> exact ⟨rfl, rfl, hcheck⟩

theorem ConfiguredSession.step {s s' : Session SlidingWindowDetector} {call : Call}
    {reply : Reply} (h : ConfiguredSession windowSize maxSeq s)
    (hstep : tokenApi.step s call = some (s', reply)) : ConfiguredSession windowSize maxSeq s' := by
  cases call with
  | checkSeq seq =>
    obtain ⟨⟨d, tok⟩, hcheck, he⟩ := Option.map_eq_some_iff.mp hstep
    cases he
    obtain ⟨rfl, hseq, hverdict⟩ := checkToken_eq_some hcheck
    refine ⟨h.detector, fun t ht hpassed => ?_⟩
    rcases List.mem_append.mp ht with ht | ht
    · exact h.tokens t ht hpassed
    · cases List.mem_singleton.mp ht
      rw [hpassed] at hverdict
      rw [hseq, ← h.detector.maxSeq_eq]
      exact le_maxSeq_of_checkSeq hverdict
  | accept issued =>
    simp only [CheckAccepter.step] at hstep
    split at hstep
    · cases hstep
      exact h
    next tok htok =>
      obtain ⟨⟨d, latest⟩, haccept, he⟩ := Option.map_eq_some_iff.mp hstep
      cases he
      refine ⟨?_, h.tokens⟩
      simp only [tokenApi, accept] at haccept
      cases hpassed : tok.passed with
      | false =>
        simp only [hpassed, Bool.not_false, if_true, Option.some.injEq, Prod.mk.injEq] at haccept
        exact haccept.1 ▸ h.detector
      | true =>
        simp only [hpassed, Bool.not_true, Bool.false_eq_true, if_false] at haccept
        exact h.detector.acceptSeq (h.tokens tok (List.mem_of_getElem? htok) hpassed) haccept

theorem ConfiguredSession.run {s s' : Session SlidingWindowDetector} {calls : List Call}
    {replies : List Reply} (h : ConfiguredSession windowSize maxSeq s)
    (hrun : Core.run tokenApi.step s calls = some (s', replies)) :
    ConfiguredSession windowSize maxSeq s' :=
  keeps_of_step (fun h hstep => ConfiguredSession.step h hstep) h hrun

/-- The number is recorded: accepting it does not panic, its own bit is set then, and the next check
rejects it. -/
def Records (d : SlidingWindowDetector) (seq : Nat) : Prop :=
  ∃ d' latest, d.accept (passedToken seq) = some (d', latest) ∧
    d'.mask.bit (d'.latestSeq - seq) = some 1 ∧ d'.checkToken seq = some (d', rejectedToken seq)

/-- A marked number is rejected. -/
theorem checkToken_marked (hle : seq ≤ d.latestSeq) (hmax : seq ≤ d.maxSeq)
    (hbit : d.mask.bit (d.latestSeq - seq) = some 1) :
    d.checkToken seq = some (d, rejectedToken seq) := by
  have hcheck : d.checkSeq seq = some false := by
    simp only [checkSeq, gt_iff_lt, if_neg (Nat.not_lt.mpr hmax), if_pos hle, hbit]
    split <;> rfl
  simp only [checkToken, hcheck, Option.bind_eq_bind, Option.bind_some, Bool.not_false, if_true,
    Option.pure_def]

/-- A number above the head is recorded. -/
theorem Configured.records_ahead (h : d.Configured windowSize maxSeq) (hwindow : 0 < windowSize)
    (hmax : seq ≤ maxSeq) (hlt : d.latestSeq < seq) : d.Records seq := by
  have hm : d.maxSeq ≠ 0 := by
    rw [h.maxSeq_eq]
    omega
  have hpos : 0 < (d.mask.lsh (min (seq - d.latestSeq) d.windowSize)).n := by
    rw [FixedBigInt.n_lsh, h.width]
    exact hwindow
  have hstored : 0 / 64 < (d.mask.lsh (min (seq - d.latestSeq) d.windowSize)).bits.length := by
    rw [FixedBigInt.length_lsh]
    exact h.stored
  obtain ⟨mask, hset, hn, -, hlen, htest⟩ := FixedBigInt.setBit_of_stored hpos hstored
  have haccept : d.accept (passedToken seq) =
      some ({ d with mask := mask, latestSeq := seq }, true) := by
    simp only [accept, passedToken, Bool.not_true, Bool.false_eq_true, if_false]
    rw [acceptSeq_ahead hlt hm, hset]
    rfl
  have hbit : mask.bit (seq - seq) = some 1 := by
    rw [Nat.sub_self, FixedBigInt.bit_of_stored (hn ▸ hpos) (hlen ▸ hstored), htest]
    simp
  exact ⟨_, true, haccept, hbit, checkToken_marked le_rfl (h.maxSeq_eq ▸ hmax) hbit⟩

/-- A number at or below the head that passes is in the window and unmarked. -/
theorem unmarked_of_checkSeq (hle : seq ≤ d.latestSeq) (h : d.checkSeq seq = some true) :
    d.latestSeq - seq < d.windowSize ∧ d.mask.bit (d.latestSeq - seq) = some 0 := by
  have hmax := le_maxSeq_of_checkSeq h
  simp only [checkSeq, gt_iff_lt, if_neg (Nat.not_lt.mpr hmax), if_pos hle] at h
  split at h
  · cases h
  next hwindow =>
    obtain ⟨b, hbit, hb⟩ := Option.map_eq_some_iff.mp h
    rw [hbit, of_decide_eq_true hb]
    exact ⟨Nat.lt_of_not_le hwindow, rfl⟩

/-- A number at or below the head is recorded if its distance is its own remainder. -/
theorem Configured.records_behind (h : d.Configured windowSize maxSeq) (hle : seq ≤ d.latestSeq)
    (hcheck : d.checkSeq seq = some true) (hlt : d.latestSeq - seq < maxSeq) : d.Records seq := by
  obtain ⟨hwindow, hbit⟩ := unmarked_of_checkSeq hle hcheck
  have hm : d.maxSeq ≠ 0 := by
    rw [h.maxSeq_eq]
    omega
  have hin : d.latestSeq - seq < d.mask.n := by rwa [h.width, ← h.windowSize_eq]
  have hstored := FixedBigInt.stored_of_bit hin hbit
  obtain ⟨mask, hset, hn, -, hlen, htest⟩ := FixedBigInt.setBit_of_stored hin hstored
  have hrem : (d.latestSeq - seq) % d.maxSeq = d.latestSeq - seq := by
    rw [h.maxSeq_eq]
    exact Nat.mod_eq_of_lt hlt
  have hmarked : mask.bit (d.latestSeq - seq) = some 1 := by
    rw [FixedBigInt.bit_of_stored (hn ▸ hin) (hlen ▸ hstored), htest]
    simp
  obtain ⟨latest, haccept⟩ : ∃ latest, d.accept (passedToken seq) =
      some ({ d with mask := mask }, latest) := by
    simp only [accept, passedToken, Bool.not_true, Bool.false_eq_true, if_false]
    rw [acceptSeq_behind hle hm, hrem, hset]
    split
    next hzero =>
      rw [hzero.1, hzero.2] at hbit
      exact ⟨true, by rw [hbit]; rfl⟩
    · exact ⟨false, rfl⟩
  have hmax := le_maxSeq_of_checkSeq hcheck
  exact ⟨_, latest, haccept, hmarked, checkToken_marked hle hmax hmarked⟩

/-- Zero under a full head is not recorded: the remainder of its distance is zero. -/
theorem Configured.not_records_zero (h : d.Configured windowSize maxSeq)
    (hfull : d.latestSeq = maxSeq) (hcheck : d.checkSeq 0 = some true) : ¬ d.Records 0 := by
  rintro ⟨d', latest, haccept, hbit', -⟩
  simp only [accept, passedToken, Bool.not_true, Bool.false_eq_true, if_false] at haccept
  by_cases hm : d.maxSeq = 0
  · rw [acceptSeq_zero hm] at haccept
    cases haccept
  · have hrem : (d.latestSeq - 0) % d.maxSeq = 0 := by
      rw [Nat.sub_zero, hfull, h.maxSeq_eq, Nat.mod_self]
    rw [acceptSeq_behind (Nat.zero_le _) hm, hrem] at haccept
    obtain ⟨_, -, haccept⟩ := Option.bind_eq_some_iff.mp haccept
    obtain ⟨mask, hset, he⟩ := Option.map_eq_some_iff.mp haccept
    cases he
    obtain ⟨hwindow, hbit⟩ := unmarked_of_checkSeq (Nat.zero_le _) hcheck
    rw [Nat.sub_zero] at hwindow hbit hbit'
    have hin : d.latestSeq < d.mask.n := by rwa [h.width, ← h.windowSize_eq]
    have hstored := FixedBigInt.stored_of_bit hin hbit
    -- the head's own bit is set, and the bit of zero stays as it was
    obtain ⟨mask', hset', hn, -, hlen, htest⟩ :=
      FixedBigInt.setBit_of_stored (i := 0) (by omega) h.stored
    cases hset.symm.trans hset'
    have hne : d.latestSeq ≠ 0 := by rwa [hfull, ← h.maxSeq_eq]
    rw [FixedBigInt.bit_of_stored (hn ▸ hin) (hlen ▸ hstored), htest] at hbit'
    rw [FixedBigInt.bit_of_stored hin hstored] at hbit
    simp only [hne, decide_false, Bool.or_false] at hbit'
    rw [hbit] at hbit'
    cases hbit'

/-- After any calls on a new detector, a number that passes its check is recorded by accepting it
right away, except zero under a head at the upper limit. -/
theorem accept_records_iff {s : Session SlidingWindowDetector} {calls : List Call}
    {replies : List Reply} (hwindow : 1 ≤ windowSize)
    (hrun : run tokenApi.step ⟨new windowSize maxSeq, []⟩ calls = some (s, replies))
    (hcheck : s.detector.checkToken seq = some (s.detector, passedToken seq)) :
    s.detector.Records seq ↔ ¬ (seq = 0 ∧ s.detector.latestSeq = maxSeq) := by
  have hnew : ConfiguredSession windowSize maxSeq ⟨new windowSize maxSeq, []⟩ :=
    ⟨configured_new windowSize maxSeq, by simp⟩
  have h := (hnew.run hrun).detector
  obtain ⟨-, -, hpassed⟩ := checkToken_eq_some hcheck
  have hmax := le_maxSeq_of_checkSeq hpassed
  rw [h.maxSeq_eq] at hmax
  by_cases hle : seq ≤ s.detector.latestSeq
  · constructor
    · rintro hrecords ⟨rfl, hfull⟩
      exact h.not_records_zero hfull hpassed hrecords
    · intro hne
      have hlatest := h.latest_le
      exact h.records_behind hle hpassed (by omega)
  · have hlt := Nat.lt_of_not_le hle
    exact iff_of_true (h.records_ahead hwindow hmax hlt) (by omega)

/-- Under the head 5 the number 3 passes and is recorded. -/
theorem accept_records_window64 : ∃ s replies,
    run tokenApi.step ⟨new 64 65535, []⟩ [.checkSeq 5, .accept 0] = some (s, replies) ∧
      s.detector.Records 3 := by
  have hrun : run tokenApi.step ⟨new 64 65535, []⟩ [.checkSeq 5, .accept 0] =
      some (⟨⟨5, 65535, 64, ⟨[1], 64, BitVec.allOnes 64⟩⟩, [⟨5, true⟩]⟩,
        [.token ⟨5, true⟩, .latest true]) := rfl
  exact ⟨_, _, hrun, (accept_records_iff (by decide) hrun (by decide)).mpr (by decide)⟩

/-- With a window larger than the range, zero passes after `maxSeq` has been accepted, and still
passes after it has been accepted itself. With a range of one number its accept divides by zero. -/
theorem zero_passes_again :
    (run tokenApi.step ⟨new 64 3, []⟩
        [.checkSeq 3, .accept 0, .checkSeq 0, .accept 1, .checkSeq 0]).map Prod.snd =
      some [.token (passedToken 3), .latest true, .token (passedToken 0), .latest false,
        .token (passedToken 0)] ∧
    (run tokenApi.step ⟨new 64 0, []⟩ [.checkSeq 0]).map Prod.snd =
      some [.token (passedToken 0)] ∧
    (run tokenApi.step ⟨new 64 0, []⟩ [.checkSeq 0, .accept 0]).map Prod.snd = none := by
  decide +kernel

end SlidingWindowDetector

end PionTransport.Replay
