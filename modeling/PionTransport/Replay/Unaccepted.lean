import PionTransport.Replay.Sliding
import PionTransport.Replay.Wrapped

/-!
# Checks that are not accepted

A check of the non-wrapping detector never changes a later verdict. The
wrapping detector sets its head in the first check of a number in range, so an
unaccepted check of a fresh detector moves the window: a later number keeps its
verdict exactly when the head set by that first number does not change whether
it is too old. After a number in range was checked, no check changes anything.
-/

namespace PionTransport.Replay

open PionTransport.Core

/-- Seen from the head that a first check of `first` sets, `seq` is too old. -/
def tooOld (windowSize maxSeq first seq : Nat) : Bool :=
  decide (int64 windowSize ≤
    wrapDistance maxSeq (WrappedSlidingWindowDetector.startHead maxSeq first) seq)

/-- A check of the non-wrapping detector returns it unchanged. -/
theorem SlidingWindowDetector.checkToken_keeps (d : SlidingWindowDetector) (seq : Nat)
    (r : SlidingWindowDetector × Token) (h : d.checkToken seq = some r) : r.1 = d := by
  unfold checkToken at h
  cases hcheck : d.checkSeq seq with
  | none => simp [hcheck] at h
  | some ok =>
    cases ok with
    | false =>
      simp only [hcheck, Option.bind_eq_bind, Option.bind_some, Bool.not_false, ite_true,
        Option.pure_def, Option.some.injEq] at h
      rw [← h]
    | true =>
      simp only [hcheck, Option.bind_eq_bind, Option.bind_some, Bool.not_true,
        Bool.false_eq_true, ite_false, Option.pure_def, Option.some.injEq] at h
      rw [← h]

namespace WrappedSlidingWindowDetector

variable {d : WrappedSlidingWindowDetector} {windowSize maxSeq : Nat}

/-- After initialisation, a check returns the detector unchanged. -/
theorem checkToken_keeps_of_init (hinit : d.init = true) (seq : Nat)
    (r : WrappedSlidingWindowDetector × Token) (h : d.checkToken seq = some r) : r.1 = d := by
  rw [checkToken_eq] at h
  split at h
  · exact congrArg Prod.fst (Option.some.inj h.symm)
  · obtain ⟨ok, -, he⟩ := Option.map_eq_some_iff.mp h
    rw [← he]
    simp only [initHead, hinit, ite_true]

variable {seq : Nat}

/-- Accepting keeps the limit and the initialisation. -/
theorem acceptDiff_keeps {diff : Int} {d' : WrappedSlidingWindowDetector} {latest : Bool}
    (h : d.acceptDiff seq diff = some (d', latest)) :
    d'.maxSeq = d.maxSeq ∧ d'.init = d.init := by
  unfold acceptDiff at h
  split at h
  · obtain ⟨mask, -, he⟩ := Option.bind_eq_some_iff.mp h
    obtain ⟨rfl, -⟩ := Prod.mk.inj (Option.some.inj he)
    exact ⟨rfl, rfl⟩
  · obtain ⟨mask, -, he⟩ := Option.bind_eq_some_iff.mp h
    obtain ⟨rfl, -⟩ := Prod.mk.inj (Option.some.inj he)
    exact ⟨rfl, rfl⟩

/-- The verdict over an empty mask only depends on the distance. -/
theorem judge_empty (hwindow : d.windowSize = windowSize)
    (hmask : d.mask = newFixedBigInt windowSize) (hword : windowSize < 2 ^ 64) (diff : Int) :
    d.judge diff = some (!decide (int64 windowSize ≤ diff)) := by
  unfold judge
  rw [hwindow, hmask]
  by_cases hold : diff ≥ int64 windowSize
  · simp only [hold, ite_true, decide_true, Bool.not_true]
  · have hpass : decide (int64 windowSize ≤ diff) = false := decide_eq_false hold
    rw [if_neg hold, hpass, Bool.not_false]
    by_cases hneg : diff ≥ 0
    · -- a bit is only read for windows in the signed range, whose mask does not overflow
      have hsmall : windowSize < 2 ^ 63 := by
        by_contra hbig
        have := int64_neg (Nat.le_of_not_lt hbig) hword
        omega
      obtain ⟨hvalid, hzero⟩ := newFixedBigInt_valid (n := windowSize) (by omega)
      rw [if_pos hneg, hvalid.bit_eq, hzero]
      rfl
    · rw [if_neg hneg]

/-- The verdict of a detector whose only check so far was of `first`. -/
theorem verdict_initHead (hmax : maxSeq < 2 ^ 63) (hword : windowSize < 2 ^ 64) {first : Nat}
    (hfirst : first ≤ maxSeq) (hseq : seq ≤ maxSeq) :
    tokenApi.verdict ((withWrap windowSize maxSeq).initHead first) seq =
      some (!tooOld windowSize maxSeq first seq) := by
  have hagain : ((withWrap windowSize maxSeq).initHead first).initHead seq =
      (withWrap windowSize maxSeq).initHead first := rfl
  have hdiff : ((withWrap windowSize maxSeq).initHead first).diff seq =
      wrapDistance maxSeq (startHead maxSeq first) seq :=
    diff_eq hmax (startHead_le hfirst) hseq
  have hjudge := judge_empty (d := (withWrap windowSize maxSeq).initHead first) rfl rfl hword
    (wrapDistance maxSeq (startHead maxSeq first) seq)
  have hin : ¬ seq > ((withWrap windowSize maxSeq).initHead first).maxSeq := Nat.not_lt.mpr hseq
  simp only [CheckAccepter.verdict, tokenApi]
  rw [checkToken_eq, if_neg hin, hagain, hdiff, hjudge, Option.map_some, Option.map_some]
  rfl

/-- The verdict of a new detector: the number sets its own head. -/
theorem verdict_withWrap (hmax : maxSeq < 2 ^ 63) (hword : windowSize < 2 ^ 64)
    (hseq : seq ≤ maxSeq) :
    tokenApi.verdict (withWrap windowSize maxSeq) seq =
      some (!tooOld windowSize maxSeq seq seq) := by
  have hin : ¬ seq > (withWrap windowSize maxSeq).maxSeq := Nat.not_lt.mpr hseq
  have hin' : ¬ seq > ((withWrap windowSize maxSeq).initHead seq).maxSeq := hin
  have hagain : ((withWrap windowSize maxSeq).initHead seq).initHead seq =
      (withWrap windowSize maxSeq).initHead seq := rfl
  rw [← verdict_initHead hmax hword hseq hseq]
  simp only [CheckAccepter.verdict, tokenApi]
  rw [checkToken_eq, checkToken_eq, if_neg hin, if_neg hin', hagain]

/-- A number out of range is rejected in every state. -/
theorem verdict_of_gt (hseq : seq > d.maxSeq) :
    tokenApi.verdict d seq = some false := by
  simp only [CheckAccepter.verdict, tokenApi]
  rw [checkToken_eq, if_pos hseq]
  rfl

/-- No number in range was checked: the detector is new and all its tokens are inert. -/
def Unstarted (windowSize maxSeq : Nat) (s : Session WrappedSlidingWindowDetector) : Prop :=
  s.detector = withWrap windowSize maxSeq ∧ ∀ tok ∈ s.tokens, tok.passed = false

variable {s s' : Session WrappedSlidingWindowDetector} {call : Call} {reply : Reply}

/-- Initialisation is permanent. -/
theorem step_init (hinit : s.detector.init = true)
    (hstep : tokenApi.step s call = some (s', reply)) : s'.detector.init = true := by
  cases call with
  | checkSeq seq =>
    obtain ⟨r, hcheck, he⟩ := Option.map_eq_some_iff.mp hstep
    obtain ⟨rfl, -⟩ := Prod.mk.inj he
    rw [checkToken_keeps_of_init hinit seq r hcheck]
    exact hinit
  | accept issued =>
    unfold CheckAccepter.step at hstep
    cases htok : s.tokens[issued]? with
    | none =>
      simp only [htok, Option.some.injEq, Prod.mk.injEq] at hstep
      rw [← hstep.1]
      exact hinit
    | some tok =>
      simp only [htok] at hstep
      obtain ⟨r, haccept, he⟩ := Option.map_eq_some_iff.mp hstep
      obtain ⟨rfl, -⟩ := Prod.mk.inj he
      simp only [tokenApi, accept] at haccept
      split at haccept
      · rw [← Option.some.inj haccept]
        exact hinit
      · exact (acceptDiff_keeps haccept).2.trans hinit

/-- Only a check of a number in range initialises the detector. -/
theorem Unstarted.step_cases (hs : Unstarted windowSize maxSeq s)
    (hstep : tokenApi.step s call = some (s', reply)) :
    (∃ seq, seq ≤ maxSeq ∧ call = .checkSeq seq ∧ s'.detector.init = true) ∨
      ((∀ seq, call = .checkSeq seq → maxSeq < seq) ∧ Unstarted windowSize maxSeq s') := by
  obtain ⟨hnew, hinert⟩ := hs
  cases call with
  | checkSeq seq =>
    obtain ⟨r, hcheck, he⟩ := Option.map_eq_some_iff.mp hstep
    obtain ⟨rfl, -⟩ := Prod.mk.inj he
    simp only [tokenApi, hnew] at hcheck
    by_cases hout : seq > maxSeq
    · refine Or.inr ⟨fun q hq => by cases hq; exact hout, ?_⟩
      rw [checkToken_eq, if_pos (show seq > (withWrap windowSize maxSeq).maxSeq from hout)]
        at hcheck
      obtain rfl := Option.some.inj hcheck
      refine ⟨rfl, fun tok htok => ?_⟩
      rcases List.mem_append.mp htok with htok | htok
      · exact hinert tok htok
      · rw [List.mem_singleton.mp htok]
    · refine Or.inl ⟨seq, Nat.le_of_not_lt hout, rfl, ?_⟩
      rw [checkToken_eq, if_neg (show ¬ seq > (withWrap windowSize maxSeq).maxSeq from hout)]
        at hcheck
      obtain ⟨ok, -, rfl⟩ := Option.map_eq_some_iff.mp hcheck
      rfl
  | accept issued =>
    refine Or.inr ⟨fun q hq => Call.noConfusion hq, ?_⟩
    unfold CheckAccepter.step at hstep
    cases htok : s.tokens[issued]? with
    | none =>
      simp only [htok, Option.some.injEq, Prod.mk.injEq] at hstep
      rw [← hstep.1]
      exact ⟨hnew, hinert⟩
    | some tok =>
      have hrejected := hinert tok (List.mem_of_getElem? htok)
      simp only [htok, tokenApi, accept, hrejected, Bool.not_false, ite_true, Option.map_some,
        Option.some.injEq, Prod.mk.injEq] at hstep
      rw [← hstep.1]
      exact ⟨hnew, hinert⟩

variable {replies : List Reply}

/-- Initialisation is permanent along a run. -/
theorem run_init {calls : List Call} (hinit : s.detector.init = true)
    (hrun : run tokenApi.step s calls = some (s', replies)) : s'.detector.init = true :=
  keeps_of_step (I := fun s => s.detector.init = true) (fun hinit hstep => step_init hinit hstep)
    hinit hrun

/-- After a run the detector is initialised exactly when a number in range was checked. -/
theorem Unstarted.run_cases {calls : List Call} (hs : Unstarted windowSize maxSeq s)
    (hrun : run tokenApi.step s calls = some (s', replies)) :
    ((∃ seq, seq ≤ maxSeq ∧ .checkSeq seq ∈ calls) ∧ s'.detector.init = true) ∨
      ((¬ ∃ seq, seq ≤ maxSeq ∧ .checkSeq seq ∈ calls) ∧ Unstarted windowSize maxSeq s') := by
  induction hrun using run_induct with
  | nil => exact Or.inr ⟨by simp, hs⟩
  | @cons _ call _ _ _ _ hstep hrest ih =>
    rcases hs.step_cases hstep with ⟨seq, hseq, rfl, hinit⟩ | ⟨hout, hs₁⟩
    · exact Or.inl ⟨⟨seq, hseq, List.mem_cons_self⟩, run_init hinit hrest⟩
    · rcases ih hs₁ with ⟨⟨seq, hseq, hmem⟩, hinit⟩ | ⟨hnone, hs'⟩
      · exact Or.inl ⟨⟨seq, hseq, List.mem_cons_of_mem call hmem⟩, hinit⟩
      · refine Or.inr ⟨?_, hs'⟩
        rintro ⟨seq, hseq, hmem⟩
        rcases List.mem_cons.mp hmem with rfl | hmem
        · exact absurd (hout seq rfl) (Nat.not_lt.mpr hseq)
        · exact hnone ⟨seq, hseq, hmem⟩

/-- The state after checks of a new detector: the first number in range set the head. -/
theorem Unstarted.run_checks {seqs : List Nat} (hs : Unstarted windowSize maxSeq s)
    (hrun : run tokenApi.step s (seqs.map .checkSeq) = some (s', replies)) :
    s'.detector = match seqs.find? (fun seq => decide (seq ≤ maxSeq)) with
      | none => withWrap windowSize maxSeq
      | some first => (withWrap windowSize maxSeq).initHead first := by
  induction seqs generalizing s replies with
  | nil =>
    obtain ⟨rfl, -⟩ := Prod.mk.inj (Option.some.inj hrun)
    exact hs.1
  | cons seq seqs ih =>
    obtain ⟨s₁, reply, replies', hstep, hrest, -⟩ := run_cons_inv hrun
    rcases hs.step_cases hstep with ⟨q, hq, he, hinit⟩ | ⟨hout, hs₁⟩
    · obtain rfl : seq = q := by cases he; rfl
      rw [List.find?_cons_of_pos (by simpa using hq)]
      rw [CheckAccepter.run_checks_keep (checkToken_keeps_of_init hinit) hrest]
      obtain ⟨r, hcheck, he⟩ := Option.map_eq_some_iff.mp hstep
      obtain ⟨rfl, -⟩ := Prod.mk.inj he
      simp only [tokenApi, hs.1] at hcheck
      have hin : ¬ seq > (withWrap windowSize maxSeq).maxSeq := Nat.not_lt.mpr hq
      rw [checkToken_eq, if_neg hin] at hcheck
      obtain ⟨ok, -, rfl⟩ := Option.map_eq_some_iff.mp hcheck
      rfl
    · have hgt := hout seq rfl
      rw [List.find?_cons_of_neg (by simpa using hgt)]
      exact ih hs₁ hrest

/-- Unaccepted checks of a detector that has not started keep a verdict exactly when the head
they set leaves the number on the same side of the window. -/
theorem Unstarted.verdict_iff (hmax : maxSeq < 2 ^ 63) (hword : windowSize < 2 ^ 64)
    {seqs : List Nat} (seq : Nat) (hs : Unstarted windowSize maxSeq s)
    (hrun : run tokenApi.step s (seqs.map .checkSeq) = some (s', replies)) :
    tokenApi.verdict s'.detector seq = tokenApi.verdict s.detector seq ↔
      maxSeq < seq ∨ ∀ first, seqs.find? (fun q => decide (q ≤ maxSeq)) = some first →
        tooOld windowSize maxSeq first seq = tooOld windowSize maxSeq seq seq := by
  have hchecks := hs.run_checks hrun
  rw [hs.1]
  cases hfind : seqs.find? (fun q => decide (q ≤ maxSeq)) with
  | none =>
    simp only [hfind] at hchecks
    simp [hchecks]
  | some first =>
    simp only [hfind] at hchecks
    have hfirst : first ≤ maxSeq := by simpa using List.find?_some hfind
    rw [hchecks]
    by_cases hseq : seq ≤ maxSeq
    · rw [verdict_initHead hmax hword hfirst hseq, verdict_withWrap hmax hword hseq]
      simp [Nat.not_lt.mpr hseq]
    · have hgt : maxSeq < seq := Nat.lt_of_not_le hseq
      rw [verdict_of_gt (show seq > ((withWrap windowSize maxSeq).initHead first).maxSeq from hgt),
        verdict_of_gt (show seq > (withWrap windowSize maxSeq).maxSeq from hgt)]
      simp [hgt]

end WrappedSlidingWindowDetector

variable {windowSize maxSeq : Nat}

/-- A number is not too old for the head it sets itself, so another head leaves it on the same
side of the window exactly when it is less than a window behind. -/
theorem tooOld_eq_iff (h4 : 4 ≤ maxSeq) (hw : windowSize < 2 ^ 63) (first seq : Nat) :
    tooOld windowSize maxSeq first seq = tooOld windowSize maxSeq seq seq ↔
      wrapDistance maxSeq (WrappedSlidingWindowDetector.startHead maxSeq first) seq <
        windowSize := by
  have hwindow : int64 windowSize = windowSize := int64_eq (by omega) (by omega)
  have hself : tooOld windowSize maxSeq seq seq = false := by
    unfold tooOld
    rw [wrapDistance_startHead h4, hwindow]
    exact decide_eq_false (by omega)
  rw [hself, tooOld, hwindow, decide_eq_false_iff_not, Int.not_le]

/-- Unaccepted checks after any run never change a verdict of the non-wrapping detector. They
keep a verdict of the wrapping detector exactly when a number in range was checked before, the
number is out of range, or the head set by the first of them does not change whether the number
is too old: the number is less than a window behind that head, unless the limit is below 4 or the
window size is negative as an `int64`. -/
theorem unaccepted_checks_iff (hmax : maxSeq < 2 ^ 63) (hword : windowSize < 2 ^ 64)
    (calls : List Call) (seqs : List Nat) (seq : Nat) :
    (∀ s replies s' replies',
      run SlidingWindowDetector.tokenApi.step
        ⟨SlidingWindowDetector.new windowSize maxSeq, []⟩ calls = some (s, replies) →
      run SlidingWindowDetector.tokenApi.step s (seqs.map .checkSeq) = some (s', replies') →
      SlidingWindowDetector.tokenApi.verdict s'.detector seq =
        SlidingWindowDetector.tokenApi.verdict s.detector seq) ∧
    (∀ s replies s' replies',
      run WrappedSlidingWindowDetector.tokenApi.step
        ⟨WrappedSlidingWindowDetector.withWrap windowSize maxSeq, []⟩ calls =
          some (s, replies) →
      run WrappedSlidingWindowDetector.tokenApi.step s (seqs.map .checkSeq) =
        some (s', replies') →
      (WrappedSlidingWindowDetector.tokenApi.verdict s'.detector seq =
          WrappedSlidingWindowDetector.tokenApi.verdict s.detector seq ↔
        (∃ q, q ≤ maxSeq ∧ .checkSeq q ∈ calls) ∨ maxSeq < seq ∨
          ∀ first, seqs.find? (fun q => decide (q ≤ maxSeq)) = some first →
            tooOld windowSize maxSeq first seq = tooOld windowSize maxSeq seq seq)) ∧
    (4 ≤ maxSeq → windowSize < 2 ^ 63 → ∀ first,
      (tooOld windowSize maxSeq first seq = tooOld windowSize maxSeq seq seq ↔
        wrapDistance maxSeq (WrappedSlidingWindowDetector.startHead maxSeq first) seq <
          windowSize)) := by
  refine ⟨?_, ?_, fun h4 hw first => tooOld_eq_iff h4 hw first seq⟩
  · intro s replies s' replies' _ hchecks
    rw [CheckAccepter.run_checks_keep s.detector.checkToken_keeps hchecks]
  · intro s replies s' replies' hrun hchecks
    have hnew : WrappedSlidingWindowDetector.Unstarted windowSize maxSeq
        ⟨WrappedSlidingWindowDetector.withWrap windowSize maxSeq, []⟩ := ⟨rfl, by simp⟩
    rcases hnew.run_cases hrun with ⟨hstarted, hinit⟩ | ⟨hnone, hs⟩
    · rw [CheckAccepter.run_checks_keep
        (WrappedSlidingWindowDetector.checkToken_keeps_of_init hinit) hchecks]
      exact ⟨fun _ => Or.inl hstarted, fun _ => rfl⟩
    · rw [hs.verdict_iff hmax hword seq hchecks]
      exact ⟨Or.inr, fun h => h.resolve_left hnone⟩

/-- An unaccepted check of 1000 does not change the verdict of 1001 on a new detector. -/
theorem unaccepted_check_of_predecessor :
    ∃ s' replies',
      run WrappedSlidingWindowDetector.tokenApi.step
        ⟨WrappedSlidingWindowDetector.withWrap 64 65535, []⟩ [.checkSeq 1000] =
          some (s', replies') ∧
      WrappedSlidingWindowDetector.tokenApi.verdict s'.detector 1001 =
        WrappedSlidingWindowDetector.tokenApi.verdict
          (WrappedSlidingWindowDetector.withWrap 64 65535) 1001 := by
  have hsome : (run WrappedSlidingWindowDetector.tokenApi.step
      ⟨WrappedSlidingWindowDetector.withWrap 64 65535, []⟩ [.checkSeq 1000]).isSome = true := by
    decide +kernel
  obtain ⟨⟨s', replies'⟩, hrun⟩ := Option.isSome_iff_exists.mp hsome
  refine ⟨s', replies', hrun, ?_⟩
  refine ((unaccepted_checks_iff (by decide) (by decide) [] [1000] 1001).2.1 _ _ s' replies' rfl
    hrun).mpr (Or.inr (Or.inr ?_))
  intro first hfirst
  obtain rfl : 1000 = first := Option.some.inj hfirst
  decide +kernel

/-- On a new wrapping detector number 1 passes, but not after an unaccepted check of 1000. -/
theorem unaccepted_check_commits :
    WrappedSlidingWindowDetector.tokenApi.verdict
        (WrappedSlidingWindowDetector.withWrap 64 65535) 1 = some true ∧
      (run WrappedSlidingWindowDetector.tokenApi.step
          ⟨WrappedSlidingWindowDetector.withWrap 64 65535, []⟩ [.checkSeq 1000]).map
        (fun r => WrappedSlidingWindowDetector.tokenApi.verdict r.1.detector 1) =
          some (some false) := by
  decide +kernel

end PionTransport.Replay
