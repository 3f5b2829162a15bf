import PionTransport.Replay.Sliding

/-!
# Exact history of the non-wrapping detector

Every reply of the detector is determined by the list of numbers accepted so
far: the mask is the window of that list below its maximum. The invariant
survives stale and repeated tokens because a token only ever adds its own
number. A window within 63 of the word range gets a one-word mask and panics.
-/

namespace PionTransport.Replay

open PionTransport.Core

/-- The history a user can observe: the accepted numbers, newest first, and all tokens. -/
structure History where
  accepted : List Nat
  tokens : List Token
  deriving DecidableEq, Repr

/-- The largest accepted number, or zero. -/
def History.latest (h : History) : Nat := h.accepted.foldr max 0

/-- The verdict a history determines for a number. -/
def History.passes (windowSize maxSeq : Nat) (h : History) (seq : Nat) : Bool :=
  decide (seq ≤ maxSeq ∧
    (seq > h.latest ∨ (h.latest - seq < windowSize ∧ seq ∉ h.accepted)))

/-- Whether a number is larger than everything accepted. -/
def History.isLatest (h : History) (seq : Nat) : Bool := decide (∀ a ∈ h.accepted, a < seq)

/-- The specification: every reply is a function of the history. -/
def History.step (windowSize maxSeq : Nat) (h : History) : Call → History × Reply
  | .checkSeq seq =>
    let tok : Token := ⟨seq, h.passes windowSize maxSeq seq⟩
    (⟨h.accepted, h.tokens ++ [tok]⟩, .token tok)
  | .accept issued =>
    match h.tokens[issued]? with
    | none => (h, .notIssued)
    | some tok =>
      if tok.passed then (⟨tok.seq :: h.accepted, h.tokens⟩, .latest (h.isLatest tok.seq))
      else (h, .latest false)

variable {h : History}

/-- Accepted numbers do not exceed the latest one. -/
theorem History.le_latest {a : Nat} (ha : a ∈ h.accepted) : a ≤ h.latest := by
  unfold History.latest
  generalize h.accepted = accepted at ha
  induction accepted with
  | nil => cases ha
  | cons b bs ih =>
    rcases List.mem_cons.mp ha with rfl | ha
    · exact Nat.le_max_left _ _
    · exact Nat.le_trans (ih ha) (Nat.le_max_right _ _)

/-- The latest number was accepted, unless nothing was. -/
theorem History.latest_mem (hne : h.accepted ≠ []) : h.latest ∈ h.accepted := by
  unfold History.latest
  generalize h.accepted = accepted at hne
  induction accepted with
  | nil => exact absurd rfl hne
  | cons b bs ih =>
    cases bs with
    | nil => simp
    | cons c cs =>
      have hrest := ih (List.cons_ne_nil c cs)
      rw [List.foldr_cons]
      rcases Nat.le_total b ((c :: cs).foldr max 0) with hb | hb
      · rw [Nat.max_eq_right hb]
        exact List.mem_cons_of_mem b hrest
      · rw [Nat.max_eq_left hb]
        exact List.mem_cons_self

/-- An accepted number never passes a later check. -/
theorem History.passes_accepted {a : Nat} (windowSize maxSeq : Nat) (ha : a ∈ h.accepted) :
    h.passes windowSize maxSeq a = false := by
  have hle := History.le_latest ha
  simp only [History.passes, decide_eq_false_iff_not, not_and, not_or, not_not]
  exact fun _ => ⟨by omega, fun _ => ha⟩

variable {seq : Nat}

/-- A number below the latest one is only the latest if nothing was accepted. -/
theorem History.isLatest_iff_of_le (hle : seq ≤ h.latest) :
    h.isLatest seq = true ↔ h.accepted = [] := by
  simp only [History.isLatest, decide_eq_true_eq]
  constructor
  · intro hall
    by_contra hne
    have hlt := hall _ (History.latest_mem hne)
    omega
  · intro hnil a ha
    rw [hnil] at ha
    cases ha

/-- The detector's state is the window of the accepted numbers below their maximum. -/
structure Remembers (windowSize maxSeq : Nat) (s : Session SlidingWindowDetector)
    (h : History) : Prop where
  maxSeq_eq : s.detector.maxSeq = maxSeq
  windowSize_eq : s.detector.windowSize = windowSize
  latest_eq : s.detector.latestSeq = h.latest
  valid : s.detector.mask.Valid
  width : s.detector.mask.n = windowSize
  tracks : Tracks windowSize s.detector.mask.testBit h.latest
    fun p => ∃ a ∈ h.accepted, (a : Int) = p
  tokens_eq : s.tokens = h.tokens
  bounded : ∀ a ∈ h.accepted, a ≤ maxSeq
  issued : ∀ tok ∈ h.tokens, tok.passed = true → tok.seq ≤ maxSeq ∧ (0 < windowSize ∨ 0 < tok.seq)

variable {windowSize maxSeq : Nat} {s : Session SlidingWindowDetector} {h : History}

/-- A new detector remembers the empty history. -/
theorem remembers_new (hw : windowSize + 63 < 2 ^ 64) (maxSeq : Nat) :
    Remembers windowSize maxSeq ⟨SlidingWindowDetector.new windowSize maxSeq, []⟩ ⟨[], []⟩ := by
  obtain ⟨hvalid, hzero⟩ := newFixedBigInt_valid hw
  exact ⟨rfl, rfl, rfl, hvalid, rfl, (tracks_empty hzero 0).congr (by simp), rfl, by simp, by simp⟩

/-- A window bit says whether its number was accepted. -/
theorem Remembers.bit_iff (hr : Remembers windowSize maxSeq s h) (hle : seq ≤ h.latest)
    (hw : h.latest - seq < windowSize) :
    s.detector.mask.testBit (h.latest - seq) = true ↔ seq ∈ h.accepted := by
  rw [hr.tracks _ hw]
  constructor
  · rintro ⟨a, ha, he⟩
    rwa [show a = seq by omega] at ha
  · intro ha
    exact ⟨seq, ha, by omega⟩

/-- The check computes the verdict of the history. -/
theorem Remembers.checkSeq_eq (hr : Remembers windowSize maxSeq s h) (seq : Nat) :
    s.detector.checkSeq seq = some (h.passes windowSize maxSeq seq) := by
  unfold SlidingWindowDetector.checkSeq History.passes
  rw [hr.maxSeq_eq, hr.latest_eq, hr.windowSize_eq]
  by_cases hmax : seq > maxSeq
  · simp [hmax, Nat.not_le.mpr hmax]
  · by_cases hle : seq ≤ h.latest
    · by_cases hold : h.latest - seq ≥ windowSize
      · simp [hmax, hle, hold, Nat.not_lt.mpr hle, Nat.not_lt.mpr hold]
      · have hbit := hr.bit_iff hle (Nat.lt_of_not_le hold)
        rw [if_neg hmax, if_pos hle, if_neg hold, hr.valid.bit_eq, Option.map_some]
        cases hb : s.detector.mask.testBit (h.latest - seq) with
        | true =>
          have hmem := hbit.mp hb
          simp [hmem, Nat.not_lt.mpr hle]
        | false =>
          have hmem : seq ∉ h.accepted := fun hm => by simp [hbit.mpr hm] at hb
          simp [hmem, Nat.le_of_not_lt hmax, Nat.lt_of_not_le hold]
    · simp [hmax, hle, Nat.le_of_not_lt hmax, Nat.lt_of_not_le hle]

/-- The special case of number zero: nothing was accepted exactly when bit zero is clear. -/
theorem Remembers.zero_iff (hr : Remembers windowSize maxSeq s h) (hw : 0 < windowSize)
    (hlatest : h.latest = 0) : s.detector.mask.testBit 0 = false ↔ h.accepted = [] := by
  have hbit := hr.bit_iff (Nat.zero_le h.latest) (by omega)
  rw [hlatest, Nat.sub_zero] at hbit
  constructor
  · intro hclear
    by_contra hne
    have hmem := History.latest_mem hne
    rw [hlatest] at hmem
    simp [hbit.mpr hmem] at hclear
  · intro hnil
    rw [← Bool.not_eq_true, hbit, hnil]
    exact List.not_mem_nil

/-- The window after moving the head to a larger number. -/
theorem Remembers.shifted (hr : Remembers windowSize maxSeq s h) (hseq : h.latest < seq) :
    (s.detector.mask.lsh (min (seq - h.latest) windowSize)).Valid ∧
      (s.detector.mask.lsh (min (seq - h.latest) windowSize)).n = windowSize ∧
      Tracks windowSize (s.detector.mask.lsh (min (seq - h.latest) windowSize)).testBit seq
        fun p => ∃ a ∈ h.accepted, (a : Int) = p := by
  have hseen : ∀ p : Int, (∃ a ∈ h.accepted, (a : Int) = p) → p ≤ h.latest := by
    rintro p ⟨a, ha, rfl⟩
    exact Int.ofNat_le.mpr (History.le_latest ha)
  have hshift := hr.valid.lsh_tracks (by rw [hr.width]; exact hr.tracks) hseen (seq - h.latest)
  rwa [hr.width, show (h.latest : Int) + ((seq - h.latest : Nat) : Int) = seq by omega] at hshift

/-- Marking the number of an accepted token. The reduction modulo `maxSeq` only matters for
number zero under a head at `maxSeq`, where it marks the head again. -/
theorem tracks_setBit {mask : FixedBigInt} {latest : Nat} {accepted : List Nat}
    (hvalid : mask.Valid)
    (htracks : Tracks mask.n mask.testBit latest fun p => ∃ a ∈ accepted, (a : Int) = p)
    (hw : mask.n ≤ maxSeq) (hseq : seq ≤ latest) (hlatest : latest ≤ maxSeq)
    (hhead : latest - seq = maxSeq → latest ∈ accepted) :
    ∃ mask', mask.setBit ((latest - seq) % maxSeq) = some mask' ∧ mask'.Valid ∧
      mask'.n = mask.n ∧
      Tracks mask.n mask'.testBit latest fun p => ∃ a ∈ seq :: accepted, (a : Int) = p := by
  obtain ⟨mask', hset, hvalid', hwidth, hmark⟩ :=
    hvalid.setBit_tracks htracks ((latest - seq) % maxSeq)
  refine ⟨mask', hset, hvalid', hwidth, ?_⟩
  intro i hi
  rw [hmark i hi]
  by_cases hturn : latest - seq = maxSeq
  · rw [hturn, Nat.mod_self]
    constructor
    · rintro (⟨a, ha, he⟩ | he)
      · exact ⟨a, List.mem_cons_of_mem seq ha, he⟩
      · exact ⟨latest, List.mem_cons_of_mem seq (hhead hturn), by omega⟩
    · rintro ⟨a, ha, he⟩
      rcases List.mem_cons.mp ha with rfl | ha
      · omega
      · exact Or.inl ⟨a, ha, he⟩
  · rw [Nat.mod_eq_of_lt (by omega)]
    constructor
    · rintro (⟨a, ha, he⟩ | he)
      · exact ⟨a, List.mem_cons_of_mem seq ha, he⟩
      · exact ⟨seq, List.mem_cons_self, by omega⟩
    · rintro ⟨a, ha, he⟩
      rcases List.mem_cons.mp ha with rfl | ha
      · exact Or.inr (by omega)
      · exact Or.inl ⟨a, ha, he⟩

/-- Accepting a number marks it in the window and reports whether it is the latest. -/
theorem Remembers.acceptSeq_spec (hr : Remembers windowSize maxSeq s h) (hmax : 1 ≤ maxSeq)
    (hw : windowSize ≤ maxSeq) (hseq : seq ≤ maxSeq) (hzero : 0 < windowSize ∨ 0 < seq) :
    ∃ d', s.detector.acceptSeq seq = some (d', h.isLatest seq) ∧
      Remembers windowSize maxSeq ⟨d', s.tokens⟩ ⟨seq :: h.accepted, h.tokens⟩ := by
  have hbounded : ∀ a ∈ seq :: h.accepted, a ≤ maxSeq := by
    intro a ha
    rcases List.mem_cons.mp ha with rfl | ha
    · exact hseq
    · exact hr.bounded a ha
  have hcons : (⟨seq :: h.accepted, h.tokens⟩ : History).latest = max seq h.latest := rfl
  have hpos : ¬ maxSeq = 0 := by omega
  by_cases hnew : h.latest < seq
  · have hlatest : h.isLatest seq = true := by
      simp only [History.isLatest, decide_eq_true_eq]
      exact fun a ha => Nat.lt_of_le_of_lt (History.le_latest ha) hnew
    obtain ⟨hvalid, hwidth, hshifted⟩ := hr.shifted hnew
    obtain ⟨mask, hset, hvalid', hwidth', htracks⟩ := tracks_setBit hvalid
      (by rw [hwidth]; exact hshifted) (by rw [hwidth]; exact hw) (le_refl seq) hseq (by omega)
    rw [hwidth] at hwidth' htracks
    rw [Nat.sub_self, Nat.zero_mod] at hset
    rw [Nat.max_eq_left (Nat.le_of_lt hnew)] at hcons
    refine ⟨{ s.detector with mask := mask, latestSeq := seq }, ?_,
      hr.maxSeq_eq, hr.windowSize_eq, hcons.symm, hvalid', hwidth', by rwa [hcons],
      hr.tokens_eq, hbounded, hr.issued⟩
    have hne : ¬ (seq = 0 ∧ h.latest = 0) := by omega
    simp only [SlidingWindowDetector.acceptSeq, hne, hr.latest_eq, gt_iff_lt, hnew, ite_true,
      ite_false, hr.maxSeq_eq, hpos, hr.windowSize_eq, Nat.sub_self, Nat.zero_mod, hset, hlatest,
      Option.bind_eq_bind, Option.bind_some, Option.pure_def]
  · have hle : seq ≤ h.latest := Nat.le_of_not_lt hnew
    have hhead : h.latest - seq = maxSeq → h.latest ∈ h.accepted := by
      intro he
      apply History.latest_mem
      intro hnil
      simp only [History.latest, hnil, List.foldr_nil] at he
      omega
    have hlatest : h.latest ≤ maxSeq := by
      by_cases hnil : h.accepted = []
      · simp [History.latest, hnil]
      · exact hr.bounded _ (History.latest_mem hnil)
    obtain ⟨mask, hset, hvalid', hwidth', htracks⟩ := tracks_setBit hr.valid
      (by rw [hr.width]; exact hr.tracks) (by rw [hr.width]; exact hw) hle hlatest hhead
    rw [hr.width] at hwidth' htracks
    rw [Nat.max_eq_right hle] at hcons
    refine ⟨{ s.detector with mask := mask }, ?_, hr.maxSeq_eq, hr.windowSize_eq,
      hr.latest_eq.trans hcons.symm, hvalid', hwidth', by rwa [hcons], hr.tokens_eq, hbounded,
      hr.issued⟩
    have hfirst : (if seq = 0 ∧ h.latest = 0 then
        (s.detector.mask.bit 0).map fun b => decide (b = 0) else some false) =
        some (h.isLatest seq) := by
      have hiff := History.isLatest_iff_of_le hle
      by_cases hz : seq = 0 ∧ h.latest = 0
      · have hclear := hr.zero_iff (by omega) hz.2
        rw [if_pos hz, hr.valid.bit_eq, Option.map_some, Option.some.injEq, Bool.eq_iff_iff, hiff,
          ← hclear]
        cases s.detector.mask.testBit 0 <;> simp
      · rw [if_neg hz, Option.some.injEq, eq_comm, ← Bool.not_eq_true, hiff]
        intro hnil
        have hl : h.latest = 0 := by simp [History.latest, hnil]
        omega
    simp only [SlidingWindowDetector.acceptSeq, hfirst, hr.latest_eq, gt_iff_lt, hnew, ite_false,
      hr.maxSeq_eq, hpos, hset, Option.bind_eq_bind, Option.bind_some, Option.pure_def]

/-- Every call agrees with the history specification. -/
theorem Remembers.step_spec (hmax : 1 ≤ maxSeq) (hw : windowSize ≤ maxSeq)
    (s : Session SlidingWindowDetector) (h : History) (call : Call)
    (hr : Remembers windowSize maxSeq s h) :
    ∃ s', SlidingWindowDetector.tokenApi.step s call =
        some (s', (h.step windowSize maxSeq call).2) ∧
      Remembers windowSize maxSeq s' (h.step windowSize maxSeq call).1 := by
  cases call with
  | checkSeq seq =>
    have hcheck : s.detector.checkToken seq =
        some (s.detector, ⟨seq, h.passes windowSize maxSeq seq⟩) := by
      simp only [SlidingWindowDetector.checkToken, hr.checkSeq_eq, Option.bind_eq_bind,
        Option.bind_some]
      cases h.passes windowSize maxSeq seq <;> rfl
    refine ⟨⟨s.detector, s.tokens ++ [⟨seq, h.passes windowSize maxSeq seq⟩]⟩, ?_, ?_⟩
    · simp [CheckAccepter.step, SlidingWindowDetector.tokenApi, hcheck, History.step]
    · refine ⟨hr.maxSeq_eq, hr.windowSize_eq, hr.latest_eq, hr.valid, hr.width, hr.tracks,
        by rw [hr.tokens_eq]; rfl, hr.bounded, ?_⟩
      intro tok htok hpassed
      rcases List.mem_append.mp htok with htok | htok
      · exact hr.issued tok htok hpassed
      · rw [List.mem_singleton.mp htok] at hpassed ⊢
        simp only [History.passes, decide_eq_true_eq] at hpassed
        refine ⟨hpassed.1, ?_⟩
        rcases hpassed.2 with hnew | ⟨hwindow, -⟩
        · exact Or.inr (by simp only; omega)
        · exact Or.inl (by omega)
  | accept issued =>
    unfold CheckAccepter.step History.step
    simp only [hr.tokens_eq]
    cases htok : h.tokens[issued]? with
    | none => exact ⟨s, rfl, hr⟩
    | some tok =>
      have hmem := List.mem_of_getElem? htok
      cases hpassed : tok.passed with
      | false =>
        refine ⟨s, ?_, ?_⟩
        · simp [SlidingWindowDetector.tokenApi, SlidingWindowDetector.accept, hpassed,
            ← hr.tokens_eq]
        · simpa [hpassed] using hr
      | true =>
        obtain ⟨hseq, hzero⟩ := hr.issued tok hmem hpassed
        obtain ⟨d', haccept, hr'⟩ := hr.acceptSeq_spec hmax hw hseq hzero
        refine ⟨⟨d', h.tokens⟩, ?_, ?_⟩
        · simp [SlidingWindowDetector.tokenApi, SlidingWindowDetector.accept, hpassed, haccept]
        · simpa [hpassed, hr.tokens_eq] using hr'

/-- All replies of `New(windowSize, maxSeq)` are those of the accepted history, and no number
accepted so far passes another check. -/
def HistoryExact (windowSize maxSeq : Nat) : Prop :=
  ∀ calls, ∃ s, run SlidingWindowDetector.tokenApi.step
      ⟨SlidingWindowDetector.new windowSize maxSeq, []⟩ calls =
        some (s, (replay (History.step windowSize maxSeq) ⟨[], []⟩ calls).2) ∧
    ∀ seq ∈ (replay (History.step windowSize maxSeq) ⟨[], []⟩ calls).1.accepted,
      s.detector.checkSeq seq = some false

theorem historyExact_of_lt (hmax : 1 ≤ maxSeq) (hw : windowSize ≤ maxSeq)
    (hover : windowSize + 63 < 2 ^ 64) : HistoryExact windowSize maxSeq := by
  intro calls
  obtain ⟨s, hrun, hr⟩ := run_replays (Remembers.step_spec hmax hw) calls
    (remembers_new hover maxSeq)
  refine ⟨s, hrun, fun seq hseq => ?_⟩
  rw [hr.checkSeq_eq, History.passes_accepted _ _ hseq]

/-- With a one-word mask, a check more than a word below the head reads a missing word. -/
theorem run_overflow_panics (hmax : windowSize ≤ maxSeq) (hw : windowSize < 2 ^ 64)
    (hover : 2 ^ 64 ≤ windowSize + 63) :
    run SlidingWindowDetector.tokenApi.step ⟨SlidingWindowDetector.new windowSize maxSeq, []⟩
      [.checkSeq 100, .accept 0, .checkSeq 10] = none := by
  have hchunks : max ((windowSize + 63) % 2 ^ 64 / 64) 1 = 1 := by omega
  have hnew : SlidingWindowDetector.new windowSize maxSeq =
      ⟨0, maxSeq, windowSize, ⟨[0], windowSize, (newFixedBigInt windowSize).msbMask⟩⟩ := by
    simp only [SlidingWindowDetector.new, newFixedBigInt, hchunks, List.replicate_one]
  have hpos : maxSeq ≠ 0 := by omega
  rw [hnew]
  simp [run, CheckAccepter.step, SlidingWindowDetector.tokenApi,
    SlidingWindowDetector.checkToken, SlidingWindowDetector.checkSeq,
    SlidingWindowDetector.accept, SlidingWindowDetector.acceptSeq, FixedBigInt.lsh, lshLoop,
    FixedBigInt.setBit, FixedBigInt.bit, passedToken, hpos, show ¬ maxSeq < 100 by omega,
    show ¬ maxSeq < 10 by omega, show ¬ windowSize = 0 by omega,
    show ¬ windowSize ≤ 90 by omega, show min 100 windowSize = 100 by omega]

/-- The overflow is observable: the specification replies to every call. -/
theorem not_historyExact_of_overflow (hmax : windowSize ≤ maxSeq) (hw : windowSize < 2 ^ 64)
    (hover : 2 ^ 64 ≤ windowSize + 63) : ¬ HistoryExact windowSize maxSeq := by
  intro hexact
  obtain ⟨s, hrun, -⟩ := hexact [.checkSeq 100, .accept 0, .checkSeq 10]
  rw [run_overflow_panics hmax hw hover] at hrun
  cases hrun

/-- The detector has exactly the replies of its history if and only if its window is small
enough for the word count not to overflow. -/
theorem historyExact_iff (hmax : 1 ≤ maxSeq) (hword : maxSeq < 2 ^ 64) (hw : windowSize ≤ maxSeq) :
    HistoryExact windowSize maxSeq ↔ windowSize + 63 < 2 ^ 64 := by
  refine ⟨fun hexact => ?_, historyExact_of_lt hmax hw⟩
  by_contra hover
  exact not_historyExact_of_overflow hw (by omega) (by omega) hexact

/-- The window of a 16-bit counter keeps its exact history. -/
theorem historyExact_window64 : HistoryExact 64 65535 :=
  (historyExact_iff (by decide) (by decide) (by decide)).mpr (by decide)

/-- The largest window panics where the history says that the number passes. -/
theorem full_window_not_historyExact :
    run SlidingWindowDetector.tokenApi.step
        ⟨SlidingWindowDetector.new (2 ^ 64 - 1) (2 ^ 64 - 1), []⟩
        [.checkSeq 100, .accept 0, .checkSeq 10] = none ∧
      (replay (History.step (2 ^ 64 - 1) (2 ^ 64 - 1)) ⟨[], []⟩
        [.checkSeq 100, .accept 0, .checkSeq 10]).2 =
          [.token ⟨100, true⟩, .latest true, .token ⟨10, true⟩] ∧
      ¬ HistoryExact (2 ^ 64 - 1) (2 ^ 64 - 1) :=
  ⟨run_overflow_panics (by decide) (by decide) (by decide), by decide,
    not_historyExact_of_overflow (by decide) (by decide) (by decide)⟩

end PionTransport.Replay
