import Mathlib.Algebra.Order.Ring.Defs
import Mathlib.Tactic.Linarith
import PionTransport.Core.Run

/-!
# Token buckets

A bucket gains tokens at a constant rate and holds at most `burst` of them. What
a meter lets pass in a stretch of time is bounded by what its bucket can hold and
gains in that time: the tokens are a potential that pays for every passage. The
second part states this for any machine with a clock, a level and a meter, whose
arithmetic may be wrong by a little at each use.
-/

namespace PionTransport.Core

variable {R : Type*} [CommRing R] [LinearOrder R] [IsStrictOrderedRing R]

/-- A bucket with the tokens it had when it was last looked at. -/
structure Bucket (R : Type*) where
  rate : R
  burst : R
  tokens : R

namespace Bucket

/-- The tokens after some time. -/
def after (b : Bucket R) (d : R) : R := min b.burst (b.tokens + b.rate * d)

omit [IsStrictOrderedRing R] in
theorem after_le_burst (b : Bucket R) (d : R) : b.after d ≤ b.burst := min_le_left _ _

/-- What is gained in a stretch of time is bounded by any rate above that of the bucket. -/
theorem after_le {b : Bucket R} {d d' e r : R} (hrate : 0 ≤ b.rate) (hr : b.rate ≤ r) (he : 0 ≤ e)
    (hd : d' ≤ d + e) : b.after d' ≤ b.after d + r * e := by
  have hgain : b.rate * d' ≤ b.rate * d + r * e := by
    calc b.rate * d' ≤ b.rate * (d + e) := mul_le_mul_of_nonneg_left hd hrate
      _ = b.rate * d + b.rate * e := mul_add _ _ _
      _ ≤ b.rate * d + r * e := by linarith [mul_le_mul_of_nonneg_right hr he]
  have hpos : 0 ≤ r * e := mul_nonneg (hrate.trans hr) he
  unfold after
  rw [min_add]
  apply min_le_min
  · linarith
  · linarith

end Bucket

section Meter

variable {σ ι ο : Type*} {step : σ → ι → Option (σ × ο)} {P : σ → ι → Prop}
  {clock level spent : σ → R} {rate slack ε : R}

/-- One step of a metered machine: time does not go back, what is spent is paid for up to an error,
and a step that spends leaves the bucket at most `slack` in debt. -/
structure Metered (clock level spent : σ → R) (rate slack ε : R) (s s' : σ) : Prop where
  forward : clock s ≤ clock s'
  paid : spent s' + level s' ≤ spent s + level s + rate * (clock s' - clock s) + ε
  debt : spent s' = spent s ∨ -slack ≤ level s'

/-- What a metered machine spends in a run, if only some of its inputs cause errors. -/
theorem spent_le_of_metered {errs : ι → Bool}
    (hstep : ∀ {s i s' o}, P s i → step s i = some (s', o) →
      Metered clock level spent rate slack (if errs i then ε else 0) s s')
    (hrate : 0 ≤ rate) (hε : 0 ≤ ε) {is : List ι} {s s' : σ} {os : List ο} {x : R}
    (hpot : spent s + level s ≤ x) (hspent : spent s ≤ x + slack) (hP : Along step P s is)
    (hrun : run step s is = some (s', os)) :
    spent s' ≤ x + slack + rate * (clock s' - clock s) + ε * (is.countP errs : Nat) := by
  -- `x` is raised by what each step gains
  induction hrun using run_induct generalizing x with
  | nil => simpa using hspent
  | @cons s i s₁ _ is _ hs _ ih =>
    obtain ⟨hforward, hpaid, hdebt⟩ := hstep hP.1 hs
    set err := if errs i then ε else 0 with herr
    have herrs : 0 ≤ err := by
      rw [herr]
      split
      · exact hε
      · exact le_rfl
    have hgain := mul_le_mul_of_nonneg_left hforward hrate
    have hexpand := mul_sub rate (clock s₁) (clock s)
    have hpot₁ : spent s₁ + level s₁ ≤ x + rate * (clock s₁ - clock s) + err := by linarith
    have hspent₁ : spent s₁ ≤ x + rate * (clock s₁ - clock s) + err + slack := by
      rcases hdebt with heq | hlow
      · rw [heq]
        linarith
      · linarith
    have htail := ih hpot₁ hspent₁ (along_cons hP hs).2
    have hcount : ε * ((i :: is).countP errs : Nat) = ε * (is.countP errs : Nat) + err := by
      rw [List.countP_cons, herr]
      split <;> simp [mul_add]
    rw [hcount]
    linarith [mul_sub rate (clock s') (clock s₁), mul_sub rate (clock s') (clock s)]

end Meter

end PionTransport.Core
