import Mathlib.Algebra.Order.Field.Rat
import PionTransport.Vnet.Chunk
import PionTransport.Vnet.Queue

/-!
# The token bucket filter

An embedding of `TBFQueue` over any `rate.Limiter`. The limiter is another
library's, so it is a parameter here: what is proved holds for every limiter, or for
those that meet a named assumption. Times are nanoseconds after the zero
`time.Time`. A call of `next` uses the limiter up to three times; other goroutines
use it before or after the call.
-/

namespace PionTransport.Vnet.Queueing

/-- The nanoseconds in a second. -/
def second : Int := 1000000000

/-- What is used of `rate.Limiter`, with its states `ℓ` and its reservations `ρ`. Methods that read
the clock are given the time. -/
structure Limiter (ℓ ρ : Type) where
  newLimiter : Int → Int → ℓ
  setLimit : ℓ → Int → Int → ℓ
  setBurst : ℓ → Int → Int → ℓ
  /-- whether `TokensAt` is above a number -/
  tokensAbove : ℓ → Int → Int → Bool
  reserveN : ℓ → Int → Int → ℓ × ρ
  delay : ρ → Int → Int
  cancel : ℓ → ρ → Int → ℓ
  allowN : ℓ → Int → Int → ℓ × Bool

/-- Assumed of the burst of a limiter: only `SetBurst` raises it, and no more than it is granted at
once. -/
structure Limiter.GrantsBurst {ℓ ρ : Type} (L : Limiter ℓ ρ) (burst : ℓ → Int) : Prop where
  setLimit : ∀ l t r, burst (L.setLimit l t r) ≤ burst l
  setBurst : ∀ l t b, burst (L.setBurst l t b) ≤ b
  reserveN : ∀ l t n, burst (L.reserveN l t n).1 ≤ burst l
  cancel : ∀ l res t, burst (L.cancel l res t) ≤ burst l
  allowN : ∀ l t n, burst (L.allowN l t n).1 ≤ burst l
  granted : ∀ l t n, (L.allowN l t n).2 = true → n ≤ burst l

/-- Assumed of a limiter whose rate is at most `R` tokens per second and whose burst is at most `B`:
it has a number of tokens, at most `B` and growing with time at no more than `R`, that pays for what
is granted. Its arithmetic may be wrong by `ε` at each use, and it may grant what leaves a debt of
no more than `slack`, because a wait of a fraction of a nanosecond is no wait. -/
structure Limiter.PaysFor {ℓ ρ : Type} (L : Limiter ℓ ρ) (R B slack ε : ℚ) (within : ℓ → Prop)
    (tokens : ℓ → Int → ℚ) : Prop where
  full : ∀ l t, within l → tokens l t ≤ B
  gain : ∀ l t t', within l → t ≤ t' → tokens l t' ≤ tokens l t + R * ((t' - t) / second)
  setLimit : ∀ l t (r : Int), within l → r ≤ R →
    within (L.setLimit l t r) ∧ tokens (L.setLimit l t r) t ≤ tokens l t + ε
  setBurst : ∀ l t (b : Int), within l → b ≤ B →
    within (L.setBurst l t b) ∧ tokens (L.setBurst l t b) t ≤ tokens l t + ε
  /-- a reservation that is cancelled gains nothing -/
  cancel : ∀ l t t' n, within l → 0 ≤ n → t ≤ t' →
    within (L.cancel (L.reserveN l t n).1 (L.reserveN l t n).2 t') ∧
    tokens (L.cancel (L.reserveN l t n).1 (L.reserveN l t n).2 t') t' ≤
      tokens l t + R * ((t' - t) / second) + ε
  granted : ∀ l t n, within l → 0 ≤ n → (L.allowN l t n).2 = true →
    within (L.allowN l t n).1 ∧ n + tokens (L.allowN l t n).1 t ≤ tokens l t + ε ∧
    -slack ≤ tokens (L.allowN l t n).1 t
  refused : ∀ l t n, within l → 0 ≤ n → (L.allowN l t n).2 = false →
    within (L.allowN l t n).1 ∧ tokens (L.allowN l t n).1 t ≤ tokens l t + ε

/-- `TBFQueue`. -/
structure TBFQueue (ℓ : Type) where
  limiter : ℓ
  chunks : List Chunk := []
  maxSize : Int
  currentSize : Int := 0
  deriving DecidableEq, Repr

/-- The length of a chunk's user data. -/
def len (c : Chunk) : Int := c.userData.length

/-- `SetRate`, `SetBurst` and `SetSize`. -/
inductive Setting
  | rate (r : Int)
  | burst (b : Int)
  | size (s : Int)
  deriving DecidableEq, Repr

namespace TBFQueue

variable {ℓ ρ : Type} (L : Limiter ℓ ρ)

/-- `NewTBFQueue`. -/
def new (r b s : Int) : TBFQueue ℓ := { limiter := L.newLimiter r (b * 8), maxSize := s }

/-- There is nothing to release. -/
def empty (t : TBFQueue ℓ) : Bool := t.chunks.isEmpty

/-- `next` at time `now`; `Delay` and `Cancel` read the clock later. -/
def next (t : TBFQueue ℓ) (now : Int) (d d' : Nat) : TBFQueue ℓ × Int :=
  match t.chunks with
  | [] => (t, 0)
  | c :: _ =>
    if L.tokensAbove t.limiter now (8 * len c) then (t, now)
    else
      let (l, res) := L.reserveN t.limiter now (8 * len c)
      ({ t with limiter := L.cancel l res (now + d + d') }, now + L.delay res (now + d))

/-- Release the head if the limiter grants its bits. -/
def pop (t : TBFQueue ℓ) (now : Int) : TBFQueue ℓ × Option Chunk :=
  match t.chunks with
  | [] => (t, none)
  | c :: rest =>
    match L.allowN t.limiter now (8 * len c) with
    | (l, false) => ({ t with limiter := l }, none)
    | (l, true) =>
      ({ t with limiter := l, chunks := rest, currentSize := t.currentSize - len c }, some c)

/-- Append a chunk; one that does not fit is dropped. -/
def push (t : TBFQueue ℓ) (c : Chunk) : TBFQueue ℓ :=
  if t.currentSize + len c > t.maxSize then t
  else { t with currentSize := t.currentSize + len c, chunks := t.chunks ++ [c] }

/-- Change a setting. -/
def adjust (t : TBFQueue ℓ) (now : Int) : Setting → TBFQueue ℓ
  | .rate r => { t with limiter := L.setLimit t.limiter now r }
  | .burst b => { t with limiter := L.setBurst t.limiter now (b * 8) }
  | .size s => { t with maxSize := s }

end TBFQueue

/-- The filter as the discipline of a queue. -/
def tbf {ℓ ρ : Type} (L : Limiter ℓ ρ) : Discipline (TBFQueue ℓ) Chunk Setting where
  push := TBFQueue.push
  pop := TBFQueue.pop L
  empty := TBFQueue.empty
  next := TBFQueue.next L
  adjust := TBFQueue.adjust L

namespace TBFQueue

variable {ℓ ρ : Type} {L : Limiter ℓ ρ} {t t' : TBFQueue ℓ} {now : Int} {c : Chunk}

theorem len_nonneg (c : Chunk) : 0 ≤ len c := Int.natCast_nonneg _

theorem bits_nonneg (c : Chunk) : 0 ≤ 8 * len c := by
  have hlen := len_nonneg c
  omega

/-- `next` only uses the limiter: not at all, or for a reservation that it cancels. -/
theorem next_cases (L : Limiter ℓ ρ) (t : TBFQueue ℓ) (now : Int) (d d' : Nat) :
    (t.next L now d d').1 = t ∨ ∃ n, 0 ≤ n ∧ (t.next L now d d').1 = { t with
      limiter := L.cancel (L.reserveN t.limiter now n).1 (L.reserveN t.limiter now n).2
        (now + d + d') } := by
  unfold next
  split
  · exact .inl rfl
  next c rest hc =>
    split
    · exact .inl rfl
    · exact .inr ⟨8 * len c, bits_nonneg c, rfl⟩

/-- `pop` releases the head when its bits are granted. -/
theorem pop_some (h : t.pop L now = (t', some c)) : ∃ rest l, t.chunks = c :: rest ∧
    L.allowN t.limiter now (8 * len c) = (l, true) ∧
    t' = { t with limiter := l, chunks := rest, currentSize := t.currentSize - len c } := by
  unfold pop at h
  split at h
  · cases h
  next d rest hc =>
    split at h
    · cases h
    next l hallow =>
      cases h
      exact ⟨rest, l, hc, hallow, rfl⟩

/-- Otherwise it uses the limiter at most. -/
theorem pop_none (h : t.pop L now = (t', none)) : t' = t ∨ ∃ n l, 0 ≤ n ∧
    L.allowN t.limiter now n = (l, false) ∧ t' = { t with limiter := l } := by
  unfold pop at h
  split at h
  · cases h
    exact .inl rfl
  next c rest hc =>
    split at h
    next l hallow =>
      cases h
      exact .inr ⟨8 * len c, l, bits_nonneg c, hallow, rfl⟩
    · cases h

/-- `push` appends a chunk that fits. -/
theorem push_cases (t : TBFQueue ℓ) (c : Chunk) :
    (t.maxSize < t.currentSize + len c ∧ t.push c = t) ∨
    (t.currentSize + len c ≤ t.maxSize ∧
      t.push c = { t with currentSize := t.currentSize + len c, chunks := t.chunks ++ [c] }) := by
  unfold push
  split
  next h => exact .inl ⟨h, rfl⟩
  next h => exact .inr ⟨by omega, rfl⟩

end TBFQueue

end PionTransport.Vnet.Queueing
