import PionTransport.Core.TokenBucket
import PionTransport.Vnet.Queueing
import PionTransport.Vnet.TBFQueue

/-!
# What the token bucket filter guarantees

A queue with the token bucket filter forwards what it admits in order and keeps
its size, whatever its limiter does. If the limiter's tokens pay for what it grants,
the bits that pass in a stretch of a run are bounded by the burst, by what the rate
gains in that time and by the errors of the limiter. If it grants no more than its
burst, a chunk with more bits is never released, and nothing behind it is.
-/

namespace PionTransport.Vnet.Queueing

open PionTransport.Core

/-- The bytes of some chunks. -/
def totalLen (cs : List Chunk) : Int := (cs.map len).sum

@[simp] theorem totalLen_nil : totalLen [] = 0 := rfl

@[simp] theorem totalLen_cons (c : Chunk) (cs : List Chunk) :
    totalLen (c :: cs) = len c + totalLen cs := by
  simp [totalLen]

@[simp] theorem totalLen_append (cs ds : List Chunk) :
    totalLen (cs ++ ds) = totalLen cs + totalLen ds := by
  simp [totalLen]

variable {ℓ ρ : Type} {L : Limiter ℓ ρ} {q q' : Queue (TBFQueue ℓ) Chunk}
  {e : Event Chunk Setting} {o : Outcome} {es es' : List (Event Chunk Setting)}
  {os os' : List Outcome}

/-- The filter keeps its chunks in order. -/
theorem tbf_fifo : (tbf L).Fifo TBFQueue.chunks where
  push := by
    intro t c
    rcases t.push_cases c with ⟨-, h⟩ | ⟨-, h⟩
    · exact .inr (congrArg TBFQueue.chunks h)
    · exact .inl (congrArg TBFQueue.chunks h)
  hold := by
    intro t t' now hpop
    rcases TBFQueue.pop_none hpop with rfl | ⟨n, l, -, -, rfl⟩ <;> rfl
  release := by
    intro t t' now c hpop
    obtain ⟨rest, l, hc, -, rfl⟩ := TBFQueue.pop_some hpop
    exact hc
  next := by
    intro t now d d'
    dsimp only [tbf]
    rcases t.next_cases L now d d' with h | ⟨n, -, h⟩ <;> rw [h]
  adjust := by
    intro t now k
    cases k <;> rfl

/-- The size is that of the chunks, and no more than was ever allowed. -/
structure Sized (M : Int) (t : TBFQueue ℓ) : Prop where
  size : t.currentSize = totalLen t.chunks
  bound : t.currentSize ≤ max M 0
  allowed : t.maxSize ≤ M

/-- No call allows more than `M` bytes. -/
def SizeWithin (M : Int) : Event Chunk Setting → Prop
  | .adjust (.size s) => s ≤ M
  | _ => True

theorem Sized.step {M : Int} (h : Sized M q.data) (he : SizeWithin M e)
    (hstep : q.step (tbf L) e = some (q', o)) : Sized M q'.data := by
  have huse : ∀ l : ℓ, Sized M { q.data with limiter := l } := fun l => ⟨h.size, h.bound, h.allowed⟩
  cases step_transition hstep with
  | @adjust k =>
    cases k with
    | rate | burst => exact huse _
    | size s => exact ⟨h.size, h.bound, he⟩
  | @arm d d' _ _ =>
    dsimp only [tbf]
    rcases q.data.next_cases L q.now d d' with heq | ⟨n, -, heq⟩ <;> rw [heq]
    · exact h
    · exact huse _
  | @store c _ =>
    dsimp only [tbf]
    rcases q.data.push_cases c with ⟨-, heq⟩ | ⟨hfits, heq⟩ <;> rw [heq]
    · exact h
    · exact ⟨by simp [h.size], (hfits.trans h.allowed).trans (le_max_left _ _), h.allowed⟩
  | hold _ hpop =>
    rcases TBFQueue.pop_none hpop with rfl | ⟨n, l, -, -, rfl⟩
    · exact h
    · exact huse l
  | @release _ c _ hpop =>
    obtain ⟨rest, l, hc, -, rfl⟩ := TBFQueue.pop_some hpop
    have hsize := h.size
    rw [hc, totalLen_cons] at hsize
    have hbound := h.bound
    have hlen := TBFQueue.len_nonneg c
    exact ⟨by dsimp only; omega, by dsimp only; omega, h.allowed⟩
  | _ => exact h

/-- What the queue forwards, has in hand and keeps is a part of what it received, in order, and each
received chunk is that of another call. What it keeps has the size it counts, which is within the
largest size that was set, or zero. -/
theorem queue_forwards_in_order {M r b s now : Int} (hs : s ≤ M) (hes : ∀ e ∈ es, SizeWithin M e)
    (hrun : run (Queue.step (tbf L)) (newQueue now (TBFQueue.new L r b s)) es = some (q, os)) :
    List.Sublist (q.forwarded ++ q.loop.inHand ++ q.data.chunks) q.receivedChunks ∧
    q.received.Nodup ∧ (∀ i, i ∈ q.received ↔ ∃ c, q.producers[i]? = some ⟨c, .taken⟩) ∧
    q.data.currentSize = totalLen q.data.chunks ∧ totalLen q.data.chunks ≤ max M 0 := by
  have haccount := accounted_run tbf_fifo rfl hrun
  have hsized : Sized M q.data :=
    keeps_along (I := fun q => Sized M q.data) (P := fun _ e => SizeWithin M e)
      (fun h he hs => h.step he hs) ⟨rfl, le_max_right M 0, hs⟩
      (along_of_mem (fun e he _ => hes e he) _) hrun
  obtain ⟨l, hl, hsub⟩ := haccount.ordered
  refine ⟨?_, haccount.distinct, haccount.taken, hsized.size, hsized.size ▸ hsized.bound⟩
  rw [← haccount.handed, hl]
  exact hsub.trans (List.sublist_append_left _ _)

/-- A limiter that counts its tokens exactly. -/
structure ExactLimiter where
  rate : ℚ
  burst : Int
  tokens : ℚ
  last : Int := 0
  deriving DecidableEq

namespace ExactLimiter

/-- The tokens at a time. -/
def tokensAt (l : ExactLimiter) (t : Int) : ℚ :=
  Bucket.after ⟨l.rate, l.burst, l.tokens⟩ ((t - l.last) / second)

/-- The rate and the burst are within the bounds. -/
def Within (R B : ℚ) (l : ExactLimiter) : Prop := 0 ≤ l.rate ∧ l.rate ≤ R ∧ l.burst ≤ B
  deriving Decidable

theorem tokensAt_le_burst (l : ExactLimiter) (t : Int) : l.tokensAt t ≤ l.burst :=
  Bucket.after_le_burst _ _

/-- A limiter that was just used has the tokens that it was left with. -/
theorem tokensAt_last (l : ExactLimiter) (t : Int) :
    { l with last := t }.tokensAt t = min (l.burst : ℚ) l.tokens := by
  simp [tokensAt, Bucket.after]

end ExactLimiter

/-- Exact counting, with reservations that are only looked at. -/
def exactly : Limiter ExactLimiter Int where
  newLimiter r b := { rate := max 0 r, burst := b, tokens := b }
  setLimit l t r := { l with rate := max 0 r, tokens := l.tokensAt t, last := t }
  setBurst l t b := { l with burst := b, tokens := l.tokensAt t, last := t }
  tokensAbove l t n := n < l.tokensAt t
  reserveN l t n := (l, ((n - l.tokensAt t) / l.rate * second).ceil)
  delay d _ := max 0 d
  cancel l _ _ := l
  allowN l t n :=
    if n ≤ l.tokensAt t then ({ l with tokens := l.tokensAt t - n, last := t }, true)
    else (l, false)

theorem exactly_grantsBurst : exactly.GrantsBurst ExactLimiter.burst where
  setLimit _ _ _ := le_rfl
  setBurst _ _ _ := le_rfl
  reserveN _ _ _ := le_rfl
  cancel _ _ _ := le_rfl
  allowN l t n := by
    unfold exactly
    dsimp only
    split <;> exact le_rfl
  granted l t n h := by
    unfold exactly at h
    dsimp only at h
    split at h
    next hle => exact_mod_cast hle.trans (l.tokensAt_le_burst t)
    · cases h

theorem exactly_paysFor {R B : ℚ} :
    exactly.PaysFor R B 0 0 (ExactLimiter.Within R B) ExactLimiter.tokensAt := by
  have hgain : ∀ l (t t' : Int), ExactLimiter.Within R B l → t ≤ t' →
      l.tokensAt t' ≤ l.tokensAt t + R * ((t' - t) / second) := by
    intro l t t' h ht
    have hlater : (0 : ℚ) ≤ (t' - t) / second :=
      div_nonneg (sub_nonneg.mpr (by exact_mod_cast ht)) (by decide)
    refine Bucket.after_le h.1 h.2.1 hlater (le_of_eq ?_)
    rw [← add_div, sub_add_sub_cancel']
  refine ⟨fun l t h => (l.tokensAt_le_burst t).trans h.2.2, hgain, fun l t r h hr => ?_,
    fun l t b h hb => ?_, fun l t t' n h _ ht => ?_, fun l t n h hn hgranted => ?_,
    fun l t n h _ hrefused => ?_⟩
  · refine ⟨⟨le_max_left _ _, max_le (h.1.trans h.2.1) hr, h.2.2⟩, ?_⟩
    have hlast := ExactLimiter.tokensAt_last { l with rate := max 0 r, tokens := l.tokensAt t } t
    exact (hlast.le.trans (min_le_right _ _)).trans (add_zero _).ge
  · refine ⟨⟨h.1, h.2.1, hb⟩, ?_⟩
    have hlast := ExactLimiter.tokensAt_last { l with burst := b, tokens := l.tokensAt t } t
    exact (hlast.le.trans (min_le_right _ _)).trans (add_zero _).ge
  · exact ⟨h, (hgain l t t' h ht).trans (add_zero _).ge⟩
  · have hle : n ≤ l.tokensAt t := by
      by_contra hlt
      simp [exactly, hlt] at hgranted
    have hn' : (0 : ℚ) ≤ n := by exact_mod_cast hn
    have hburst := l.tokensAt_le_burst t
    simp only [exactly, if_pos hle]
    rw [ExactLimiter.tokensAt_last { l with tokens := l.tokensAt t - n } t]
    refine ⟨h, ?_, ?_⟩
    · linarith [min_le_right (l.burst : ℚ) (l.tokensAt t - n)]
    · rw [neg_zero]
      exact le_min (by linarith) (by linarith)
  · have hlt : ¬ (n ≤ l.tokensAt t) := by
      intro hle
      simp [exactly, hle] at hrefused
    simp only [exactly, if_neg hlt]
    exact ⟨h, by rw [add_zero]⟩

/-- A UDP chunk with so many bytes. -/
def datagram (n : Nat) : Chunk :=
  .udp { timestamp := 0, sourceIP := default, destinationIP := default, tag := ""
         duplicate := false, sourcePort := 1, destinationPort := 2
         userData := List.replicate n 0 }

/-- A call hands its chunk to a loop that finds nothing else. -/
def arrives (i : Nat) (c : Chunk) : List (Event Chunk Setting) :=
  [.call c, .check, .ask 0 0, .receive i, .store, .check, .ask 0 0]

/-- A chunk arrives and can go at once. -/
def passes (i : Nat) (c : Chunk) : List (Event Chunk Setting) :=
  arrives i c ++ [.fire, .pop, .hand, .handed]

/-- One chunk has gone and the next one waits for its tokens. -/
def halfway : Queue (TBFQueue ExactLimiter) Chunk where
  data := { limiter := { rate := 8, burst := 16, tokens := 0 }
            chunks := [datagram 1], maxSize := 3, currentSize := 1 }
  now := 0
  loop := .selecting (some second)
  producers := [⟨datagram 2, .taken⟩, ⟨datagram 1, .taken⟩]
  received := [0, 1]
  popped := [(0, datagram 2)]
  forwarded := [datagram 2]

theorem queue_forwards_in_order_two :
    let events := passes 0 (datagram 2) ++ arrives 1 (datagram 1)
    run (Queue.step (tbf exactly)) (newQueue 0 (TBFQueue.new exactly 8 2 3)) events =
      some (halfway, List.replicate 18 .moved) ∧
    List.Sublist (halfway.forwarded ++ halfway.loop.inHand ++ halfway.data.chunks)
      halfway.receivedChunks := by
  intro events
  have hrun : run (Queue.step (tbf exactly)) (newQueue 0 (TBFQueue.new exactly 8 2 3)) events =
    some (halfway, List.replicate 18 .moved) := by decide +kernel
  have hes : ∀ e ∈ events, SizeWithin 3 e := by simp [events, passes, arrives, SizeWithin]
  exact ⟨hrun, (queue_forwards_in_order (by decide) hes hrun).1⟩

section Rate

variable {R B slack ε : ℚ} {within : ℓ → Prop} {tokens : ℓ → Int → ℚ}

/-- The bits that were let pass. -/
def spent (q : Queue (TBFQueue ℓ) Chunk) : ℚ := 8 * totalLen (q.popped.map Prod.snd)

/-- The time in seconds. -/
def clock (q : Queue (TBFQueue ℓ) Chunk) : ℚ := q.now / second

/-- The tokens at the present time. -/
def level (tokens : ℓ → Int → ℚ) (q : Queue (TBFQueue ℓ) Chunk) : ℚ := tokens q.data.limiter q.now

/-- No call sets a higher rate than `R` bits per second or a higher burst than `B` bits. -/
def RateWithin (R B : ℚ) : Event Chunk Setting → Prop
  | .adjust (.rate r) => r ≤ R
  | .adjust (.burst b) => (b * 8 : Int) ≤ B
  | _ => True

/-- The step may use the limiter. -/
def usesLimiter : Event Chunk Setting → Bool
  | .adjust (.rate _) | .adjust (.burst _) | .ask _ _ | .pop => true
  | _ => false

/-- Every step keeps the limits and pays for what it lets pass. -/
theorem metered_step (hL : L.PaysFor R B slack ε within tokens) (hε : 0 ≤ ε)
    (h : within q.data.limiter) (he : RateWithin R B e)
    (hstep : q.step (tbf L) e = some (q', o)) :
    within q'.data.limiter ∧ Metered clock (level tokens) spent R slack
      (if usesLimiter e then ε else 0) q q' := by
  have herr : 0 ≤ if usesLimiter e then ε else 0 := by
    split
    · exact hε
    · exact le_rfl
  -- time passes, and nothing is let pass
  have hpass : ∀ {p : Queue (TBFQueue ℓ) Chunk} {err : ℚ}, p.popped = q.popped → q.now ≤ p.now →
      level tokens p ≤ level tokens q + R * ((p.now - q.now) / second) + err →
      Metered clock (level tokens) spent R slack err q p := by
    intro p err hpopped hnow hlevel
    have hclock : clock p - clock q = (p.now - q.now) / second := (sub_div _ _ _).symm
    have hspent : spent p = spent q := by rw [spent, spent, hpopped]
    have hforward : clock q ≤ clock p :=
      div_le_div_of_nonneg_right (by exact_mod_cast hnow) (by decide)
    exact ⟨hforward, by rw [hclock, hspent]; linarith, .inl hspent⟩
  -- a step that uses neither the clock nor the limiter
  have hstill : ∀ {p : Queue (TBFQueue ℓ) Chunk}, p.now = q.now → p.popped = q.popped →
      p.data.limiter = q.data.limiter → within p.data.limiter ∧
        Metered clock (level tokens) spent R slack (if usesLimiter e then ε else 0) q p := by
    intro p hnow hpopped hlimiter
    refine ⟨hlimiter ▸ h, hpass hpopped hnow.ge ?_⟩
    rw [level, level, hlimiter, hnow]
    simpa using herr
  -- a use of the limiter that grants nothing
  have huse : ∀ {p : Queue (TBFQueue ℓ) Chunk}, p.now = q.now → p.popped = q.popped →
      within p.data.limiter ∧ tokens p.data.limiter q.now ≤ tokens q.data.limiter q.now + ε →
      within p.data.limiter ∧ Metered clock (level tokens) spent R slack ε q p := by
    intro p hnow hpopped hlimiter
    refine ⟨hlimiter.1, hpass hpopped hnow.ge ?_⟩
    rw [level, level, hnow]
    simpa using hlimiter.2
  cases step_transition hstep with
  | @elapse d =>
    refine ⟨h, hpass rfl (by dsimp only; omega) ?_⟩
    exact le_add_of_le_of_nonneg (hL.gain _ q.now (q.now + d) h (by omega)) herr
  | @adjust k =>
    cases k with
    | rate r => exact huse rfl rfl (hL.setLimit _ q.now r h he)
    | burst b => exact huse rfl rfl (hL.setBurst _ q.now (b * 8) h he)
    | size s => exact hstill rfl rfl rfl
  | @arm d d' _ _ =>
    have hlater : q.now ≤ q.now + d + d' := by omega
    dsimp only [tbf]
    rcases q.data.next_cases L q.now d d' with heq | ⟨n, hn, heq⟩ <;> rw [heq]
    · refine ⟨h, hpass rfl hlater ?_⟩
      exact le_add_of_le_of_nonneg (hL.gain _ q.now (q.now + d + d') h hlater) herr
    · obtain ⟨hwithin, hlevel⟩ := hL.cancel _ q.now (q.now + d + d') n h hn hlater
      exact ⟨hwithin, hpass rfl hlater hlevel⟩
  | @store c _ =>
    refine hstill rfl rfl ?_
    dsimp only [tbf]
    rcases q.data.push_cases c with ⟨-, heq⟩ | ⟨-, heq⟩ <;> rw [heq]
  | hold _ hpop =>
    rcases TBFQueue.pop_none hpop with rfl | ⟨n, l, hn, hallow, rfl⟩
    · exact hstill rfl rfl rfl
    · have hrefused := hL.refused _ q.now n h hn
      rw [hallow] at hrefused
      exact huse rfl rfl (hrefused rfl)
  | @release _ c _ hpop =>
    obtain ⟨rest, l, -, hallow, rfl⟩ := TBFQueue.pop_some hpop
    have hgranted := hL.granted _ q.now (8 * len c) h (TBFQueue.bits_nonneg c)
    rw [hallow] at hgranted
    obtain ⟨hwithin, hpaid, hdebt⟩ := hgranted rfl
    refine ⟨hwithin, le_rfl, ?_, .inr hdebt⟩
    simp only [spent, level, clock, List.map_append, totalLen_append, List.map_cons, List.map_nil,
      totalLen_cons, totalLen_nil, usesLimiter]
    push_cast at hpaid ⊢
    linarith
  | _ => exact hstill rfl rfl rfl

end Rate

section Burst

variable {burst : ℓ → Int}

/-- The head has more bits than the burst. -/
def Oversized (burst : ℓ → Int) (c : Chunk) (t : TBFQueue ℓ) : Prop :=
  t.chunks.head? = some c ∧ burst t.limiter < 8 * len c

/-- No call sets a burst that is large enough for the chunk. -/
def BurstBelow (c : Chunk) : Event Chunk Setting → Prop
  | .adjust (.burst b) => b < len c
  | _ => True

/-- A use of the limiter that does not raise the burst. -/
theorem Oversized.use {c : Chunk} {t : TBFQueue ℓ} (h : Oversized burst c t) {l : ℓ}
    (hl : burst l ≤ burst t.limiter) : Oversized burst c { t with limiter := l } :=
  ⟨h.1, lt_of_le_of_lt hl h.2⟩

/-- A head with more bits than the burst is not released. -/
theorem Oversized.pop_ne (hL : L.GrantsBurst burst) {c d : Chunk} {t t' : TBFQueue ℓ} {now : Int}
    (h : Oversized burst c t) : t.pop L now ≠ (t', some d) := by
  intro hpop
  obtain ⟨rest, l, hc, hallow, -⟩ := TBFQueue.pop_some hpop
  have hd : d = c := by simpa [hc] using h.1
  have hfits := hL.granted t.limiter now (8 * len d)
  rw [hallow, hd] at hfits
  exact absurd (hfits rfl) (not_le.mpr h.2)

theorem Oversized.step (hL : L.GrantsBurst burst) {c : Chunk} (h : Oversized burst c q.data)
    (he : BurstBelow c e) (hstep : q.step (tbf L) e = some (q', o)) :
    Oversized burst c q'.data ∧ q'.popped = q.popped := by
  cases step_transition hstep with
  | @adjust k =>
    cases k with
    | rate r => exact ⟨h.use (hL.setLimit _ _ _), rfl⟩
    | burst b =>
      have hb : b < len c := he
      refine ⟨⟨h.1, lt_of_le_of_lt (hL.setBurst _ _ _) ?_⟩, rfl⟩
      omega
    | size s => exact ⟨h, rfl⟩
  | @arm d d' _ _ =>
    dsimp only [tbf]
    rcases q.data.next_cases L q.now d d' with heq | ⟨n, -, heq⟩ <;> rw [heq]
    · exact ⟨h, rfl⟩
    · exact ⟨h.use ((hL.cancel _ _ _).trans (hL.reserveN _ _ _)), rfl⟩
  | @store d _ =>
    dsimp only [tbf]
    rcases q.data.push_cases d with ⟨-, heq⟩ | ⟨-, heq⟩ <;> rw [heq]
    · exact ⟨h, rfl⟩
    · exact ⟨⟨by simp [h.1], h.2⟩, rfl⟩
  | hold _ hpop =>
    rcases TBFQueue.pop_none hpop with rfl | ⟨n, l, -, hallow, rfl⟩
    · exact ⟨h, rfl⟩
    · have hkept := hL.allowN q.data.limiter q.now n
      rw [hallow] at hkept
      exact ⟨h.use hkept, rfl⟩
  | release _ hpop => exact absurd hpop (h.pop_ne hL)
  | _ => exact ⟨h, rfl⟩

/-- Once the head has more bits than the burst, and for as long as no call raises the burst, the
queue forwards nothing but the chunk it may have in hand, whatever arrives and however long it
waits. -/
theorem oversized_head_blocks (hL : L.GrantsBurst burst) {c : Chunk} {r b s now : Int}
    (hrun : run (Queue.step (tbf L)) (newQueue now (TBFQueue.new L r b s)) es = some (q, os))
    (hhead : q.data.chunks.head? = some c) (hburst : burst q.data.limiter < 8 * len c)
    (hes : ∀ e ∈ es', BurstBelow c e)
    (hrun' : run (Queue.step (tbf L)) q es' = some (q', os')) :
    q'.data.chunks.head? = some c ∧
    q'.forwarded ++ q'.loop.inHand = q.forwarded ++ q.loop.inHand := by
  have hkept : Oversized burst c q'.data ∧ q'.popped = q.popped :=
    keeps_along (I := fun p => Oversized burst c p.data ∧ p.popped = q.popped)
      (P := fun _ e => BurstBelow c e)
      (fun h he hs => ⟨(h.1.step hL he hs).1, (h.1.step hL he hs).2.trans h.2⟩)
      ⟨⟨hhead, hburst⟩, rfl⟩ (along_of_mem (fun e he _ => hes e he) q) hrun'
  have haccount := accounted_run tbf_fifo rfl hrun
  have haccount' : Accounted TBFQueue.chunks q' :=
    keeps_of_step (fun h hs => h.step tbf_fifo hs) haccount hrun'
  refine ⟨hkept.1.1, ?_⟩
  rw [← haccount'.handed, ← haccount.handed, hkept.2]

theorem oversized_head_blocks_small :
    let q : Queue (TBFQueue ExactLimiter) Chunk :=
      { data := { limiter := { rate := 16, burst := 32, tokens := 32 }, chunks := [datagram 5]
                  maxSize := 100, currentSize := 5 }
        now := 0, loop := .selecting (some 500000000), producers := [⟨datagram 5, .taken⟩]
        received := [0] }
    let q' : Queue (TBFQueue ExactLimiter) Chunk :=
      { data := { q.data with chunks := [datagram 5, datagram 1], currentSize := 6 }
        now := 1000, producers := [⟨datagram 5, .taken⟩, ⟨datagram 1, .taken⟩], received := [0, 1] }
    run (Queue.step (tbf exactly)) (newQueue 0 (TBFQueue.new exactly 16 4 100))
      (arrives 0 (datagram 5)) = some (q, List.replicate 7 .moved) ∧
    run (Queue.step (tbf exactly)) q [.call (datagram 1), .receive 1, .store, .elapse 1000] =
      some (q', List.replicate 4 .moved) ∧
    q'.forwarded ++ q'.loop.inHand = q.forwarded ++ q.loop.inHand := by
  intro q q'
  have hrun : run (Queue.step (tbf exactly)) (newQueue 0 (TBFQueue.new exactly 16 4 100))
    (arrives 0 (datagram 5)) = some (q, List.replicate 7 .moved) := by decide +kernel
  have hrun' : run (Queue.step (tbf exactly)) q
    [.call (datagram 1), .receive 1, .store, .elapse 1000] =
      some (q', List.replicate 4 .moved) := by decide +kernel
  exact ⟨hrun, hrun', (oversized_head_blocks exactly_grantsBurst hrun rfl (by decide)
    (by simp [BurstBelow]) hrun').2⟩

end Burst

end PionTransport.Vnet.Queueing
