import Mathlib.Data.Bool.Count
import Mathlib.Data.List.Perm.Basic
import PionTransport.Vnet.Loss

/-!
# Every block loses the configured share

The answers of a shuffling handler are cut into blocks of the block size, where a
rate that is set at once starts a new block. A block has the drops that the rate
in force at its start asks for: a pass over the old block always reaches the
number, whatever the order of its entries, and a shuffle keeps it.
-/

namespace PionTransport.Vnet.Loss

open PionTransport.Core

/-- A block: the chance most recently set when it started, and its answers so far. -/
structure Block where
  chance : Int
  answers : List Bool
  deriving DecidableEq, Repr

/-- The blocks of a handler: the chance most recently set, the blocks that have ended, and the
present one. -/
structure Blocks where
  chance : Int
  past : List Block
  present : Block
  deriving DecidableEq, Repr

/-- A block starts with the handler. -/
def Blocks.start (chance : Int) : Blocks := ⟨chance, [], ⟨chance, []⟩⟩

/-- A block starts with the answer after the last one of a full block, and with every rate that is
set at once. -/
def Blocks.record (b : Nat) (h : Blocks) : Call → Outcome → Blocks
  | .shouldDrop _, .answer drop =>
    if h.present.answers.length = b then
      { h with past := h.past ++ [h.present], present := ⟨h.chance, [drop]⟩ }
    else { h with present := ⟨h.present.chance, h.present.answers ++ [drop]⟩ }
  | .setLossRate chance true _, .set => ⟨chance, h.past ++ [h.present], ⟨chance, []⟩⟩
  | .setLossRate chance false _, .set => { h with chance := chance }
  | _, _ => h

/-- The drops of a block, rounded. -/
def dropsPerBlock (chance : Int) (b : Nat) : Int := (chance * b + 50) / 100

/-- A full block has its drops. -/
def Block.Exact (b : Nat) (block : Block) : Prop :=
  block.answers.length = b → (block.answers.count true : Int) = dropsPerBlock block.chance b

/-- `Shuffle` swaps entries of the block. -/
def Yield.InRange (b : Nat) (g : Yield) : Prop := ∀ s ∈ g.swaps, s.1 < b ∧ s.2 < b

/-- The generator of a call. -/
def Call.yield : Call → Yield
  | .shouldDrop g => g
  | .setLossRate _ _ g => g

section Rounding

variable {b : Nat} {chance : Int}

theorem dropsPerBlock_nonneg (hlow : 0 ≤ chance) : 0 ≤ dropsPerBlock chance b := by
  have hmul : 0 ≤ chance * b := Int.mul_nonneg hlow (Int.natCast_nonneg b)
  unfold dropsPerBlock
  omega

theorem dropsPerBlock_le (hhigh : chance ≤ 100) : dropsPerBlock chance b ≤ b := by
  have hmul : chance * b ≤ 100 * b := Int.mul_le_mul_of_nonneg_right hhigh (Int.natCast_nonneg b)
  unfold dropsPerBlock
  omega

/-- Without an overflow the machine computes the rounded share. -/
theorem calculateDropsPerBlock_eq (hlow : 0 ≤ chance) (hhigh : chance ≤ 100)
    (hb : 100 * (b : Int) + 50 < 2 ^ 63) :
    calculateDropsPerBlock chance b = dropsPerBlock chance b := by
  have hnonneg : 0 ≤ chance * b := Int.mul_nonneg hlow (Int.natCast_nonneg b)
  have hmul : chance * b ≤ 100 * b := Int.mul_le_mul_of_nonneg_right hhigh (Int.natCast_nonneg b)
  unfold calculateDropsPerBlock dropsPerBlock
  rw [int64_eq (x := chance * b) (by omega) (by omega), int64_eq (by omega) (by omega)]
  exact Int.tdiv_eq_ediv_of_nonneg (by omega)

end Rounding

section Shuffling

variable {b : Nat} {block : List Bool}

/-- A swap in range permutes the block. -/
theorem swap_eq {i j : Nat} (hi : i < block.length) (hj : j < block.length) :
    swap block i j = some (block.swap i j) := by
  rw [List.swap_eq_of_lt hi hj, swap, List.getElem?_eq_getElem hi, List.getElem?_eq_getElem hj]
  rfl

/-- A shuffle with swaps in range permutes the block. -/
theorem shuffle_perm {swaps : List (Nat × Nat)} (hlen : block.length = b)
    (hswaps : ∀ s ∈ swaps, s.1 < b ∧ s.2 < b) :
    ∃ block', shuffle block swaps = some block' ∧ block'.Perm block := by
  induction swaps generalizing block with
  | nil => exact ⟨block, rfl, .refl block⟩
  | cons s swaps ih =>
    obtain ⟨hi, hj⟩ := hswaps s List.mem_cons_self
    rw [← hlen] at hi hj
    have hperm := block.swap_perm s.1 s.2
    obtain ⟨block', hshuffle, hperm'⟩ := ih (hperm.length_eq.trans hlen)
      fun s hs => hswaps s (List.mem_cons_of_mem _ hs)
    refine ⟨block', ?_, hperm'.trans hperm⟩
    rw [shuffle, swap_eq hi hj]
    exact hshuffle

/-- One pass reaches every number of drops between none and all, and counts what it changes. -/
theorem adjust_spec (block : List Bool) (pending current : Int)
    (hlow : current - block.count true ≤ pending) (hhigh : pending ≤ current + block.count false) :
    (adjust pending current block).1 = pending ∧
      (adjust pending current block).2.length = block.length ∧
      ((adjust pending current block).2.count true : Int) =
        block.count true + (pending - current) := by
  induction block generalizing current with
  | nil =>
    simp only [List.count_nil] at hlow hhigh
    have heq : pending = current := by omega
    simp [adjust, heq]
  | cons drop block ih =>
    rw [adjust]
    by_cases heq : pending = current
    · simp [heq]
    · rw [if_neg heq]
      cases drop with
      | false =>
        simp only [List.count_cons_self, List.count_cons_of_ne (by decide : false ≠ true)]
          at hlow hhigh ⊢
        by_cases hmore : pending > current
        · obtain ⟨hcurrent, hlength, hcount⟩ := ih (current + 1) (by omega) (by omega)
          rw [if_pos ⟨hmore, trivial⟩]
          refine ⟨hcurrent, by simp [hlength], ?_⟩
          rw [List.count_cons_self]
          omega
        · obtain ⟨hcurrent, hlength, hcount⟩ := ih current (by omega) (by omega)
          rw [if_neg (fun h => hmore h.1), if_neg (by simp)]
          refine ⟨hcurrent, by simp [hlength], ?_⟩
          rw [List.count_cons_of_ne (by decide)]
          exact hcount
      | true =>
        simp only [List.count_cons_self, List.count_cons_of_ne (by decide : true ≠ false)]
          at hlow hhigh ⊢
        rw [if_neg (by simp)]
        by_cases hless : pending < current
        · obtain ⟨hcurrent, hlength, hcount⟩ := ih (current - 1) (by omega) (by omega)
          rw [if_pos ⟨hless, trivial⟩]
          refine ⟨hcurrent, by simp [hlength], ?_⟩
          rw [List.count_cons_of_ne (by decide)]
          omega
        · obtain ⟨hcurrent, hlength, hcount⟩ := ih current (by omega) (by omega)
          rw [if_neg (fun h => hless h.1)]
          refine ⟨hcurrent, by simp [hlength], ?_⟩
          rw [List.count_cons_self]
          omega

/-- The block that is filled at the start. -/
theorem fill_replicate {n : Nat} (hn : n ≤ b) : ∃ block,
    fill n (List.replicate b false) = some block ∧ block.length = b ∧ block.count true = n := by
  induction n generalizing b with
  | zero => exact ⟨_, rfl, by simp, by simp [List.count_replicate]⟩
  | succ n ih =>
    obtain ⟨b, rfl⟩ : ∃ b', b = b' + 1 := ⟨b - 1, by omega⟩
    obtain ⟨block, hfill, hlength, hcount⟩ := ih (Nat.le_of_succ_le_succ hn)
    refine ⟨true :: block, ?_, by simp [hlength], by simp [hcount]⟩
    rw [List.replicate_succ, fill, hfill]
    rfl

/-- A shuffled block has the pending drops, and starts again. -/
theorem shuffleBlock_spec {r : LossHandle} {g : Yield} (hg : g.InRange b)
    (hlen : r.shuffledBlock.length = b) (hcurrent : r.currentDrops = r.shuffledBlock.count true)
    (hlow : 0 ≤ r.pendingDrops) (hhigh : r.pendingDrops ≤ b) :
    ∃ block, r.shuffleBlock g = some { r with
        currentDrops := r.pendingDrops, shuffledBlock := block, blockIdx := 0 } ∧
      block.length = b ∧ (block.count true : Int) = r.pendingDrops := by
  have htotal := List.count_false_add_count_true r.shuffledBlock
  obtain ⟨hpending, hlength, hcount⟩ :=
    adjust_spec r.shuffledBlock r.pendingDrops r.currentDrops (by omega) (by omega)
  obtain ⟨block, hshuffle, hperm⟩ := shuffle_perm (hlength.trans hlen) hg
  refine ⟨block, ?_, hperm.length_eq.trans (hlength.trans hlen), ?_⟩
  · simp only [LossHandle.shuffleBlock, hshuffle, hpending, Option.map_some]
  · rw [hperm.count_eq]
    omega

end Shuffling

/-- How a handler is related to the blocks of its answers so far. -/
structure Shares (b : Nat) (r : LossHandle) (h : Blocks) : Prop where
  size : r.shuffleBlockSize = b
  length : r.shuffledBlock.length = b
  index : r.blockIdx ≤ b
  answers : h.present.answers = r.shuffledBlock.take r.blockIdx
  current : r.currentDrops = r.shuffledBlock.count true
  present : r.currentDrops = dropsPerBlock h.present.chance b
  pending : r.pendingDrops = dropsPerBlock h.chance b
  low : 0 ≤ h.chance
  high : h.chance ≤ 100
  past : ∀ block ∈ h.past, block.Exact b

section Calls

variable {b : Nat} {r : LossHandle} {h : Blocks}

theorem Shares.presentExact (hr : Shares b r h) : h.present.Exact b := by
  intro hfull
  have hidx : r.blockIdx = b := by
    have hlen := hr.length
    have hindex := hr.index
    rw [hr.answers, List.length_take] at hfull
    omega
  rw [← hr.present, hr.current, hr.answers, hidx, ← hr.length, List.take_length]

theorem Shares.pastExact (hr : Shares b r h) : ∀ block ∈ h.past ++ [h.present], block.Exact b := by
  intro block hblock
  rcases List.mem_append.mp hblock with hblock | hblock
  · exact hr.past block hblock
  · rw [List.mem_singleton.mp hblock]
    exact hr.presentExact

/-- A new block starts with the pending drops. -/
theorem Shares.shuffleBlock (hr : Shares b r h) {g : Yield} (hg : g.InRange b) :
    ∃ r', r.shuffleBlock g = some r' ∧
      Shares b r' { h with past := h.past ++ [h.present], present := ⟨h.chance, []⟩ } := by
  have hlow := hr.pending ▸ dropsPerBlock_nonneg (b := b) hr.low
  have hhigh := hr.pending ▸ dropsPerBlock_le (b := b) hr.high
  obtain ⟨block, hshuffle, hlength, hcount⟩ :=
    shuffleBlock_spec hg hr.length hr.current hlow hhigh
  exact ⟨_, hshuffle, ⟨hr.size, hlength, Nat.zero_le b, rfl, hcount.symm, hr.pending, hr.pending,
    hr.low, hr.high, hr.pastExact⟩⟩

/-- An answer is the next entry of the block. -/
theorem Shares.answer (hr : Shares b r h) (hidx : r.blockIdx < b) :
    ∃ drop, r.shuffledBlock[r.blockIdx]? = some drop ∧
      Shares b { r with blockIdx := r.blockIdx + 1 }
        { h with present := ⟨h.present.chance, h.present.answers ++ [drop]⟩ } := by
  have hlt : r.blockIdx < r.shuffledBlock.length := by
    rw [hr.length]
    exact hidx
  refine ⟨r.shuffledBlock[r.blockIdx], List.getElem?_eq_getElem hlt, ⟨hr.size, hr.length, hidx, ?_,
    hr.current, hr.present, hr.pending, hr.low, hr.high, hr.past⟩⟩
  simp only [hr.answers]
  exact List.take_append_getElem hlt

theorem Shares.shouldDrop (hr : Shares b r h) (hb : 0 < b) {g : Yield} (hg : g.InRange b) :
    ∃ r' o, step r (.shouldDrop g) = some (r', o) ∧
      Shares b r' (h.record b (.shouldDrop g) o) := by
  have hsize : r.shuffleBlockSize > 0 := by
    have hsize := hr.size
    omega
  have hanswers : h.present.answers.length = r.blockIdx := by
    rw [hr.answers, List.length_take, hr.length]
    exact Nat.min_eq_left hr.index
  simp only [step, LossHandle.shouldDrop, if_pos hsize, LossHandle.shouldDropShuffle, hr.length]
  by_cases hfull : r.blockIdx = b
  · obtain ⟨r', hshuffle, hr'⟩ := hr.shuffleBlock hg
    have hstart : r'.blockIdx = 0 := by
      have hlen := congrArg List.length hr'.answers
      rw [List.length_take, hr'.length] at hlen
      have hindex := hr'.index
      simp only [List.length_nil] at hlen
      omega
    obtain ⟨drop, hget, hnext⟩ := hr'.answer (by omega)
    refine ⟨{ r' with blockIdx := r'.blockIdx + 1 }, .answer drop, ?_, ?_⟩
    · simp only [if_pos hfull, hshuffle, Option.bind_eq_bind, Option.bind_some, hget,
        Option.map_some]
    · simp only [Blocks.record, hanswers, if_pos hfull]
      exact hnext
  · have hidx : r.blockIdx < b := Nat.lt_of_le_of_ne hr.index hfull
    obtain ⟨drop, hget, hnext⟩ := hr.answer hidx
    refine ⟨{ r with blockIdx := r.blockIdx + 1 }, .answer drop, ?_, ?_⟩
    · simp only [if_neg hfull, Option.bind_eq_bind, Option.bind_some, hget, Option.map_some]
    · simp only [Blocks.record, hanswers, if_neg hfull]
      exact hnext

/-- A new rate is pending; the block in progress does not see it. -/
theorem Shares.setPending (hr : Shares b r h) {chance : Int} (hlow : 0 ≤ chance)
    (hhigh : chance ≤ 100) (hb : 100 * (b : Int) + 50 < 2 ^ 63) :
    Shares b { r with
        chance := chance, pendingDrops := calculateDropsPerBlock chance r.shuffleBlockSize }
      { h with chance := chance } := by
  refine ⟨hr.size, hr.length, hr.index, hr.answers, hr.current, hr.present, ?_, hlow, hhigh,
    hr.past⟩
  rw [hr.size]
  exact calculateDropsPerBlock_eq hlow hhigh hb

theorem Shares.setLossRate (hr : Shares b r h) (hb : 0 < b) (hover : 100 * (b : Int) + 50 < 2 ^ 63)
    (chance : Int) (resetImmediately : Bool) {g : Yield} (hg : g.InRange b) :
    ∃ r' o, step r (.setLossRate chance resetImmediately g) = some (r', o) ∧
      Shares b r' (h.record b (.setLossRate chance resetImmediately g) o) := by
  have hsize : r.shuffleBlockSize > 0 := by
    have hsize := hr.size
    omega
  cases hvalid : validateChance chance with
  | false =>
    refine ⟨r, .refused .invalidChance, by simp [step, hvalid], ?_⟩
    cases resetImmediately <;> exact hr
  | true =>
    obtain ⟨hlow, hhigh⟩ := of_decide_eq_true hvalid
    have hpending := hr.setPending hlow hhigh hover
    simp only [step, hvalid, not_true, if_false, LossHandle.setLossRate, if_pos hsize,
      LossHandle.setLossRateShuffle]
    cases resetImmediately with
    | false => exact ⟨_, .set, rfl, hpending⟩
    | true =>
      obtain ⟨r', hshuffle, hr'⟩ := hpending.shuffleBlock hg
      refine ⟨r', .set, ?_, hr'⟩
      simp only [if_true, hshuffle, Option.map_some]

theorem Shares.step (hr : Shares b r h) (hb : 0 < b) (hover : 100 * (b : Int) + 50 < 2 ^ 63)
    {e : Call} (hg : e.yield.InRange b) :
    ∃ r' o, Loss.step r e = some (r', o) ∧ Shares b r' (h.record b e o) := by
  cases e with
  | shouldDrop g => exact hr.shouldDrop hb hg
  | setLossRate chance resetImmediately g =>
    exact hr.setLossRate hb hover chance resetImmediately hg

/-- A new filter has a block of its own. -/
theorem newLossFilter_shares (hb : 0 < b) (hover : 100 * (b : Int) + 50 < 2 ^ 63) {chance : Int}
    (hlow : 0 ≤ chance) (hhigh : chance ≤ 100) {g : Yield} (hg : g.InRange b) :
    ∃ r, newLossFilter chance [.withShuffleLossHandler b] g = some (.ok r) ∧
      Shares b r (.start chance) := by
  have hnonneg := dropsPerBlock_nonneg (b := b) hlow
  have hle := dropsPerBlock_le (b := b) hhigh
  have hdrops := calculateDropsPerBlock_eq hlow hhigh hover
  obtain ⟨block, hfill, hlength, hcount⟩ :=
    fill_replicate (b := b) (n := (dropsPerBlock chance b).toNat) (by omega)
  obtain ⟨block', hshuffle, hlength', hcount'⟩ := shuffleBlock_spec (r :=
    { chance := chance, shuffleBlockSize := b, shuffledBlock := block,
      currentDrops := dropsPerBlock chance b, pendingDrops := dropsPerBlock chance b })
    hg hlength (by simp only [hcount]; omega) hnonneg hle
  have hvalid : validateChance chance = true := decide_eq_true ⟨hlow, hhigh⟩
  have hpos : ¬ (b : Int) < 1 := by omega
  have hsize : (b : Int) > 0 := by omega
  refine ⟨
    { chance := chance, shuffleBlockSize := b, shuffledBlock := block',
      currentDrops := dropsPerBlock chance b, pendingDrops := dropsPerBlock chance b }, ?_, ?_⟩
  · simp only [newLossFilter, hvalid, not_true, if_false, configure, if_neg hpos, if_pos hsize,
      newShuffleLossHandle, hdrops, Int.toNat_natCast, hfill, Option.bind_eq_bind,
      Option.bind_some, hshuffle, Option.map_some]
  · refine ⟨rfl, hlength', Nat.zero_le b, rfl, hcount'.symm, rfl, rfl, hlow, hhigh, ?_⟩
    intro block hblock
    cases hblock

end Calls

/-- For every block size without an overflow, every first chance and every sequence of calls, if
the generator only swaps entries of the block: no index is out of range; every full block has the
drops of the chance that was set last when it started; the block in progress has them among its
answers and the entries that are left, and a rate that is set for later leaves both as they are;
and `currentDrops` counts the drops of the block. -/
theorem blocks_lose_their_share (b : Nat) (hb : 0 < b) (hover : 100 * (b : Int) + 50 < 2 ^ 63)
    (chance : Int) (hlow : 0 ≤ chance) (hhigh : chance ≤ 100) (g : Yield) (hg : g.InRange b)
    (calls : List Call) (hcalls : ∀ e ∈ calls, e.yield.InRange b) :
    ∃ r₀ r os, newLossFilter chance [.withShuffleLossHandler b] g = some (.ok r₀) ∧
      run step r₀ calls = some (r, os) ∧
      (∀ block ∈ (chronicle (Blocks.record b) (.start chance) calls os).past ++
          [(chronicle (Blocks.record b) (.start chance) calls os).present],
        block.answers.length = b →
          (block.answers.count true : Int) = (block.chance * b + 50) / 100) ∧
      (chronicle (Blocks.record b) (.start chance) calls os).present.answers =
        r.shuffledBlock.take r.blockIdx ∧
      (r.shuffledBlock.count true : Int) =
        ((chronicle (Blocks.record b) (.start chance) calls os).present.chance * b + 50) / 100 ∧
      (∀ chance' g' r' o, step r (.setLossRate chance' false g') = some (r', o) →
        r'.shuffledBlock = r.shuffledBlock ∧ r'.blockIdx = r.blockIdx ∧
          r'.currentDrops = r.currentDrops) ∧
      r.currentDrops = r.shuffledBlock.count true ∧ 0 ≤ r.currentDrops ∧ r.currentDrops ≤ b ∧
      r.shuffledBlock.length = b ∧ r.blockIdx ≤ b := by
  obtain ⟨r₀, hnew, hr₀⟩ := newLossFilter_shares hb hover hlow hhigh hg
  have hstep : ∀ (r : LossHandle) (h : Blocks) (e : Call), e.yield.InRange b → Shares b r h →
      ∃ r' o, step r e = some (r', o) ∧ Shares b r' (h.record b e o) :=
    fun r h e he hr => hr.step hb hover he
  obtain ⟨r, os, hrun, hr⟩ := run_keeps_history hstep hcalls hr₀
  have hcount : r.shuffledBlock.count true ≤ b := by
    rw [← hr.length]
    exact List.count_le_length
  refine ⟨r₀, r, os, hnew, hrun, fun block hblock => hr.pastExact block hblock, hr.answers, ?_, ?_,
    hr.current, ?_, ?_, hr.length, hr.index⟩
  · rw [← hr.current]
    exact hr.present
  · intro chance' g' r' o hstep
    simp only [step] at hstep
    split at hstep
    · cases hstep
      exact ⟨rfl, rfl, rfl⟩
    · unfold LossHandle.setLossRate LossHandle.setLossRateShuffle at hstep
      split at hstep
      · cases hstep
        exact ⟨rfl, rfl, rfl⟩
      · cases hstep
        exact ⟨rfl, rfl, rfl⟩
  · rw [hr.current]
    exact Int.natCast_nonneg _
  · rw [hr.current]
    exact_mod_cast hcount

/-- Blocks of three with half of the chunks lost; the rate is lowered within the first block, and
set anew at once in the second. -/
theorem blocks_of_three : ∃ r₀ r os,
    newLossFilter 50 [.withShuffleLossHandler (3 : Nat)] ⟨0, [(2, 0)]⟩ = some (.ok r₀) ∧
      run step r₀ [.shouldDrop {}, .setLossRate 20 false {}, .shouldDrop {}, .shouldDrop {},
        .shouldDrop ⟨0, [(0, 1)]⟩, .setLossRate 100 true {}, .shouldDrop {}] = some (r, os) ∧
      r.shuffledBlock.length = 3 ∧ r.blockIdx ≤ 3 := by
  obtain ⟨r₀, r, os, hnew, hrun, -, -, -, -, -, -, -, hlength, hindex⟩ :=
    blocks_lose_their_share 3 (by decide) (by decide) 50 (by decide) (by decide) ⟨0, [(2, 0)]⟩
      (by unfold Yield.InRange; decide)
      [.shouldDrop {}, .setLossRate 20 false {}, .shouldDrop {}, .shouldDrop {},
        .shouldDrop ⟨0, [(0, 1)]⟩, .setLossRate 100 true {}, .shouldDrop {}]
      (by unfold Yield.InRange; decide)
  exact ⟨r₀, r, os, hnew, hrun, hlength, hindex⟩

end PionTransport.Vnet.Loss
