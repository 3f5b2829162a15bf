import PionTransport.Core.Table
import PionTransport.Vnet.Duplication

/-!
# Duplicates leave once and in time

Whatever the order of schedulings, firings and `Close`: a timer that may still
fire finds its own bucket, so no callback dereferences a missing one; the
duplicates pushed from a bucket are a prefix of those scheduled into it, and all
of them once its callback, having met an open filter, is through; nothing leaves
before its deadline, and no fire time is a bucket width after it. After `Close`
only callbacks push that had taken their chunks before.
-/

namespace PionTransport.Vnet.Duplication

open PionTransport.Core DuplicationFilter

/-- The timer has yet to fire, or its callback has yet to take the mutex. -/
def TimerAt.live : TimerAt → Bool
  | pending | fired => true
  | _ => false

/-- The bucket of the timer has not been removed. -/
def TimerAt.kept : TimerAt → Bool
  | pending | stopped | fired => true
  | _ => false

/-- The timer has fired. -/
def TimerAt.started : TimerAt → Bool
  | pending | stopped => false
  | _ => true

/-- The chunks that the callback has pushed. -/
def TimerAt.sent : TimerAt → List Duplicate
  | pushing chunks i => chunks.take i
  | _ => []

/-- Buckets and timers belong together. -/
structure Coherent (f : DuplicationFilter) : Prop where
  bucket : ∀ {key bucket}, f.buckets.lookup key = some bucket →
    ∃ (due : Int) (pos : TimerAt),
      f.runtime[bucket.timer]? = some ⟨key, due, pos⟩ ∧ pos.kept = true
  present : ∀ {t key due pos}, f.runtime[t]? = some ⟨key, due, pos⟩ → pos.live = true →
    ∃ chunks, f.buckets.lookup key = some ⟨t, chunks⟩
  timers : ∀ t, t ∈ f.timers ↔ ∃ key bucket, f.buckets.lookup key = some bucket ∧ bucket.timer = t

/-- What became of every duplicate. -/
structure Accounted (f : DuplicationFilter) : Prop where
  bucket : ∀ {key bucket}, f.buckets.lookup key = some bucket →
    bucket.chunks = f.scheduledIn bucket.timer
  taken : ∀ {t key due chunks i}, f.runtime[t]? = some ⟨key, due, .pushing chunks i⟩ →
    chunks = f.scheduledIn t
  sent : ∀ {t key due pos}, f.runtime[t]? = some ⟨key, due, pos⟩ → f.pushedBy t = pos.sent
  scheduled : ∀ x ∈ f.scheduled, x.1 < f.runtime.length
  pushed : ∀ x ∈ f.pushed, x.1 < f.runtime.length

/-- When timers are due, and when duplicates left. -/
structure Timely (f : DuplicationFilter) : Prop where
  due : ∀ {t : Nat} {key due : Int} {pos : TimerAt}, f.runtime[t]? = some ⟨key, due, pos⟩ →
    due = key ∧ (pos.started = true → due ≤ f.now)
  window : ∀ {t d}, (t, d) ∈ f.scheduled → ∃ (key due : Int) (pos : TimerAt),
    f.runtime[t]? = some ⟨key, due, pos⟩ ∧
    d.deadline ≤ key ∧ key < d.deadline + duplicationBucketSize
  late : ∀ {t push}, (t, push) ∈ f.pushed → push.dup.deadline ≤ push.time

section Steps

variable {f f' : DuplicationFilter} {e : Event} {t : Nat} {key due : Int} {pos pos' : TimerAt}
  {bucket : DupBucket} {d : Duplicate}

/-- What stands in the runtime after a timer has moved. -/
theorem runtime_moveTimer {s : Nat} {timer : Timer}
    (ht : f.runtime[t]? = some ⟨key, due, pos⟩) :
    (f.moveTimer t pos').runtime[s]? = some timer ↔
      (s = t ∧ timer = ⟨key, due, pos'⟩) ∨ (s ≠ t ∧ f.runtime[s]? = some timer) :=
  getElem?_modify_of_some ht

/-- The buckets of a timer are one. -/
theorem Coherent.unique (h : Coherent f) {key' : Int} {bucket' : DupBucket}
    (hb : f.buckets.lookup key = some bucket) (hb' : f.buckets.lookup key' = some bucket')
    (htimer : bucket.timer = bucket'.timer) : key = key' := by
  obtain ⟨due, pos, ht, -⟩ := h.bucket hb
  obtain ⟨due', pos', ht', -⟩ := h.bucket hb'
  rw [htimer, ht'] at ht
  cases ht
  rfl

/-- A timer moves and its bucket stays. -/
theorem Coherent.move (h : Coherent f) (ht : f.runtime[t]? = some ⟨key, due, pos⟩)
    (hkept : pos.kept = true → pos'.kept = true) (hlive : pos'.live = true → pos.live = true) :
    Coherent (f.moveTimer t pos') where
  bucket := by
    intro k b hb
    obtain ⟨due', pos₀, hs, hk⟩ := h.bucket hb
    by_cases he : b.timer = t
    · rw [he, ht] at hs
      cases hs
      exact ⟨due, pos', (runtime_moveTimer ht).mpr (.inl ⟨he, rfl⟩), hkept hk⟩
    · exact ⟨due', pos₀, (runtime_moveTimer ht).mpr (.inr ⟨he, hs⟩), hk⟩
  present := by
    intro s k due' pos₀ hs hl
    rcases (runtime_moveTimer ht).mp hs with ⟨rfl, he⟩ | ⟨-, hs⟩
    · cases he
      exact h.present ht (hlive hl)
    · exact h.present hs hl
  timers := h.timers

/-- The callback of a timer removes its bucket. -/
theorem Coherent.remove (h : Coherent f) (ht : f.runtime[t]? = some ⟨key, due, .fired⟩)
    (hb : f.buckets.lookup key = some bucket) (hdead : pos'.live = false) :
    Coherent ((f.remove key bucket).moveTimer t pos') := by
  obtain ⟨chunks, hown⟩ := h.present ht rfl
  rw [hb] at hown
  cases hown
  constructor
  · intro k b hk
    obtain ⟨hne, hk⟩ := lookup_erase_iff.mp hk
    obtain ⟨due', pos₀, hs, hkept⟩ := h.bucket hk
    have hother : b.timer ≠ t := fun he => hne (h.unique hk hb he)
    exact ⟨due', pos₀, (runtime_moveTimer ht).mpr (.inr ⟨hother, hs⟩), hkept⟩
  · intro s k due' pos₀ hs hl
    rcases (runtime_moveTimer ht).mp hs with ⟨rfl, he⟩ | ⟨hne, hs⟩
    · cases he
      rw [hdead] at hl
      cases hl
    · obtain ⟨chunks', hk⟩ := h.present hs hl
      refine ⟨chunks', lookup_erase_iff.mpr ⟨?_, hk⟩⟩
      rintro rfl
      rw [hb] at hk
      cases hk
      exact hne rfl
  · intro s
    change s ∈ f.timers.erase t ↔ _
    rw [Finset.mem_erase, h.timers]
    constructor
    · rintro ⟨hne, k, b, hk, rfl⟩
      refine ⟨k, b, lookup_erase_iff.mpr ⟨?_, hk⟩, rfl⟩
      rintro rfl
      rw [hb] at hk
      cases hk
      exact hne rfl
    · rintro ⟨k, b, hk, rfl⟩
      obtain ⟨hne, hk⟩ := lookup_erase_iff.mp hk
      exact ⟨fun he => hne (h.unique hk hb he), k, b, hk, rfl⟩

/-- A bucket gets more chunks. -/
theorem Coherent.fill (h : Coherent f) (hb : f.buckets.lookup key = some bucket) :
    Coherent (f.fill key bucket d) where
  bucket := by
    intro k b hk
    rcases lookup_insert_iff.mp hk with ⟨rfl, rfl⟩ | ⟨-, hk⟩
    · have hown := h.bucket hb
      exact hown
    · exact h.bucket hk
  present := by
    intro s k due' pos hs hl
    obtain ⟨chunks, hk⟩ := h.present hs hl
    by_cases he : k = key
    · subst he
      rw [hb] at hk
      cases hk
      exact ⟨chunks ++ [d], lookup_insert_iff.mpr (.inl ⟨rfl, rfl⟩)⟩
    · exact ⟨chunks, lookup_insert_iff.mpr (.inr ⟨he, hk⟩)⟩
  timers := by
    intro s
    change s ∈ f.timers ↔ _
    rw [h.timers]
    constructor
    · rintro ⟨k, b, hk, rfl⟩
      by_cases he : k = key
      · subst he
        rw [hb] at hk
        cases hk
        exact ⟨k, _, lookup_insert_iff.mpr (.inl ⟨rfl, rfl⟩), rfl⟩
      · exact ⟨k, b, lookup_insert_iff.mpr (.inr ⟨he, hk⟩), rfl⟩
    · rintro ⟨k, b, hk, rfl⟩
      rcases lookup_insert_iff.mp hk with ⟨-, rfl⟩ | ⟨-, hk⟩
      · exact ⟨key, bucket, hb, rfl⟩
      · exact ⟨k, b, hk, rfl⟩

/-- A bucket and its timer are created. -/
theorem Coherent.create (h : Coherent f) (hb : f.buckets.lookup key = none) :
    Coherent (f.create key d) where
  bucket := by
    intro k b hk
    rcases lookup_insert_iff.mp hk with ⟨rfl, rfl⟩ | ⟨-, hk⟩
    · exact ⟨_, .pending, getElem?_snoc_iff.mpr (.inl ⟨rfl, rfl⟩), rfl⟩
    · obtain ⟨due', pos, hs, hkept⟩ := h.bucket hk
      exact ⟨due', pos, getElem?_snoc_iff.mpr (.inr hs), hkept⟩
  present := by
    intro s k due' pos hs hl
    rcases getElem?_snoc_iff.mp hs with ⟨rfl, he⟩ | hs
    · cases he
      exact ⟨[d], lookup_insert_iff.mpr (.inl ⟨rfl, rfl⟩)⟩
    · obtain ⟨chunks, hk⟩ := h.present hs hl
      refine ⟨chunks, lookup_insert_iff.mpr (.inr ⟨?_, hk⟩)⟩
      rintro rfl
      rw [hb] at hk
      cases hk
  timers := by
    intro s
    change s ∈ insert f.runtime.length f.timers ↔ _
    rw [Finset.mem_insert, h.timers]
    constructor
    · rintro (rfl | ⟨k, b, hk, rfl⟩)
      · exact ⟨key, _, lookup_insert_iff.mpr (.inl ⟨rfl, rfl⟩), rfl⟩
      · refine ⟨k, b, lookup_insert_iff.mpr (.inr ⟨?_, hk⟩), rfl⟩
        rintro rfl
        rw [hb] at hk
        cases hk
    · rintro ⟨k, b, hk, rfl⟩
      rcases lookup_insert_iff.mp hk with ⟨-, rfl⟩ | ⟨-, hk⟩
      · exact .inl rfl
      · exact .inr ⟨k, b, hk, rfl⟩

theorem Coherent.step (h : Coherent f) (ht : Transition f e f') : Coherent f' := by
  cases ht with
  | stutter => exact h
  | elapse | close | stopLate => exact ⟨h.bucket, h.present, h.timers⟩
  | fill hopen hb => exact h.fill hb
  | create hopen hb => exact h.create hb
  | fire ht hdue => exact h.move ht (fun _ => rfl) (fun _ => rfl)
  | discard ht hclosed hb | take ht hopen hb => exact h.remove ht hb rfl
  | skip ht hclosed hb =>
    obtain ⟨chunks, hk⟩ := h.present ht rfl
    rw [hb] at hk
    cases hk
  | @push t key due chunks i d ht hd =>
    have h' : Coherent (f.moveTimer t (.pushing chunks (i + 1))) :=
      h.move ht (fun hkept => hkept) (fun hlive => hlive)
    exact ⟨h'.bucket, h'.present, h'.timers⟩
  | @stop t key due ht =>
    have h' : Coherent (f.moveTimer t .stopped) := h.move ht (fun _ => rfl) (fun _ => rfl)
    exact ⟨h'.bucket, h'.present, h'.timers⟩

/-- A timer moves without a push; if it takes chunks, they are those of its bucket. -/
theorem Accounted.move (h : Accounted f) (ht : f.runtime[t]? = some ⟨key, due, pos⟩)
    (hsent : pos'.sent = pos.sent)
    (htaken : ∀ chunks i, pos' = .pushing chunks i → chunks = f.scheduledIn t) :
    Accounted (f.moveTimer t pos') where
  bucket := h.bucket
  taken := by
    intro s k due' chunks i hs
    rcases (runtime_moveTimer ht).mp hs with ⟨rfl, he⟩ | ⟨-, hs⟩
    · cases he
      exact htaken chunks i rfl
    · exact h.taken hs
  sent := by
    intro s k due' pos₀ hs
    rcases (runtime_moveTimer ht).mp hs with ⟨rfl, he⟩ | ⟨-, hs⟩
    · cases he
      rw [hsent]
      exact h.sent ht
    · exact h.sent hs
  scheduled := by
    simp only [moveTimer, List.length_modify]
    exact h.scheduled
  pushed := by
    simp only [moveTimer, List.length_modify]
    exact h.pushed

theorem Accounted.remove (h : Accounted f) : Accounted (f.remove key bucket) where
  bucket hb := h.bucket (lookup_erase_iff.mp hb).2
  taken := h.taken
  sent := h.sent
  scheduled := h.scheduled
  pushed := h.pushed

/-- A chunk goes into a bucket whose callback has not taken its chunks. -/
theorem Accounted.fill (h : Accounted f) (hc : Coherent f)
    (hb : f.buckets.lookup key = some bucket) : Accounted (f.fill key bucket d) where
  bucket := by
    intro k b hk
    rcases lookup_insert_iff.mp hk with ⟨rfl, rfl⟩ | ⟨hne, hk⟩
    · change bucket.chunks ++ [d] = tagged bucket.timer (f.scheduled ++ [(bucket.timer, d)])
      rw [tagged_snoc_self, h.bucket hb]
      rfl
    · have hother : bucket.timer ≠ b.timer := fun he => hne (hc.unique hk hb he.symm)
      change b.chunks = tagged b.timer (f.scheduled ++ [(bucket.timer, d)])
      rw [tagged_snoc_ne hother, h.bucket hk]
      rfl
  taken := by
    intro s k due' chunks i hs
    have hother : bucket.timer ≠ s := by
      rintro rfl
      obtain ⟨due'', pos, hs', hkept⟩ := hc.bucket hb
      have he := hs'.symm.trans hs
      cases he
      cases hkept
    change chunks = tagged s (f.scheduled ++ [(bucket.timer, d)])
    rw [tagged_snoc_ne hother, h.taken hs]
    rfl
  sent := h.sent
  scheduled := by
    intro x hx
    rcases List.mem_append.mp hx with hx | hx
    · exact h.scheduled x hx
    · obtain rfl := List.mem_singleton.mp hx
      obtain ⟨due', pos, hs, -⟩ := hc.bucket hb
      exact (List.getElem?_eq_some_iff.mp hs).1
  pushed := h.pushed

/-- A new timer has neither scheduled nor pushed duplicates. -/
theorem Accounted.create (h : Accounted f) (hc : Coherent f) : Accounted (f.create key d) where
  bucket := by
    intro k b hk
    change b.chunks = tagged b.timer (f.scheduled ++ [(f.runtime.length, d)])
    rcases lookup_insert_iff.mp hk with ⟨rfl, rfl⟩ | ⟨hne, hk⟩
    · have hnone : tagged f.runtime.length f.scheduled = [] :=
        tagged_eq_nil fun x hx => Nat.ne_of_lt (h.scheduled x hx)
      rw [tagged_snoc_self, hnone]
      rfl
    · obtain ⟨due', pos, hs, -⟩ := hc.bucket hk
      have hother : f.runtime.length ≠ b.timer :=
        (Nat.ne_of_lt (List.getElem?_eq_some_iff.mp hs).1).symm
      rw [tagged_snoc_ne hother, h.bucket hk]
      rfl
  taken := by
    intro s k due' chunks i hs
    rcases getElem?_snoc_iff.mp hs with ⟨-, he⟩ | hs
    · cases he
    · have hother : f.runtime.length ≠ s :=
        (Nat.ne_of_lt (List.getElem?_eq_some_iff.mp hs).1).symm
      change chunks = tagged s (f.scheduled ++ [(f.runtime.length, d)])
      rw [tagged_snoc_ne hother, h.taken hs]
      rfl
  sent := by
    intro s k due' pos hs
    rcases getElem?_snoc_iff.mp hs with ⟨rfl, he⟩ | hs
    · cases he
      have hnone : tagged f.runtime.length f.pushed = [] :=
        tagged_eq_nil fun x hx => Nat.ne_of_lt (h.pushed x hx)
      change (tagged f.runtime.length f.pushed).map Push.dup = []
      rw [hnone]
      rfl
    · exact h.sent hs
  scheduled := by
    intro x hx
    simp only [DuplicationFilter.create, List.length_append, List.length_singleton]
    rcases List.mem_append.mp hx with hx | hx
    · exact Nat.lt_succ_of_lt (h.scheduled x hx)
    · obtain rfl := List.mem_singleton.mp hx
      exact Nat.lt_succ_self _
  pushed := by
    intro x hx
    simp only [DuplicationFilter.create, List.length_append, List.length_singleton]
    exact Nat.lt_succ_of_lt (h.pushed x hx)

/-- A callback pushes its next chunk. -/
theorem Accounted.push (h : Accounted f) {chunks : List Duplicate} {i : Nat} {now : Int}
    (ht : f.runtime[t]? = some ⟨key, due, .pushing chunks i⟩) (hd : chunks[i]? = some d) :
    Accounted { f.moveTimer t (.pushing chunks (i + 1)) with
      pushed := f.pushed ++ [(t, ⟨d, now⟩)] } where
  bucket := h.bucket
  taken := by
    intro s k due' chunks' j hs
    rcases (runtime_moveTimer ht).mp hs with ⟨rfl, he⟩ | ⟨-, hs⟩
    · cases he
      exact h.taken ht
    · exact h.taken hs
  sent := by
    intro s k due' pos₀ hs
    rcases (runtime_moveTimer ht).mp hs with ⟨rfl, he⟩ | ⟨hne, hs⟩
    · cases he
      change (tagged s (f.pushed ++ [(s, ⟨d, now⟩)])).map Push.dup = chunks.take (i + 1)
      have hsent : f.pushedBy s = chunks.take i := h.sent ht
      rw [tagged_snoc_self, List.map_append, List.take_add_one, hd, ← hsent]
      rfl
    · change (tagged s (f.pushed ++ [(t, ⟨d, now⟩)])).map Push.dup = _
      rw [tagged_snoc_ne (Ne.symm hne)]
      exact h.sent hs
  scheduled := by
    simp only [moveTimer, List.length_modify]
    exact h.scheduled
  pushed := by
    intro x hx
    simp only [moveTimer, List.length_modify]
    rcases List.mem_append.mp hx with hx | hx
    · exact h.pushed x hx
    · obtain rfl := List.mem_singleton.mp hx
      exact (List.getElem?_eq_some_iff.mp ht).1

theorem Accounted.step (h : Accounted f) (hc : Coherent f) (ht : Transition f e f') :
    Accounted f' := by
  cases ht with
  | stutter => exact h
  | elapse | close | stopLate => exact ⟨h.bucket, h.taken, h.sent, h.scheduled, h.pushed⟩
  | fill hopen hb => exact h.fill hc hb
  | create hopen hb => exact h.create hc
  | fire ht | skip ht => exact h.move ht rfl (fun _ _ he => by cases he)
  | discard ht hclosed hb => exact h.remove.move ht rfl (fun _ _ he => by cases he)
  | take ht hopen hb =>
    obtain ⟨chunks, hown⟩ := hc.present ht rfl
    rw [hb] at hown
    cases hown
    refine h.remove.move ht rfl ?_
    intro chunks' i he
    cases he
    exact h.bucket hb
  | push ht hd => exact h.push ht hd
  | @stop t key due ht =>
    have h' : Accounted (f.moveTimer t .stopped) := h.move ht rfl (fun _ _ he => by cases he)
    exact ⟨h'.bucket, h'.taken, h'.sent, h'.scheduled, h'.pushed⟩

/-- A timer moves, and if it has started it is due. -/
theorem Timely.move (h : Timely f) (ht : f.runtime[t]? = some ⟨key, due, pos⟩)
    (hstarted : pos'.started = true → due ≤ f.now) : Timely (f.moveTimer t pos') where
  due := by
    intro s k due' pos₀ hs
    rcases (runtime_moveTimer ht).mp hs with ⟨rfl, he⟩ | ⟨-, hs⟩
    · cases he
      exact ⟨(h.due ht).1, hstarted⟩
    · exact h.due hs
  window := by
    intro s d hd
    obtain ⟨k, due', pos₀, hs, hlo, hhi⟩ := h.window hd
    by_cases he : s = t
    · rw [he, ht] at hs
      cases hs
      exact ⟨key, due, pos', (runtime_moveTimer ht).mpr (.inl ⟨he, rfl⟩), hlo, hhi⟩
    · exact ⟨k, due', pos₀, (runtime_moveTimer ht).mpr (.inr ⟨he, hs⟩), hlo, hhi⟩
  late := h.late

/-- A chunk goes into a bucket whose fire time is that of the chunk. -/
theorem Timely.fill (h : Timely f) (hc : Coherent f) (hb : f.buckets.lookup key = some bucket)
    (hlo : d.deadline ≤ key) (hhi : key < d.deadline + duplicationBucketSize) :
    Timely (f.fill key bucket d) where
  due := h.due
  window := by
    intro s d' hd
    rcases List.mem_append.mp hd with hd | hd
    · exact h.window hd
    · cases List.mem_singleton.mp hd
      obtain ⟨due', pos, hs, -⟩ := hc.bucket hb
      exact ⟨key, due', pos, hs, hlo, hhi⟩
  late := h.late

theorem Timely.create (h : Timely f) (hdue : f.now + max (timeSub key f.now) 0 = key)
    (hlo : d.deadline ≤ key) (hhi : key < d.deadline + duplicationBucketSize) :
    Timely (f.create key d) where
  due := by
    intro s k due' pos hs
    rcases getElem?_snoc_iff.mp hs with ⟨-, he⟩ | hs
    · cases he
      exact ⟨hdue, fun hstarted => by cases hstarted⟩
    · exact h.due hs
  window := by
    intro s d' hd
    rcases List.mem_append.mp hd with hd | hd
    · obtain ⟨k, due', pos, hs, hlo', hhi'⟩ := h.window hd
      exact ⟨k, due', pos, getElem?_snoc_iff.mpr (.inr hs), hlo', hhi'⟩
    · cases List.mem_singleton.mp hd
      exact ⟨key, _, .pending, getElem?_snoc_iff.mpr (.inl ⟨rfl, rfl⟩), hlo, hhi⟩
  late := h.late

theorem Timely.step (h : Timely f) (hc : Coherent f) (ha : Accounted f) (hrange : f.InRange e)
    (ht : Transition f e f') : Timely f' := by
  cases ht with
  | stutter => exact h
  | elapse =>
    refine ⟨fun hs => ⟨(h.due hs).1, fun hstarted => ?_⟩, h.window, h.late⟩
    have hdue := (h.due hs).2 hstarted
    change _ ≤ f.now + _
    omega
  | close | stopLate => exact ⟨h.due, h.window, h.late⟩
  | fill hopen hb =>
    obtain ⟨hlo, hhi, -⟩ := fireAt_bounds hrange.1 hrange.2.1 hrange.2.2
    exact h.fill hc hb hlo hhi
  | create hopen hb =>
    obtain ⟨hnow, hdelay, hmax⟩ := hrange
    obtain ⟨hlo, hhi, hkey⟩ := fireAt_bounds hnow hdelay hmax
    exact h.create (due_create hnow (by omega) hkey) hlo hhi
  | fire ht hdue => exact h.move ht fun _ => hdue
  | @discard t key due bucket ht hclosed hb | @take t key due bucket ht hopen hb =>
    have h' : Timely (f.remove key bucket) := ⟨h.due, h.window, h.late⟩
    exact h'.move ht fun _ => (h.due ht).2 rfl
  | skip ht hclosed hb => exact h.move ht fun _ => (h.due ht).2 rfl
  | @push t key due chunks i d ht hd =>
    have h' : Timely (f.moveTimer t (.pushing chunks (i + 1))) :=
      h.move ht fun _ => (h.due ht).2 rfl
    refine ⟨h'.due, h'.window, fun hx => ?_⟩
    rcases List.mem_append.mp hx with hx | hx
    · exact h.late hx
    · cases List.mem_singleton.mp hx
      have hmem : d ∈ f.scheduledIn t := ha.taken ht ▸ List.mem_of_getElem? hd
      obtain ⟨k, due', pos, hs, hlo, -⟩ := h.window (mem_tagged.mp hmem)
      rw [ht] at hs
      cases hs
      obtain ⟨hkey, hstarted⟩ := h.due ht
      have hnow := hstarted rfl
      change d.deadline ≤ f.now
      omega
  | @stop t key due ht =>
    have h' : Timely (f.moveTimer t .stopped) := h.move ht fun hstarted => by cases hstarted
    exact ⟨h'.due, h'.window, h'.late⟩

/-- No callback of an open filter misses its bucket. -/
theorem Coherent.progress (h : Coherent f) (e : Event) : ∃ f' o, f.step e = some (f', o) := by
  cases e with
  | bucketFired t =>
    simp only [DuplicationFilter.step, onBucketFired]
    split
    next ht =>
      obtain ⟨chunks, hb⟩ := h.present ht rfl
      rw [hb]
      cases f.closed <;> exact ⟨_, _, rfl⟩
    · exact ⟨_, _, rfl⟩
  | _ =>
    simp only [DuplicationFilter.step, scheduleDuplicate, DuplicationFilter.fire, pushNext,
      DuplicationFilter.close, DuplicationFilter.stop]
    (repeat' split) <;> exact ⟨_, _, rfl⟩

/-- All that holds between the steps. -/
structure Sound (f : DuplicationFilter) : Prop where
  coherent : Coherent f
  accounted : Accounted f
  timely : Timely f

theorem sound_new (now : Int) : Sound { now := now } where
  coherent := by
    constructor
    · intro key bucket hb
      cases hb
    · intro t key due pos ht
      cases ht
    · intro t
      constructor
      · intro ht
        cases ht
      · rintro ⟨key, bucket, hb, -⟩
        cases hb
  accounted := by constructor <;> intros <;> contradiction
  timely := by constructor <;> intros <;> contradiction

theorem Sound.step (h : Sound f) (hrange : f.InRange e) :
    ∃ f' o, f.step e = some (f', o) ∧ Sound f' := by
  obtain ⟨f', o, hstep⟩ := h.coherent.progress e
  have ht := step_transition hstep
  exact ⟨f', o, hstep, h.coherent.step ht, h.accounted.step h.coherent ht,
    h.timely.step h.coherent h.accounted hrange ht⟩

/-- The duplicates pushed from a bucket are a prefix of those scheduled into it. -/
theorem Accounted.pushed_prefix (h : Accounted f) (t : Nat) :
    f.pushedBy t <+: f.scheduledIn t := by
  cases ht : f.runtime[t]? with
  | none =>
    have hlen := List.getElem?_eq_none_iff.mp ht
    have hnone : f.pushedBy t = [] := by
      unfold pushedBy
      rw [tagged_eq_nil fun x hx => Nat.ne_of_lt (Nat.lt_of_lt_of_le (h.pushed x hx) hlen)]
      rfl
    rw [hnone]
    exact List.nil_prefix
  | some timer =>
    obtain ⟨key, due, pos⟩ := timer
    rw [h.sent ht]
    cases pos with
    | pushing chunks i =>
      rw [← h.taken ht]
      exact List.take_prefix i chunks
    | pending | stopped | fired | returned => exact List.nil_prefix

/-- No duplicate is pushed more often than it was scheduled. -/
theorem Accounted.pushed_subperm (h : Accounted f) :
    (f.pushed.map (Prod.map id Push.dup)).Subperm f.scheduled := by
  apply subperm_of_tagged
  intro t
  rw [tagged_map]
  exact h.pushed_prefix t

/-- A callback that has taken its chunks can push the rest of them. -/
theorem Accounted.pushes_all {chunks : List Duplicate} {i : Nat} (h : Accounted f)
    (ht : f.runtime[t]? = some ⟨key, due, .pushing chunks i⟩) :
    ∃ f' os, run DuplicationFilter.step f (List.replicate (chunks.length - i) (.push t)) =
      some (f', os) ∧ f'.pushedBy t = chunks := by
  obtain ⟨n, hn⟩ : ∃ n, chunks.length - i = n := ⟨_, rfl⟩
  rw [hn]
  induction n generalizing f i with
  | zero =>
    refine ⟨f, [], rfl, ?_⟩
    have hsent : f.pushedBy t = chunks.take i := h.sent ht
    rw [hsent]
    exact List.take_of_length_le (Nat.sub_eq_zero_iff_le.mp hn)
  | succ n ih =>
    have hi : i < chunks.length := by omega
    have hd : chunks[i]? = some chunks[i] := List.getElem?_eq_getElem hi
    have hstep : f.step (.push t) = some ({ f.moveTimer t (.pushing chunks (i + 1)) with
        pushed := f.pushed ++ [(t, ⟨chunks[i], f.now⟩)] }, .moved) := by
      simp only [DuplicationFilter.step, pushNext, ht, hd]
    have ht' : (f.moveTimer t (.pushing chunks (i + 1))).runtime[t]? =
        some ⟨key, due, .pushing chunks (i + 1)⟩ :=
      (runtime_moveTimer ht).mpr (.inl ⟨rfl, rfl⟩)
    obtain ⟨f', os, hrun, hall⟩ := ih (h.push ht hd) ht' (by omega)
    exact ⟨f', .moved :: os, run_cons_some hstep hrun, hall⟩

/-- A callback that meets an open filter takes all that was scheduled into its bucket. -/
theorem Sound.takes (h : Sound f) (ht : f.runtime[t]? = some ⟨key, due, .fired⟩)
    (hopen : f.closed = false) : ∃ f', f.step (.bucketFired t) = some (f', .moved) ∧
      f'.runtime[t]? = some ⟨key, due, .pushing (f.scheduledIn t) 0⟩ := by
  obtain ⟨chunks, hb⟩ := h.coherent.present ht rfl
  have hchunks := h.accounted.bucket hb
  refine ⟨(f.remove key ⟨t, chunks⟩).moveTimer t (.pushing chunks 0), ?_, ?_⟩
  · simp only [DuplicationFilter.step, onBucketFired, ht, hopen, hb]
  · rw [← hchunks]
    exact (runtime_moveTimer (f := f.remove key ⟨t, chunks⟩) ht).mpr (.inl ⟨rfl, rfl⟩)

end Steps

/-- The callback of a timer has taken its chunks. -/
def DuplicationFilter.Taken (f : DuplicationFilter) (t : Nat) : Prop :=
  ∃ (key due : Int) (chunks : List Duplicate) (i : Nat),
    f.runtime[t]? = some ⟨key, due, .pushing chunks i⟩

/-- What has happened since a closed filter was seen: pushes of callbacks that had taken their
chunks by then. -/
structure SinceClose (f f' : DuplicationFilter) : Prop where
  closed : f'.closed = true
  taken : ∀ {t}, f'.Taken t → f.Taken t
  pushed : ∃ more, f'.pushed = f.pushed ++ more ∧ ∀ x ∈ more, f.Taken x.1

theorem SinceClose.move {f f' : DuplicationFilter} {t : Nat} {key due : Int} {pos pos' : TimerAt}
    (h : SinceClose f f') (ht : f'.runtime[t]? = some ⟨key, due, pos⟩)
    (hpos : ∀ chunks i, pos' ≠ .pushing chunks i) : SinceClose f (f'.moveTimer t pos') where
  closed := h.closed
  taken := by
    rintro s ⟨k, due', chunks, i, hs⟩
    rcases (runtime_moveTimer ht).mp hs with ⟨-, he⟩ | ⟨-, hs⟩
    · simp only [Timer.mk.injEq] at he
      exact absurd he.2.2.symm (hpos chunks i)
    · exact h.taken ⟨k, due', chunks, i, hs⟩
  pushed := h.pushed

theorem SinceClose.step {f f₁ f₂ : DuplicationFilter} {e : Event} (h : SinceClose f f₁)
    (ht : Transition f₁ e f₂) : SinceClose f f₂ := by
  have hclosed := h.closed
  cases ht with
  | stutter => exact h
  | elapse | stopLate => exact ⟨h.closed, h.taken, h.pushed⟩
  | fill hopen | create hopen | take _ hopen | close hopen =>
    rw [hclosed] at hopen
    cases hopen
  | fire ht | skip ht => exact h.move ht fun _ _ he => by cases he
  | @discard t key due bucket ht =>
    have h' : SinceClose f (f₁.remove key bucket) := ⟨h.closed, h.taken, h.pushed⟩
    exact h'.move ht fun _ _ he => by cases he
  | @stop t _ _ ht =>
    have h' : SinceClose f (f₁.moveTimer t .stopped) := h.move ht fun _ _ he => by cases he
    exact ⟨h'.closed, h'.taken, h'.pushed⟩
  | @push t key due chunks i d ht hd =>
    obtain ⟨more, hmore, hfrom⟩ := h.pushed
    have htaken : f.Taken t := h.taken ⟨_, _, _, _, ht⟩
    refine ⟨h.closed, ?_, more ++ [(t, ⟨d, f₁.now⟩)], ?_, ?_⟩
    · rintro s ⟨key', due', chunks', i', hs⟩
      rcases (runtime_moveTimer ht).mp hs with ⟨rfl, -⟩ | ⟨-, hs⟩
      · exact htaken
      · exact h.taken ⟨key', due', chunks', i', hs⟩
    · change f₁.pushed ++ _ = _
      rw [hmore, List.append_assoc]
    · intro x hx
      rcases List.mem_append.mp hx with hx | hx
      · exact hfrom x hx
      · obtain rfl := List.mem_singleton.mp hx
        exact htaken

/-- For every order of schedulings, firings and `Close`, with delays and times in range: no callback
fails; a timer that has not been stopped finds its own bucket; the set of timers is that of the
buckets; nothing is pushed more often than it was scheduled, and a callback that meets an open
filter takes all of its bucket and pushes it, each duplicate once; nothing leaves before its
deadline, and no fire time is a bucket width after it; once the filter is closed only callbacks push
that had taken their chunks. -/
theorem delivers_exactly_once {now : Int} {es : List Event}
    (hrange : Along DuplicationFilter.step InRange { now := now } es) :
    ∃ f os, run DuplicationFilter.step { now := now } es = some (f, os) ∧
      (∀ t key due pos, f.runtime[t]? = some ⟨key, due, pos⟩ → pos = .pending ∨ pos = .fired →
        ∃ chunks, f.buckets.lookup key = some ⟨t, chunks⟩) ∧
      (∀ t, t ∈ f.timers ↔
        ∃ key bucket, f.buckets.lookup key = some bucket ∧ bucket.timer = t) ∧
      (f.pushed.map (Prod.map id Push.dup)).Subperm f.scheduled ∧
      (∀ t key due, f.runtime[t]? = some ⟨key, due, .fired⟩ → f.closed = false →
        ∃ f', f.step (.bucketFired t) = some (f', .moved) ∧
          f'.runtime[t]? = some ⟨key, due, .pushing (f.scheduledIn t) 0⟩) ∧
      (∀ t key due chunks i, f.runtime[t]? = some ⟨key, due, .pushing chunks i⟩ →
        chunks = f.scheduledIn t ∧ f.pushedBy t = chunks.take i ∧
          ∃ f' os', run DuplicationFilter.step f
            (List.replicate (chunks.length - i) (.push t)) = some (f', os') ∧
              f'.pushedBy t = chunks) ∧
      (∀ x ∈ f.pushed, x.2.dup.scheduled + x.2.dup.delay ≤ x.2.time) ∧
      (∀ x ∈ f.scheduled, ∃ key due pos, f.runtime[x.1]? = some ⟨key, due, pos⟩ ∧ due = key ∧
        x.2.scheduled + x.2.delay ≤ key ∧ key < x.2.scheduled + x.2.delay + 1000000) ∧
      (f.closed = true → ∀ es' f' os', run DuplicationFilter.step f es' = some (f', os') →
        ∃ more, f'.pushed = f.pushed ++ more ∧ ∀ x ∈ more, f.Taken x.1) := by
  obtain ⟨f, os, hrun, h⟩ :=
    run_keeps_along (fun f e hrange h => Sound.step h hrange) hrange (sound_new now)
  refine ⟨f, os, hrun, ?_, h.coherent.timers, h.accounted.pushed_subperm,
    fun t key due ht hopen => h.takes ht hopen, ?_, ?_, ?_, ?_⟩
  · intro t key due pos ht hlive
    apply h.coherent.present ht
    rcases hlive with rfl | rfl <;> rfl
  · intro t key due chunks i ht
    exact ⟨h.accounted.taken ht, h.accounted.sent ht, h.accounted.pushes_all ht⟩
  · intro x hx
    exact h.timely.late hx
  · intro x hx
    obtain ⟨key, due, pos, ht, hlo, hhi⟩ := h.timely.window hx
    exact ⟨key, due, pos, ht, (h.timely.due ht).1, hlo, hhi⟩
  · intro hclosed es' f' os' hrest
    have hhere : SinceClose f f :=
      ⟨hclosed, fun ht => ht, [], (List.append_nil _).symm, fun x hx => by cases hx⟩
    have hsince : SinceClose f f' :=
      keeps_of_step (fun h hstep => SinceClose.step h (step_transition hstep)) hhere hrest
    exact hsince.pushed

/-- A chunk from one host to another. -/
def ping : Chunk :=
  .udp ⟨⟨0, ⟨10, 0, 0, 1⟩, ⟨10, 0, 0, 2⟩, "p", false⟩, 1, 2, [7]⟩

/-- Two chunks share a bucket, and the filter is closed while its callback pushes them. -/
def closedMeanwhile : List Event :=
  [.schedule ping 0, .schedule ping 500000, .elapse 1000000, .fire 0, .bucketFired 0, .push 0,
    .close, .stop 0, .push 0]

theorem delivers_exactly_once_closed_meanwhile : ∃ f os,
    run DuplicationFilter.step { now := 1 } closedMeanwhile = some (f, os) ∧
      f.closed = true ∧ f.pushed.length = 2 ∧ ∀ x ∈ f.pushed,
        x.2.dup.scheduled + x.2.dup.delay ≤ x.2.time := by
  obtain ⟨f, os, hrun, -, -, -, -, -, hlate, -⟩ :=
    @delivers_exactly_once 1 closedMeanwhile (by decide)
  obtain ⟨hclosed, hpushed⟩ := holds_of_run hrun
    (fun f _ => f.closed = true ∧ f.pushed.length = 2) (by decide)
  exact ⟨f, os, hrun, hclosed, hpushed, hlate⟩

end PionTransport.Vnet.Duplication
