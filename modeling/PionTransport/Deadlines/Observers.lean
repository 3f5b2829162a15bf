import PionTransport.Deadlines.Invariant

/-!
# The observers of a deadline agree

`Err`, the channel of `Done` and the context of `Context` tell the same, from
the creation or a revival of the deadline up to its next firing. The cancel
function of a firing may be called much later; it cancels the context of its own
generation and no other.
-/

namespace PionTransport.Deadlines

open PionTransport.Core

/-- The step fires the deadline. -/
def Outcome.fires : Outcome → Bool
  | .set fired | .ran _ fired => fired
  | _ => false

/-- The context that the deadline hands out is not cancelled, and no cancel function of it is
under way. -/
structure Handed (d : Deadline) : Prop where
  paired : d.cancel = d.ctx
  current : ∀ n, d.ctx = some n →
    d.contexts[n]? = some none ∧ n ∉ d.cancelling ∧ d.state ≠ .exceeded
  allocated : ∀ n ∈ d.cancelling, n < d.contexts.length
  cause : ∀ (n : Nat) c, d.contexts[n]? = some (some c) → c = .deadlineExceeded

/-- The context is cancelled, or a cancel function of it is about to be called. -/
def Ending (d : Deadline) (n : Nat) : Prop :=
  n ∈ d.cancelling ∨ d.contexts[n]? = some (some .deadlineExceeded)

section Observers

variable {d d' d₁ : Deadline} {e : Event} {o : Outcome} {es : List Event} {os : List Outcome}

theorem Handed.new : Handed new where
  paired := rfl
  current n h := by cases h
  allocated n h := by cases h
  cause n c h := by cases h

theorem Handed.renewed (h : Handed d) (hr : Renewed d d₁) :
    d₁.cancel = d₁.ctx ∧ (∀ n, d₁.ctx = some n → d₁.contexts[n]? = some none ∧ n ∉ d₁.cancelling) ∧
      (∀ n ∈ d₁.cancelling, n < d₁.contexts.length) ∧
      ∀ (n : Nat) c, d₁.contexts[n]? = some (some c) → c = .deadlineExceeded := by
  obtain ⟨hcontexts, hctx, hcancel, hcancelling⟩ := hr.contexts
  rw [hcontexts, hctx, hcancel, hcancelling]
  exact ⟨h.paired, fun n hn => ⟨(h.current n hn).1, (h.current n hn).2.1⟩, h.allocated, h.cause⟩

/-- A firing hands the cancel function of the current context over. -/
theorem handed_fired (hpaired : d.cancel = d.ctx)
    (hcurrent : ∀ n, d.ctx = some n → d.contexts[n]? = some none)
    (hallocated : ∀ n ∈ d.cancelling, n < d.contexts.length)
    (hcause : ∀ (n : Nat) c, d.contexts[n]? = some (some c) → c = .deadlineExceeded) :
    Handed d.fired where
  paired := rfl
  current n h := by cases h
  allocated n hn := by
    obtain hn | hn := List.mem_append.mp hn
    · exact hallocated n hn
    · rw [Option.mem_toList, hpaired] at hn
      exact (List.getElem?_eq_some_iff.mp (hcurrent n hn)).1
  cause := hcause

theorem Handed.step (h : Handed d) (hwf : Wf d) (ht : Transition d e d' o) : Handed d' := by
  cases ht with
  | blocked | exceeded | same | done | err | deadline => exact h
  | suspend hrenew | start hrenew =>
    obtain ⟨hpaired, hcurrent, hallocated, hcause⟩ := h.renewed (hwf.renewed hrenew)
    exact ⟨hpaired, fun n hn => ⟨(hcurrent n hn).1, (hcurrent n hn).2, by simp⟩, hallocated, hcause⟩
  | past hrenew =>
    obtain ⟨hpaired, hcurrent, hallocated, hcause⟩ := h.renewed (hwf.renewed hrenew)
    exact handed_fired hpaired (fun n hn => (hcurrent n hn).1) hallocated hcause
  | expire | leave => exact ⟨h.paired, h.current, h.allocated, h.cause⟩
  | fire => exact handed_fired h.paired (fun n hn => (h.current n hn).1) h.allocated h.cause
  | @cancel i n hn =>
    refine ⟨h.paired, fun m hm => ?_, fun m hm => ?_, fun m c hm => ?_⟩
    · obtain ⟨hopen, hno, hstate⟩ := h.current m hm
      have hne : n ≠ m := fun he => hno (he ▸ List.mem_of_getElem? hn)
      refine ⟨getElem?_modify_iff.mpr ⟨none, hopen, if_neg hne⟩, fun hmem => ?_, hstate⟩
      exact hno (List.mem_of_mem_eraseIdx hmem)
    · rw [List.length_modify]
      exact h.allocated m (List.mem_of_mem_eraseIdx hm)
    · obtain ⟨cause, hcause, he⟩ := getElem?_modify_iff.mp hm
      split at he
      · cases cause with
        | none => exact (Option.some.inj he).symm
        | some c' =>
          obtain rfl : c' = c := Option.some.inj he
          exact h.cause m c' hcause
      · exact h.cause m c (by rw [hcause, he])
  | fresh hstate hctx =>
    refine ⟨rfl, fun n hn => ?_, fun n hn => ?_, fun n c hn => ?_⟩
    · cases hn
      refine ⟨List.getElem?_concat_length, fun hmem => ?_, hstate⟩
      exact absurd (h.allocated _ hmem) (Nat.lt_irrefl _)
    · rw [List.length_append]
      exact Nat.lt_add_right _ (h.allocated n hn)
    · obtain ⟨-, hc⟩ | hn := getElem?_snoc_iff.mp hn
      · cases hc
      · exact h.cause n c hn

/-- No interleaving panics, and both invariants hold after each. -/
theorem handed_run (h : Handed d) (hwf : Wf d) (es : List Event) :
    ∃ d' os, run Deadline.step d es = some (d', os) ∧ Wf d' ∧ Handed d' := by
  refine run_keeps (fun d e (h : Wf d ∧ Handed d) => ?_) es ⟨hwf, h⟩
  obtain ⟨d₁, o, hstep⟩ := h.1.progress e
  have ht := step_transition hstep
  exact ⟨d₁, o, hstep, h.1.step ht, h.2.step h.1 ht⟩

theorem fires_state (ht : Transition d e d' o) (ho : o.fires = true) : d'.state = .exceeded := by
  cases ht with
  | past | fire => rfl
  | _ => cases ho

variable {n ch : Nat}

/-- The current context stays until the deadline fires, and ends then. -/
theorem current_step (h : Handed d) (hwf : Wf d) (ht : Transition d e d' o)
    (hctx : d.ctx = some n) :
    (o.fires = false → d'.ctx = some n) ∧ (o.fires = true → Ending d' n) := by
  have hcancel : n ∈ d.cancelling ++ d.cancel.toList := by simp [h.paired, hctx]
  cases ht with
  | suspend hrenew | start hrenew =>
    obtain ⟨-, hctx₁, -, -⟩ := (hwf.renewed hrenew).contexts
    exact ⟨fun _ => hctx₁.trans hctx, by simp [Outcome.fires]⟩
  | past hrenew =>
    obtain ⟨-, -, hcancel₁, hcancelling₁⟩ := (hwf.renewed hrenew).contexts
    rw [← hcancel₁, ← hcancelling₁] at hcancel
    exact ⟨by simp [Outcome.fires], fun _ => .inl hcancel⟩
  | fire => exact ⟨by simp [Outcome.fires], fun _ => .inl hcancel⟩
  | fresh hstate hnone =>
    rw [hctx] at hnone
    cases hnone
  | _ => exact ⟨fun _ => hctx, by simp [Outcome.fires]⟩

/-- The cancel function of a firing cancels its context. -/
theorem Handed.cancelled (h : Handed d) (hn : n ∈ d.cancelling) :
    (d.contexts.modify n fun cause => cause <|> some .deadlineExceeded)[n]? =
      some (some .deadlineExceeded) := by
  obtain ⟨cause, hcause⟩ : ∃ cause, d.contexts[n]? = some cause :=
    ⟨_, List.getElem?_eq_getElem (h.allocated n hn)⟩
  refine getElem?_modify_iff.mpr ⟨cause, hcause, ?_⟩
  rw [if_pos rfl]
  cases cause with
  | none => rfl
  | some c =>
    rw [h.cause n c hcause]
    rfl

/-- A context that ends does not come back. -/
theorem ending_step (h : Handed d) (hwf : Wf d) (ht : Transition d e d' o) (hn : Ending d n) :
    Ending d' n := by
  cases ht with
  | suspend hrenew | start hrenew =>
    obtain ⟨hcontexts, -, -, hcancelling⟩ := (hwf.renewed hrenew).contexts
    unfold Ending at hn ⊢
    rwa [← hcontexts, ← hcancelling] at hn
  | past hrenew =>
    obtain ⟨hcontexts, -, -, hcancelling⟩ := (hwf.renewed hrenew).contexts
    unfold Ending at hn
    rw [← hcontexts, ← hcancelling] at hn
    exact hn.imp_left fun hn => List.mem_append_left _ hn
  | fire => exact hn.imp_left fun hn => List.mem_append_left _ hn
  | @cancel i m hm =>
    obtain hn | hn := hn
    · by_cases hnm : n = m
      · subst hnm
        exact .inr (h.cancelled hn)
      · left
        obtain ⟨j, hj⟩ := List.mem_iff_getElem?.mp hn
        refine List.mem_eraseIdx_iff_getElem?.mpr ⟨j, fun hji => hnm ?_, hj⟩
        subst hji
        rw [hm] at hj
        exact (Option.some.inj hj).symm
    · refine .inr (getElem?_modify_iff.mpr ⟨_, hn, ?_⟩)
      split <;> rfl
  | fresh => exact hn.imp_right fun hn => getElem?_snoc_iff.mpr (.inr hn)
  | _ => exact hn

theorem ending_run (h : Handed d) (hwf : Wf d) (hn : Ending d n)
    (hrun : run Deadline.step d es = some (d', os)) : Ending d' n := by
  refine (keeps_of_step (I := fun d => Handed d ∧ Wf d ∧ Ending d n) ?_ ⟨h, hwf, hn⟩ hrun).2.2
  rintro d e d' o ⟨h, hwf, hn⟩ hstep
  have ht := step_transition hstep
  exact ⟨h.step hwf ht, hwf.step ht, ending_step h hwf ht hn⟩

/-- The closed channels are the earlier ones, and the current one of an exceeded deadline. -/
theorem closed_iff (hwf : Wf d) :
    d.chans[ch]? = some true ↔ ch < d.done ∨ ch = d.done ∧ d.state = .exceeded := by
  rw [hwf.chans, getElem?_snoc_iff, List.length_replicate, List.getElem?_replicate]
  by_cases hch : ch < d.done
  · simp [hch]
  · simp [hch, eq_comm]

/-- The current channel stays open until the deadline fires, and is closed then. -/
theorem done_step (hwf : Wf d) (ht : Transition d e d' o) (hstate : d.state ≠ .exceeded) :
    (o.fires = false → d'.done = d.done ∧ d'.state ≠ .exceeded) ∧
      (o.fires = true → d'.chans[d.done]? = some true) := by
  have hwf' := hwf.step ht
  cases ht with
  | suspend hrenew | start hrenew =>
    have hdone := (hwf.renewed hrenew).done
    rw [if_neg hstate] at hdone
    exact ⟨fun _ => ⟨hdone, by simp⟩, by simp [Outcome.fires]⟩
  | past hrenew =>
    have hdone := (hwf.renewed hrenew).done
    rw [if_neg hstate] at hdone
    exact ⟨by simp [Outcome.fires], fun _ => (closed_iff hwf').mpr (.inr ⟨hdone.symm, rfl⟩)⟩
  | fire =>
    exact ⟨by simp [Outcome.fires], fun _ => (closed_iff hwf').mpr (.inr ⟨rfl, rfl⟩)⟩
  | _ => exact ⟨fun _ => ⟨rfl, hstate⟩, by simp [Outcome.fires]⟩

/-- A closed channel stays closed. -/
theorem closed_step (hwf : Wf d) (ht : Transition d e d' o) (hch : d.chans[ch]? = some true) :
    d'.chans[ch]? = some true := by
  have hwf' := hwf.step ht
  rw [closed_iff hwf] at hch
  rw [closed_iff hwf']
  have hrenewed : ∀ {d₁}, Renewed d d₁ → ch < d₁.done := by
    intro d₁ hr
    rw [hr.done]
    obtain hlt | ⟨rfl, hstate⟩ := hch
    · split
      · exact Nat.lt_succ_of_lt hlt
      · exact hlt
    · rw [if_pos hstate]
      exact Nat.lt_succ_self _
  cases ht with
  | suspend hrenew | start hrenew | past hrenew =>
    have hlt := hrenewed (hwf.renewed hrenew)
    exact .inl hlt
  | fire => exact hch.imp_right fun hch => ⟨hch.1, rfl⟩
  | _ => exact hch

/-- A context, once handed out, ends exactly if the deadline fires. -/
theorem context_run (h : Handed d) (hwf : Wf d) (hctx : d.ctx = some n)
    (hrun : run Deadline.step d es = some (d', os)) :
    ((∃ o ∈ os, o.fires = true) → Ending d' n) ∧
      ((∀ o ∈ os, o.fires = false) → d'.ctx = some n) := by
  induction hrun using run_induct with
  | nil => exact ⟨by simp, fun _ => hctx⟩
  | @cons _ _ _ o _ _ hstep hrest ih =>
    have ht := step_transition hstep
    obtain ⟨hstay, hend⟩ := current_step h hwf ht hctx
    have h₁ := h.step hwf ht
    have hwf₁ := hwf.step ht
    cases ho : o.fires with
    | true => exact ⟨fun _ => ending_run h₁ hwf₁ (hend ho) hrest, by simp [ho]⟩
    | false => simpa [ho] using ih h₁ hwf₁ (hstay ho)

theorem closed_run (hwf : Wf d) (hch : d.chans[ch]? = some true)
    (hrun : run Deadline.step d es = some (d', os)) : d'.chans[ch]? = some true := by
  refine (keeps_of_step (I := fun d => Wf d ∧ d.chans[ch]? = some true) ?_ ⟨hwf, hch⟩ hrun).2
  rintro d e d' o ⟨hwf, hch⟩ hstep
  have ht := step_transition hstep
  exact ⟨hwf.step ht, closed_step hwf ht hch⟩

/-- An open channel, once handed out, is closed exactly if the deadline fires. -/
theorem done_run (hwf : Wf d) (hstate : d.state ≠ .exceeded)
    (hrun : run Deadline.step d es = some (d', os)) :
    d'.chans[d.done]? = some true ↔ ∃ o ∈ os, o.fires = true := by
  induction hrun using run_induct with
  | nil => simp [closed_iff hwf, hstate]
  | @cons _ _ _ o _ _ hstep hrest ih =>
    have ht := step_transition hstep
    obtain ⟨hstay, hend⟩ := done_step hwf ht hstate
    have hwf₁ := hwf.step ht
    cases ho : o.fires with
    | true => exact iff_of_true (closed_run hwf₁ (hend ho) hrest) ⟨o, List.mem_cons_self, ho⟩
    | false =>
      obtain ⟨hdone, hstate₁⟩ := hstay ho
      simpa [ho, hdone] using ih hwf₁ hstate₁

variable {c : Context}

/-- What `Context` returns is the current context from then on. -/
theorem context_step (hstate : d.state ≠ .exceeded) (ht : Transition d e d' (.context c)) :
    ∃ n, c = .ofNat n ∧ d'.ctx = some n ∧ ∀ m, d.ctx = some m → m = n := by
  cases ht with
  | exceeded hexceeded => exact absurd hexceeded hstate
  | same _ hctx => exact ⟨_, rfl, hctx, fun m hm => Option.some.inj (hm.symm.trans hctx)⟩
  | fresh _ hctx =>
    refine ⟨_, rfl, rfl, fun m hm => ?_⟩
    rw [hctx] at hm
    cases hm

/-- Nothing follows a firing in a stretch without exceeded states. -/
theorem stretch_fires {es : List Event} (ht : Transition d e d' o) (ho : o.fires = true)
    (hstretch : Along Deadline.step (fun d _ => d.state ≠ .exceeded) d' es) : es = [] := by
  cases es with
  | nil => rfl
  | cons e' es => exact absurd (fires_state ht ho) hstretch.1

/-- While the deadline is not exceeded `Context` returns its context. -/
theorem same_context (h : Handed d) (hwf : Wf d) (hctx : d.ctx = some n)
    (hstretch : Along Deadline.step (fun d _ => d.state ≠ .exceeded) d es)
    (hrun : run Deadline.step d es = some (d', os)) (hc : .context c ∈ os) :
    c = .ofNat n := by
  induction hrun using run_induct with
  | nil => cases hc
  | @cons _ _ _ o _ _ hstep hrest ih =>
    obtain ⟨hstate, hstretch⟩ := along_cons hstretch hstep
    have ht := step_transition hstep
    obtain rfl | hc := List.mem_cons.mp hc
    · obtain ⟨m, rfl, -, hm⟩ := context_step hstate ht
      rw [hm n hctx]
    · cases ho : o.fires with
      | true =>
        obtain rfl := stretch_fires ht ho hstretch
        cases hrest
        cases hc
      | false =>
        have hctx₁ := (current_step h hwf ht hctx).1 ho
        exact ih (h.step hwf ht) (hwf.step ht) hctx₁ hstretch hc

/-- All calls of `Context` in a stretch without exceeded states return the same context. -/
theorem contexts_agree (h : Handed d) (hwf : Wf d)
    (hstretch : Along Deadline.step (fun d _ => d.state ≠ .exceeded) d es)
    (hrun : run Deadline.step d es = some (d', os)) {c' : Context} (hc : .context c ∈ os)
    (hc' : .context c' ∈ os) : c = c' := by
  induction hrun using run_induct with
  | nil => cases hc
  | @cons _ _ _ o _ os' hstep hrest ih =>
    obtain ⟨hstate, hstretch⟩ := along_cons hstretch hstep
    have ht := step_transition hstep
    have hfirst : ∀ {c₀ c₁}, o = .context c₀ → .context c₁ ∈ o :: os' → c₁ = c₀ := by
      rintro c₀ c₁ rfl hc₁
      obtain ⟨n, rfl, hctx₁, -⟩ := context_step hstate ht
      obtain hc₁ | hc₁ := List.mem_cons.mp hc₁
      · exact Outcome.context.inj hc₁
      · exact same_context (h.step hwf ht) (hwf.step ht) hctx₁ hstretch hrest hc₁
    obtain he | htail := List.mem_cons.mp hc
    · exact (hfirst he.symm hc').symm
    · obtain he' | htail' := List.mem_cons.mp hc'
      · exact hfirst he'.symm hc
      · exact ih (h.step hwf ht) (hwf.step ht) hstretch htail htail'

/-- All calls of `Done` in a stretch without exceeded states return the same channel. -/
theorem done_agree (hwf : Wf d)
    (hstretch : Along Deadline.step (fun d _ => d.state ≠ .exceeded) d es)
    (hrun : run Deadline.step d es = some (d', os)) (hch : .done ch ∈ os) :
    ch = d.done := by
  induction hrun using run_induct with
  | nil => cases hch
  | @cons _ _ _ o _ _ hstep hrest ih =>
    obtain ⟨hstate, hstretch⟩ := along_cons hstretch hstep
    have ht := step_transition hstep
    obtain rfl | hch := List.mem_cons.mp hch
    · cases ht
      rfl
    · cases ho : o.fires with
      | true =>
        obtain rfl := stretch_fires ht ho hstretch
        cases hrest
        cases hch
      | false =>
        rw [← ((done_step hwf ht hstate).1 ho).1]
        exact ih (hwf.step ht) hstretch hch

/-- In every reachable state `Err`, the channel of `Done` and the context of `Context` tell the
same. From there on, in a stretch without exceeded states all calls of `Context` return the same
context and all calls of `Done` the same channel; a context or an open channel that is handed out
ends exactly if the deadline fires afterwards; and a cancel function that is called late cancels
its own context, not the current one, and closes nothing. -/
theorem observers_agree (es : List Event) :
    ∃ d os, run Deadline.step new es = some (d, os) ∧
      (d.err ≠ none ↔ d.chans[d.done]? = some true) ∧
      (d.err ≠ none ↔ d.context.2 = .exceededContext) ∧
      (∀ es' d' os', Along Deadline.step (fun d _ => d.state ≠ .exceeded) d es' →
        run Deadline.step d es' = some (d', os') →
        (∀ c c', .context c ∈ os' → .context c' ∈ os' → c = c') ∧
        (∀ ch ch', .done ch ∈ os' → .done ch' ∈ os' → ch = ch')) ∧
      (∀ n d₁, d.step .context = some (d₁, .context (.ofNat n)) → ∀ es' d' os',
        run Deadline.step d₁ es' = some (d', os') →
        (Ending d' n ↔ ∃ o ∈ os', o.fires = true) ∧
        ∀ cause, d'.contexts[n]? = some (some cause) → Ending d' n) ∧
      (d.err = none → ∀ es' d' os', run Deadline.step d es' = some (d', os') →
        (d'.chans[d.done]? = some true ↔ ∃ o ∈ os', o.fires = true)) ∧
      (∀ i n, d.cancelling[i]? = some n → ∃ d', d.step (.cancel i) = some (d', .cancelled n) ∧
        d'.contexts[n]? = some (some .deadlineExceeded) ∧ d'.chans = d.chans ∧
        ∀ m, d.ctx = some m → d'.ctx = some m ∧ d'.contexts[m]? = some none) := by
  obtain ⟨d, os, hrun, hwf, h⟩ := handed_run Handed.new Wf.new es
  have herr : d.err ≠ none ↔ d.state = .exceeded := by simp [Deadline.err]
  refine ⟨d, os, hrun, ?_, ?_, fun es' d' os' hstretch hrun' => ⟨?_, ?_⟩, ?_, ?_, ?_⟩
  · rw [herr, closed_iff hwf]
    simp
  · rw [herr, Deadline.context]
    split
    next hstate => simp [hstate]
    next hstate =>
      split <;> simp [hstate]
  · exact fun c c' hc hc' => contexts_agree h hwf hstretch hrun' hc hc'
  · intro ch ch' hch hch'
    rw [done_agree hwf hstretch hrun' hch, done_agree hwf hstretch hrun' hch']
  · intro n d₁ hstep es' d' os' hrun'
    have ht := step_transition hstep
    have hctx : d₁.ctx = some n := by
      cases ht with
      | same _ hctx => exact hctx
      | fresh => rfl
    have h₁ := h.step hwf ht
    have hwf₁ := hwf.step ht
    obtain ⟨hfires, hquiet⟩ := context_run h₁ hwf₁ hctx hrun'
    obtain ⟨d₂, os₂, hrun₂, -, h'⟩ := handed_run h₁ hwf₁ es'
    rw [hrun'] at hrun₂
    cases hrun₂
    refine ⟨⟨fun hend => ?_, hfires⟩, fun cause hcause => ?_⟩
    · by_contra hno
      have hctx' := hquiet fun o ho => eq_false_of_ne_true fun hf => hno ⟨o, ho, hf⟩
      obtain ⟨hopen, hnot, -⟩ := h'.current n hctx'
      obtain hend | hend := hend
      · exact hnot hend
      · rw [hopen] at hend
        cases hend
    · rw [h'.cause n cause hcause] at hcause
      exact .inr hcause
  · intro hnone es' d' os' hrun'
    have hstate : d.state ≠ .exceeded := fun hs => herr.mpr hs hnone
    exact done_run hwf hstate hrun'
  · intro i n hi
    have hstep : ∃ d', d.step (.cancel i) = some (d', .cancelled n) := by
      rw [Deadline.step, Deadline.callCancel, hi]
      exact ⟨_, rfl⟩
    obtain ⟨d', hstep⟩ := hstep
    have ht := step_transition hstep
    refine ⟨d', hstep, ?_, ?_, fun m hm => ?_⟩
    · cases ht with
      | cancel hn => exact h.cancelled (List.mem_of_getElem? hn)
    · cases ht with
      | cancel => rfl
    · have hctx' := (current_step h hwf ht hm).1 rfl
      exact ⟨hctx', ((h.step hwf ht).current m hctx').1⟩

end Observers

end PionTransport.Deadlines
