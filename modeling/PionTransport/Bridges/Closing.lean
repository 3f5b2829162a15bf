import PionTransport.Bridges.Dropping
import PionTransport.Bridges.Sections

/-!
# Closing an endpoint

The channel of an endpoint is closed by `Tick`, after `Close` was requested and when the
queue towards it is empty. Every endpoint ties its flags to that queue, and a `Push` that
has passed its check holds the mutex, so no channel is closed before it is done. Its
packet may still enter after a `Close`; no later one does.
-/

namespace PionTransport.Bridges

open PionTransport.Core

namespace Bridge

variable {b b' : Bridge} {id fromID : Int} {l : Lane}

/-- An endpoint. -/
def conn (b : Bridge) (id : Int) : Conn := if id = 0 then b.conn0 else b.conn1

/-- The sender to an endpoint. -/
def peer (id : Int) : Int := if id = 0 then 1 else 0

/-- The direction towards an endpoint. -/
def toward (b : Bridge) (id : Int) : Lane := b.lane (peer id)

theorem conn_congr (h0 : b'.conn0 = b.conn0) (h1 : b'.conn1 = b.conn1) :
    b'.conn id = b.conn id := by
  unfold conn
  rw [h0, h1]

/-- Setting a direction to fewer packets leaves no more packets in any direction. -/
theorem toward_setLane_subset (h : l.queue.items ⊆ (b.lane fromID).queue.items) :
    ((b.setLane fromID l).toward id).queue.items ⊆ (b.toward id).queue.items := by
  unfold toward
  by_cases hsame : SameWay (peer id) fromID
  · rw [lane_setLane hsame, lane_congr hsame]
    exact h
  · rw [lane_setLane_other hsame]
    exact List.Subset.refl _

/-- `Close` closes its endpoint. -/
theorem conn_close (h : SameWay id fromID) :
    (b.close fromID).1.conn id = (b.conn id).close.1 := by
  unfold close conn
  by_cases hzero : fromID = 0
  · rw [if_pos hzero, if_pos (h.mpr hzero), if_pos (h.mpr hzero)]
  · rw [if_neg hzero, if_neg (fun hid => hzero (h.mp hid)), if_neg (fun hid => hzero (h.mp hid))]

/-- `Close` leaves the other endpoint. -/
theorem conn_close_other (h : ¬ SameWay id fromID) : (b.close fromID).1.conn id = b.conn id := by
  unfold close conn
  by_cases hzero : fromID = 0
  · have hid : ¬ id = 0 := fun hid => h ⟨fun _ => hzero, fun _ => hid⟩
    rw [if_pos hzero, if_neg hid, if_neg hid]
  · have hid : id = 0 := by
      by_contra hid
      exact h ⟨fun hid' => (hid hid').elim, fun h => (hzero h).elim⟩
    rw [if_neg hzero, if_pos hid, if_pos hid]

/-- `Close` leaves the queues. -/
theorem toward_close : (b.close fromID).1.toward id = b.toward id := by
  unfold toward close
  split <;> rfl

/-- A `Push` that goes on found no endpoint closing. -/
theorem closing_of_not_refuses (h : b.refuses fromID = none) :
    b.conn0.closing = false ∧ b.conn1.closing = false := by
  unfold refuses at h
  split at h
  · split at h
    · cases h
    · split at h <;> cases h
  next hclosing =>
    obtain ⟨h0, h1⟩ := not_or.mp hclosing
    exact ⟨Bool.eq_false_iff.mpr h0, Bool.eq_false_iff.mpr h1⟩

/-- A range that starts inside the queue brings nothing new. -/
theorem drop_subset {grow : Nat → Nat → Nat} {s t : Backed Packet} {offset n : Int}
    (hoffset : 0 ≤ offset) (hinside : offset ≤ s.len)
    (h : Bridges.drop grow s offset n = some t) : t.items ⊆ s.items := by
  obtain ⟨o, rfl⟩ := Int.eq_ofNat_of_zero_le hoffset
  unfold Bridges.drop at h
  obtain ⟨front, hfront, h⟩ := Option.bind_eq_some_iff.mp h
  obtain ⟨back, hback, h⟩ := Option.bind_eq_some_iff.mp h
  rw [Backed.upTo?_eq (Int.ofNat_le.mp hinside)] at hfront
  cases hfront
  cases h
  obtain ⟨-, -, rfl⟩ := Backed.from?_eq_some hback
  rw [Backed.items_append]
  exact List.append_subset.mpr ⟨List.take_subset _ _, List.drop_subset _ _⟩

end Bridge

/-- The flags of an endpoint and the queue towards it. -/
structure Tied (c : Conn) (l : Lane) : Prop where
  requested : c.closing = c.closeReq
  closed : c.readChClosed = c.closed
  after : c.closed = true → c.closing = true
  empty : c.closed = true → l.queue.items = []

namespace Tied

variable {c : Conn} {l l' : Lane}

/-- Packets may leave the queue. -/
theorem less (h : Tied c l) (hqueue : l'.queue.items ⊆ l.queue.items) : Tied c l' where
  requested := h.requested
  closed := h.closed
  after := h.after
  empty hclosed := List.subset_nil.mp (h.empty hclosed ▸ hqueue)

/-- Closing an endpoint keeps its ties. -/
theorem close (h : Tied c l) : Tied c.close.1 l := by
  unfold Conn.close
  split
  · exact h
  · exact ⟨rfl, h.closed, fun _ => rfl, h.empty⟩

/-- `Tick` does not close a channel twice. -/
theorem finish (h : Tied c l) : ∃ c', c.finish l.queue = some c' ∧ Tied c' l ∧
    c'.closeReq = c.closeReq ∧
    (c' = c ∨ c.readChClosed = false ∧ c.closeReq = true ∧ l.queue.items = []) := by
  unfold Conn.finish
  by_cases hfinish : c.closing = true ∧ ¬ c.closed = true ∧ l.queue.len = 0
  · obtain ⟨hclosing, hclosed, hlen⟩ := hfinish
    have hopen : ¬ c.readChClosed = true := by
      rw [h.closed]
      exact hclosed
    have hempty : l.queue.items = [] := by
      apply List.eq_nil_of_length_eq_zero
      exact Int.ofNat_inj.mp hlen
    have hrequested : c.closeReq = true := h.requested ▸ hclosing
    rw [if_pos ⟨hclosing, hclosed, hlen⟩, if_neg hopen]
    refine ⟨_, rfl, ⟨h.requested, rfl, fun _ => hclosing, fun _ => hempty⟩, rfl, .inr ?_⟩
    exact ⟨Bool.eq_false_iff.mpr hopen, hrequested, hempty⟩
  · rw [if_neg hfinish]
    exact ⟨c, rfl, h, rfl, .inl rfl⟩

end Tied

namespace Shared

open Bridge

variable {grow : Nat → Nat → Nat} {s s' : Shared} {e : Event} {o : Reply} {id : Int}

/-- What a `Push` past its check may still put into the queue towards an endpoint. -/
def underway (s : Shared) (id : Int) : List Packet :=
  match s.holder with
  | some (.enqueue data fromID) =>
    if SameWay (peer id) fromID then (s.bridge.toward id).stack ++ [data] else []
  | _ => []

/-- The flags are tied to the queues, and a `Push` past its check finds no closed channel. -/
structure Sound (s : Shared) : Prop where
  tied : ∀ id, Tied (s.bridge.conn id) (s.bridge.toward id)
  pushing : ∀ {data fromID}, s.holder = some (.enqueue data fromID) →
    ∀ id, (s.bridge.conn id).closed = false

/-- What one section does at an endpoint. -/
inductive Touch (id : Int) (s s' : Shared) : Prop
  | less (hconn : s'.bridge.conn id = s.bridge.conn id)
      (hqueue : (s'.bridge.toward id).queue.items ⊆ (s.bridge.toward id).queue.items)
  | request (hconn : s'.bridge.conn id = (s.bridge.conn id).close.1)
      (hlane : s'.bridge.toward id = s.bridge.toward id)
  | finish
      (hconn : (s.bridge.conn id).finish (s.bridge.toward id).queue = some (s'.bridge.conn id))
      (hlane : s'.bridge.toward id = s.bridge.toward id)
      (hholder : ∀ data fromID, s'.holder ≠ some (.enqueue data fromID))
  | enter {data : Packet} {fromID : Int} (hholder : s.holder = some (.enqueue data fromID))
      (hconn : s'.bridge.conn id = s.bridge.conn id)
      (hqueue : (s'.bridge.toward id).queue.items ⊆
        (s.bridge.toward id).queue.items ++ s.underway id)

/-- A `Push` past its check was there before, or has read that no endpoint is closing. -/
def Passed (s s' : Shared) : Prop :=
  ∀ data fromID, s'.holder = some (.enqueue data fromID) →
    (s.holder = s'.holder ∧ ∀ id, s'.bridge.toward id = s.bridge.toward id) ∨
      ∀ id, (s.bridge.conn id).closing = false

theorem passed_of_free (h : ∀ data fromID, s'.holder ≠ some (.enqueue data fromID)) :
    Passed s s' := fun data fromID hholder => (h data fromID hholder).elim

theorem touch_refl (s : Shared) (id : Int) : Touch id s s := .less rfl (List.Subset.refl _)

section Keep

/-- What a step does to an endpoint keeps its ties. -/
theorem Touch.tied (h : Touch id s s') (hs : Sound s) :
    Tied (s'.bridge.conn id) (s'.bridge.toward id) := by
  cases h with
  | less hconn hqueue =>
    rw [hconn]
    exact (hs.tied id).less hqueue
  | request hconn hlane =>
    rw [hconn, hlane]
    exact (hs.tied id).close
  | finish hconn hlane =>
    obtain ⟨c', hfinish, htied, -⟩ := (hs.tied id).finish
    rw [hfinish] at hconn
    rw [← Option.some.inj hconn, hlane]
    exact htied
  | enter hholder hconn hqueue =>
    have htied := hs.tied id
    have hopen := hs.pushing hholder id
    rw [hconn]
    refine ⟨htied.requested, htied.closed, htied.after, fun hclosed => ?_⟩
    rw [hopen] at hclosed
    cases hclosed

/-- `Close` only asks for the closing. -/
theorem close_closed (c : Conn) : c.close.1.closed = c.closed := by
  unfold Conn.close
  split <;> rfl

/-- Where a `Push` is past its check the section has not closed a channel. -/
theorem Touch.closed_eq (h : Touch id s s') {data : Packet} {fromID : Int}
    (hholder : s'.holder = some (.enqueue data fromID)) :
    (s'.bridge.conn id).closed = (s.bridge.conn id).closed := by
  cases h with
  | less hconn | enter _ hconn => rw [hconn]
  | request hconn => rw [hconn, close_closed]
  | finish _ _ hfree => exact (hfree data fromID hholder).elim

/-- A step keeps the invariant. -/
theorem Sound.step (hs : Sound s) (htouch : ∀ id, Touch id s s') (hpassed : Passed s s') :
    Sound s' where
  tied id := (htouch id).tied hs
  pushing := by
    intro data fromID hholder id
    rw [(htouch id).closed_eq hholder]
    rcases hpassed data fromID hholder with ⟨hsame, -⟩ | hclosing
    · exact hs.pushing (hsame.trans hholder) id
    · apply Bool.eq_false_iff.mpr
      intro hclosed
      have hclosing' := (hs.tied id).after hclosed
      rw [hclosing id] at hclosing'
      cases hclosing'

/-- A new bridge meets the invariant. -/
theorem sound_new : Sound {} where
  tied id := by
    have hconn : newBridge.conn id = {} := by
      unfold conn newBridge
      split <;> rfl
    refine ⟨?_, ?_, ?_, ?_⟩ <;> rw [hconn]
    · nofun
    · nofun
  pushing := nofun

end Keep

/-- The queues when the last `Tick` got the mutex. -/
structure Began where
  queue0 : List Packet := []
  queue1 : List Packet := []

/-- Record the beginning of a `Tick`. -/
def watch (s : Shared) (g : Began) (e : Event) : Began :=
  match e, s.holder with
  | .tick, none => ⟨s.bridge.lane0.queue.items, s.bridge.lane1.queue.items⟩
  | _, _ => g

/-- How far a `Tick` has come. -/
def Ticking (g : Began) (s : Shared) : Prop :=
  match s.holder with
  | some .finish1 | some .deliver0 =>
    s.bridge.lane0.queue.items = g.queue0 ∧ s.bridge.lane1.queue.items = g.queue1
  | some (.deliver1 to1) =>
    g.queue0 = to1.toList ++ s.bridge.lane0.queue.items ∧ s.bridge.lane1.queue.items = g.queue1
  | _ => True

/-- A `Tick` that returns has handed over at most the first packet of each queue, and has removed
exactly what it has handed over. -/
def HandsOver (g : Began) (s' : Shared) (o : Reply) : Prop :=
  ∀ n handed, o = .returned (.ticked n handed) → n = handed.n ∧
    g.queue0 = handed.to1.toList ++ s'.bridge.lane0.queue.items ∧
    g.queue1 = handed.to0.toList ++ s'.bridge.lane1.queue.items

/-- Drops start inside the queue. -/
def OffsetInside (s : Shared) : Event → Prop
  | .drop fromID offset _ => 0 ≤ offset ∧ offset ≤ (s.bridge.lane fromID).queue.len
  | _ => True

instance (s : Shared) (e : Event) : Decidable (s.OffsetInside e) := by
  cases e <;> unfold OffsetInside <;> infer_instance

/-- What one section does. -/
structure Does (g : Began) (s : Shared) (e : Event) (s' : Shared) (o : Reply) : Prop where
  touch : ∀ id, Touch id s s'
  passed : Passed s s'
  ticking : Ticking (watch s g e) s'
  hands : HandsOver (watch s g e) s' o

section Does

variable {g : Began} {b b' : Bridge} {waiting : Bool} {rest : Section}

/-- A call that is blocked or has nothing to do. -/
theorem does_nothing (hg : Ticking (watch s g e) s)
    (ho : ∀ n handed, o ≠ .returned (.ticked n handed)) : Does g s e s o where
  touch := touch_refl s
  passed _ _ _ := .inl ⟨rfl, fun _ => rfl⟩
  ticking := hg
  hands n handed h := (ho n handed h).elim

/-- A call in one section that leaves the endpoints and brings no packet. -/
theorem does_less (h0 : b'.conn0 = b.conn0) (h1 : b'.conn1 = b.conn1)
    (hqueue : ∀ id, (b'.toward id).queue.items ⊆ (b.toward id).queue.items)
    (ho : ∀ n handed, o ≠ .returned (.ticked n handed)) : Does g ⟨b, none⟩ e ⟨b', none⟩ o where
  touch id := .less (conn_congr h0 h1) (hqueue id)
  passed := passed_of_free nofun
  ticking := trivial
  hands n handed h := (ho n handed h).elim

/-- Setting a direction to fewer packets. -/
theorem does_setLane {fromID : Int} {l : Lane} (h : l.queue.items ⊆ (b.lane fromID).queue.items)
    (ho : ∀ n handed, o ≠ .returned (.ticked n handed)) :
    Does g ⟨b, none⟩ e ⟨b.setLane fromID l, none⟩ o :=
  does_less setLane_conn0 setLane_conn1 (fun _ => toward_setLane_subset h) ho

/-- What `Close` does. -/
theorem close_does (hg : Ticking g s) (fromID : Int) :
    ∃ s' o, s.step grow (.close fromID) = some (s', o) ∧ Does g s (.close fromID) s' o := by
  refine ⟨_, _, rfl, fun id => ?_, ?_, ?_, nofun⟩
  · by_cases hid : SameWay id fromID
    · exact .request (conn_close hid) toward_close
    · refine .less (conn_close_other hid) ?_
      rw [toward_close]
      exact List.Subset.refl _
  · exact fun _ _ _ => .inl ⟨rfl, fun id => toward_close⟩
  · have h0 : (s.bridge.close fromID).1.lane0 = s.bridge.lane0 := by
      unfold Bridge.close
      split <;> rfl
    have h1 : (s.bridge.close fromID).1.lane1 = s.bridge.lane1 := by
      unfold Bridge.close
      split <;> rfl
    unfold Ticking at hg ⊢
    simp only [h0, h1]
    exact hg

/-- What `Push` does up to its check. -/
theorem push_does (g : Began) (b : Bridge) (packet : List UInt8) (fromID : Int) :
    ∃ s' o, start grow b (.push packet fromID) = some (s', o) ∧
      Does g ⟨b, none⟩ (.push packet fromID) s' o := by
  unfold start
  cases hrefuses : (b.make packet).1.refuses fromID with
  | some ok =>
    refine ⟨⟨(b.make packet).1, none⟩, .returned (.pushed (b.make packet).2 ok []), ?_, ?_⟩
    · simp only [hrefuses]
    · exact does_less rfl rfl (fun _ => List.Subset.refl _) nofun
  | none =>
    obtain ⟨h0, h1⟩ := closing_of_not_refuses hrefuses
    refine ⟨⟨(b.make packet).1, some (.enqueue (b.make packet).2 fromID)⟩, .going, ?_, fun id => ?_,
      fun _ _ _ => .inr fun id => ?_, trivial, nofun⟩
    · simp only [hrefuses]
    · exact .less rfl (List.Subset.refl _)
    · unfold conn
      split
      · exact h0
      · exact h1

/-- What `Tick` does up to its first unlock. -/
theorem tick_does (g : Began) (hs : Sound ⟨b, none⟩) :
    ∃ s' o, start grow b .tick = some (s', o) ∧ Does g ⟨b, none⟩ .tick s' o := by
  obtain ⟨c, hfinish, -⟩ := (hs.tied 0).finish
  have hfinish' : b.conn0.finish b.lane1.queue = some c := hfinish
  refine ⟨⟨{ b with conn0 := c }, some .finish1⟩, .going, ?_, fun id => ?_, passed_of_free nofun,
    ⟨rfl, rfl⟩, nofun⟩
  · simp only [start, finish0, hfinish', Option.map_some]
  · by_cases hid : id = 0
    · subst hid
      exact .finish hfinish rfl nofun
    · refine .less ?_ (List.Subset.refl _)
      unfold conn
      rw [if_neg hid, if_neg hid]

/-- What the first section of a call does. -/
theorem start_does (grow : Nat → Nat → Nat) (hs : Sound ⟨b, none⟩) (hin : OffsetInside ⟨b, none⟩ e)
    (hclose : ∀ id, e ≠ .close id) :
    ∃ s' o, start grow b e = some (s', o) ∧ Does g ⟨b, none⟩ e s' o := by
  cases e with
  | push packet fromID => exact push_does g b packet fromID
  | tick => exact tick_does g hs
  | proceed waiting => exact ⟨_, _, rfl, does_nothing trivial (fun _ _ h => by cases h)⟩
  | reorder fromID =>
    obtain ⟨items, err, hinverse, hperm⟩ := inverse_perm (b.lane fromID).queue.items
    refine ⟨⟨b.setLane fromID
        { b.lane fromID with queue := { (b.lane fromID).queue with items := items } }, none⟩,
      .returned (.reordered err), ?_, does_setLane hperm.subset (fun _ _ h => by cases h)⟩
    simp only [start, reorder, hinverse, Option.map_some]
  | drop fromID offset n =>
    unfold start
    cases hdrop : b.drop grow fromID offset n with
    | none =>
      refine ⟨⟨b, none⟩, .panicked, ?_, does_nothing trivial (fun _ _ h => by cases h)⟩
      simp only [hdrop]
    | some b' =>
      obtain ⟨queue, hqueue, rfl⟩ := drop_eq_some_iff.mp hdrop
      refine ⟨⟨b.setLane fromID { b.lane fromID with queue := queue }, none⟩, .returned .done, ?_,
        does_setLane (drop_subset hin.1 hin.2 hqueue) (fun _ _ h => by cases h)⟩
      simp only [hdrop]
  | dropNextNWrites | reorderNextNWrites | filter =>
    exact ⟨_, _, rfl, does_setLane (List.Subset.refl _) (fun _ _ h => by cases h)⟩
  | close id => exact (hclose id rfl).elim

/-- What `Push` does after its check. -/
theorem enqueue_does (g : Began) (b : Bridge) (data : Packet) (fromID : Int) (waiting : Bool) :
    ∃ s' o, proceed grow b waiting (.enqueue data fromID) = some (s', o) ∧
      Does g ⟨b, some (.enqueue data fromID)⟩ (.proceed waiting) s' o := by
  obtain ⟨b', entered, henqueue, henqueued⟩ := enqueue_enqueued grow b data fromID
  obtain ⟨err, hpushed⟩ := henqueued.lane
  refine ⟨⟨b', none⟩, .returned (.pushed data true (b.entered b' fromID)), ?_, fun id => ?_,
    passed_of_free nofun, trivial, nofun⟩
  · simp only [proceed, henqueue, Option.map_some]
  · refine .enter rfl (conn_congr henqueued.conn0 henqueued.conn1) ?_
    unfold underway toward
    by_cases hid : SameWay (peer id) fromID
    · simp only [if_pos hid, lane_congr hid, hpushed.items]
      exact List.append_subset.mpr ⟨List.subset_append_left _ _,
        List.subset_append_of_subset_right _ (Lane.Pushed.subset hpushed).1⟩
    · rw [henqueued.other _ hid]
      exact List.subset_append_left _ _

/-- What `Tick` does after looking at endpoint 0. -/
theorem finish1_does {b : Bridge} (hs : Sound ⟨b, some .finish1⟩)
    (hg : Ticking g ⟨b, some .finish1⟩) (waiting : Bool) :
    ∃ s' o, proceed grow b waiting .finish1 = some (s', o) ∧
      Does g ⟨b, some .finish1⟩ (.proceed waiting) s' o := by
  obtain ⟨c, hfinish, -⟩ := (hs.tied 1).finish
  have hfinish' : b.conn1.finish b.lane0.queue = some c := hfinish
  refine ⟨⟨{ b with conn1 := c }, some .deliver0⟩, .going, ?_, fun id => ?_, passed_of_free nofun,
    hg, nofun⟩
  · simp only [proceed, finish1, hfinish', Option.map_some]
  · by_cases hid : id = 0
    · refine .less ?_ (List.Subset.refl _)
      unfold conn
      rw [if_pos hid, if_pos hid]
    · refine .finish ?_ rfl nofun
      unfold conn toward peer
      rw [if_neg hid, if_neg hid, if_neg hid]
      exact hfinish'

/-- What `Tick` does after looking at both endpoints. -/
theorem deliver0_does {b : Bridge} (hs : Sound ⟨b, some .deliver0⟩)
    (hg : Ticking g ⟨b, some .deliver0⟩) (waiting : Bool) :
    ∃ s' o, proceed grow b waiting .deliver0 = some (s', o) ∧
      Does g ⟨b, some .deliver0⟩ (.proceed waiting) s' o := by
  have htied : Tied b.conn1 b.lane0 := hs.tied 1
  obtain ⟨queue, packet, hdeliver, hitems, -⟩ :=
    b.lane0.deliver_eq waiting (fun h => htied.closed ▸ h)
  refine ⟨⟨{ b with lane0 := { b.lane0 with queue := queue } }, some (.deliver1 packet)⟩, .going,
    ?_, fun id => ?_, passed_of_free nofun, ⟨?_, hg.2⟩, nofun⟩
  · simp only [proceed, hdeliver, Option.map_some]
  · refine .less rfl ?_
    unfold toward lane
    split
    · exact hitems ▸ List.subset_append_right _ _
    · exact List.Subset.refl _
  · exact hg.1.symm.trans hitems

/-- What `Tick` does in its last section. -/
theorem deliver1_does {b : Bridge} {to1 : Option Packet} (hs : Sound ⟨b, some (.deliver1 to1)⟩)
    (hg : Ticking g ⟨b, some (.deliver1 to1)⟩) (waiting : Bool) :
    ∃ s' o, proceed grow b waiting (.deliver1 to1) = some (s', o) ∧
      Does g ⟨b, some (.deliver1 to1)⟩ (.proceed waiting) s' o := by
  have htied : Tied b.conn0 b.lane1 := hs.tied 0
  obtain ⟨queue, packet, hdeliver, hitems, -⟩ :=
    b.lane1.deliver_eq waiting (fun h => htied.closed ▸ h)
  refine ⟨⟨{ b with lane1 := { b.lane1 with queue := queue } }, none⟩,
    .returned (.ticked (Handed.n ⟨packet, to1⟩) ⟨packet, to1⟩), ?_, fun id => ?_,
    passed_of_free nofun, trivial, fun n handed h => ?_⟩
  · simp only [proceed, hdeliver, Option.map_some]
  · refine .less rfl ?_
    unfold toward lane
    split
    · exact List.Subset.refl _
    · exact hitems ▸ List.subset_append_right _ _
  · cases h
    exact ⟨rfl, hg.1, hg.2.symm.trans hitems⟩

/-- What a later section of a call does. -/
theorem proceed_does (hs : Sound ⟨b, some rest⟩) (hg : Ticking g ⟨b, some rest⟩) (waiting : Bool) :
    ∃ s' o, proceed grow b waiting rest = some (s', o) ∧
      Does g ⟨b, some rest⟩ (.proceed waiting) s' o := by
  cases rest with
  | enqueue data fromID => exact enqueue_does g b data fromID waiting
  | finish1 => exact finish1_does hs hg waiting
  | deliver0 => exact deliver0_does hs hg waiting
  | deliver1 to1 => exact deliver1_does hs hg waiting

/-- No section panics. -/
theorem step_does (grow : Nat → Nat → Nat) (hs : Sound s) (hg : Ticking g s)
    (hin : s.OffsetInside e) :
    ∃ s' o, s.step grow e = some (s', o) ∧ Does g s e s' o := by
  obtain ⟨b, holder⟩ := s
  cases holder with
  | none =>
    cases e with
    | close id => exact close_does hg id
    | push | tick | proceed | reorder | drop | dropNextNWrites | reorderNextNWrites | filter =>
      exact start_does grow hs hin nofun
  | some rest =>
    cases e with
    | close id => exact close_does hg id
    | proceed waiting => exact proceed_does hs hg waiting
    | push | tick | reorder | drop | dropNextNWrites | reorderNextNWrites | filter =>
      exact ⟨_, _, rfl, does_nothing hg nofun⟩

end Does

/-- The channel of an endpoint is closed by a section only after its `Close` was requested and while
the queue towards it is empty. -/
def ClosesRightly (id : Int) (s s' : Shared) : Prop :=
  (s.bridge.conn id).readChClosed = false → (s'.bridge.conn id).readChClosed = true →
    (s.bridge.conn id).closeReq = true ∧ (s.bridge.toward id).queue.items = []

/-- A section closes a channel only on request and with nothing left for it. -/
theorem Touch.closesRightly (h : Touch id s s') (hs : Sound s) : ClosesRightly id s s' := by
  intro hopen hclosed
  cases h with
  | less hconn | enter _ hconn =>
    rw [hconn, hopen] at hclosed
    cases hclosed
  | request hconn =>
    have hsame : ∀ c : Conn, c.close.1.readChClosed = c.readChClosed := by
      intro c
      unfold Conn.close
      split <;> rfl
    rw [hconn, hsame, hopen] at hclosed
    cases hclosed
  | finish hconn =>
    obtain ⟨c, hfinish, -, -, hc⟩ := (hs.tied id).finish
    rw [hfinish] at hconn
    cases Option.some.inj hconn
    rcases hc with heq | ⟨-, hrequested, hempty⟩
    · rw [heq, hopen] at hclosed
      cases hclosed
    · exact ⟨hrequested, hempty⟩

/-- What a later state may differ in. -/
structure Later (s s' : Shared) : Prop where
  /-- a closed channel stays closed, and the queue towards it empty -/
  closed : ∀ id, (s.bridge.conn id).readChClosed = true →
    (s'.bridge.conn id).readChClosed = true ∧ (s'.bridge.toward id).queue.items = []
  requested : ∀ id, (s.bridge.conn id).closeReq = true → (s'.bridge.conn id).closeReq = true
  /-- after a request no packet enters but that of a `Push` past its check -/
  shut : (∃ id, (s.bridge.conn id).closeReq = true) →
    ∀ id, (s'.bridge.toward id).queue.items ⊆ (s.bridge.toward id).queue.items ++ s.underway id
  underway : (∃ id, (s.bridge.conn id).closeReq = true) → ∀ id, s'.underway id ⊆ s.underway id

theorem Later.refl (hs : Sound s) : Later s s where
  closed id hclosed := by
    rw [(hs.tied id).closed] at hclosed
    exact ⟨(hs.tied id).closed.trans hclosed, (hs.tied id).empty hclosed⟩
  requested _ h := h
  shut _ _ := List.subset_append_left _ _
  underway _ _ := List.Subset.refl _

/-- Later states follow each other. -/
theorem Later.trans {s'' : Shared} (h : Later s s') (h' : Later s' s'') : Later s s'' where
  closed id hclosed := h'.closed id (h.closed id hclosed).1
  requested id hrequested := h'.requested id (h.requested id hrequested)
  shut hrequested id := by
    obtain ⟨id', hid'⟩ := hrequested
    have hrequested' : ∃ id, (s'.bridge.conn id).closeReq = true := ⟨id', h.requested id' hid'⟩
    apply List.Subset.trans (h'.shut hrequested' id)
    apply List.append_subset.mpr
    refine ⟨h.shut ⟨id', hid'⟩ id, ?_⟩
    exact List.subset_append_of_subset_right _ (h.underway ⟨id', hid'⟩ id)
  underway hrequested id := by
    obtain ⟨id', hid'⟩ := hrequested
    exact List.Subset.trans (h'.underway ⟨id', h.requested id' hid'⟩ id) (h.underway ⟨id', hid'⟩ id)

/-- A request to close stays. -/
theorem Touch.keeps_request (h : Touch id s s') (hs : Sound s)
    (hrequested : (s.bridge.conn id).closeReq = true) : (s'.bridge.conn id).closeReq = true := by
  cases h with
  | less hconn | enter _ hconn => rwa [hconn]
  | request hconn =>
    rw [hconn, Conn.close, if_pos hrequested]
    exact hrequested
  | finish hconn =>
    obtain ⟨c, hfinish, -, heq, -⟩ := (hs.tied id).finish
    rw [hfinish] at hconn
    cases Option.some.inj hconn
    rwa [heq]

/-- A closed channel stays closed. -/
theorem Touch.keeps_closed (h : Touch id s s') (hs : Sound s)
    (hclosed : (s.bridge.conn id).readChClosed = true) :
    (s'.bridge.conn id).readChClosed = true := by
  cases h with
  | less hconn | enter _ hconn => rwa [hconn]
  | request hconn =>
    rw [hconn, Conn.close]
    split
    · exact hclosed
    · exact hclosed
  | finish hconn =>
    obtain ⟨c, hfinish, -, -, hc⟩ := (hs.tied id).finish
    rw [hfinish] at hconn
    cases Option.some.inj hconn
    rcases hc with heq | ⟨hopen, -⟩
    · rwa [heq]
    · rw [hclosed] at hopen
      cases hopen

/-- Only a packet under way enters a queue. -/
theorem Touch.shut (h : Touch id s s') : (s'.bridge.toward id).queue.items ⊆
    (s.bridge.toward id).queue.items ++ s.underway id := by
  cases h with
  | less _ hqueue => exact List.subset_append_of_subset_left _ hqueue
  | request _ hlane | finish _ hlane =>
    rw [hlane]
    exact List.subset_append_left _ _
  | enter _ _ hqueue => exact hqueue

/-- Once a `Close` was requested no further `Push` passes its check. -/
theorem Passed.underway (h : Passed s s') (hs : Sound s)
    (hrequested : ∃ id, (s.bridge.conn id).closeReq = true) (id : Int) :
    s'.underway id ⊆ s.underway id := by
  obtain ⟨id', hid'⟩ := hrequested
  cases hholder : s'.holder with
  | none =>
    simp only [Shared.underway, hholder]
    exact List.nil_subset _
  | some rest =>
    cases rest with
    | enqueue data fromID =>
      rcases h data fromID hholder with ⟨hsame, hlanes⟩ | hclosing
      · simp only [Shared.underway, hsame, hholder, hlanes id]
        exact List.Subset.refl _
      · rw [← (hs.tied id').requested, hclosing id'] at hid'
        cases hid'
    | finish1 | deliver0 | deliver1 =>
      simp only [Shared.underway, hholder]
      exact List.nil_subset _

/-- A step leads to a later state. -/
theorem later_of_touch (hs : Sound s) (htouch : ∀ id, Touch id s s') (hpassed : Passed s s') :
    Later s s' where
  closed id hclosed := by
    have htied := (htouch id).tied hs
    have hclosed' := (htouch id).keeps_closed hs hclosed
    refine ⟨hclosed', htied.empty ?_⟩
    rw [← htied.closed]
    exact hclosed'
  requested id := (htouch id).keeps_request hs
  shut _ id := (htouch id).shut
  underway hrequested := hpassed.underway hs hrequested

/-- A run leads to a later state. -/
theorem run_later {events : List Event} (hs : Sound s) (g : Began) (hg : Ticking g s)
    (hinside : Along (step grow) OffsetInside s events) :
    ∃ s' os, run (step grow) s events = some (s', os) ∧ Sound s' ∧ Later s s' ∧
      ∃ g', Ticking g' s' := by
  have hkeeps : ∀ s₁ e, s₁.OffsetInside e → (Sound s₁ ∧ Later s s₁ ∧ ∃ g, Ticking g s₁) →
      ∃ s₂ o, step grow s₁ e = some (s₂, o) ∧ Sound s₂ ∧ Later s s₂ ∧ ∃ g, Ticking g s₂ := by
    rintro s₁ e hin ⟨hs₁, hlater, g₁, hg₁⟩
    obtain ⟨s₂, o, hstep, hdoes⟩ := step_does grow hs₁ hg₁ hin
    exact ⟨s₂, o, hstep, hs₁.step hdoes.touch hdoes.passed,
      hlater.trans (later_of_touch hs₁ hdoes.touch hdoes.passed), _, hdoes.ticking⟩
  exact run_keeps_along hkeeps hinside ⟨hs, .refl hs, g, hg⟩

/-- A section does not panic, closes channels rightly, and is part of a `Tick` that hands over the
first packets. -/
def Orderly (grow : Nat → Nat → Nat) (sg : Shared × Began) (e : Event) : Prop :=
  ∃ s' o, step grow sg.1 e = some (s', o) ∧ (∀ id, ClosesRightly id sg.1 s') ∧
    HandsOver (watch sg.1 sg.2 e) s' o

/-- In every interleaving each section is orderly, a closed channel stays closed with an empty queue
towards it, and after a request only the packet of a `Push` that had passed its check enters. -/
theorem closing_delivers_queued (grow : Nat → Nat → Nat) {events : List Event}
    (hinside : Along (step grow) OffsetInside {} events) :
    Along (observe (step grow) watch) (Orderly grow) ({}, {}) events ∧
    ∀ before after, events = before ++ after →
      ∃ s os s' os', run (step grow) {} before = some (s, os) ∧
        run (step grow) s after = some (s', os') ∧ Later s s' := by
  constructor
  · have hnew : Sound {} ∧ Ticking {} {} := ⟨sound_new, trivial⟩
    apply Along.of_invariant (I := fun sg : Shared × Began => Sound sg.1 ∧ Ticking sg.2 sg.1) _ _
      hnew (hinside.observe watch {})
    · rintro ⟨s, g⟩ e ⟨s', g'⟩ o ⟨hs, hg⟩ hin hobserve
      obtain ⟨s₁, o₁, hstep, hdoes⟩ := step_does grow hs hg hin
      simp only [observe, hstep, Option.map_some] at hobserve
      obtain ⟨hpair, -⟩ := Prod.mk.inj (Option.some.inj hobserve)
      obtain ⟨rfl, rfl⟩ := Prod.mk.inj hpair
      exact ⟨hs.step hdoes.touch hdoes.passed, hdoes.ticking⟩
    · rintro ⟨s, g⟩ e ⟨hs, hg⟩ hin
      obtain ⟨s', o, hstep, hdoes⟩ := step_does grow hs hg hin
      exact ⟨s', o, hstep, fun id => (hdoes.touch id).closesRightly hs, hdoes.hands⟩
  · rintro before after rfl
    obtain ⟨s'', os'', hrun, -⟩ := run_later sound_new {} trivial hinside
    obtain ⟨s, os, os', hbefore, -, -⟩ := run_append_inv hrun
    obtain ⟨hbefore', hafter⟩ := along_append hinside hbefore
    obtain ⟨s₁, os₁, hrun₁, hs, -, g, hg⟩ := run_later sound_new {} trivial hbefore'
    rw [hbefore] at hrun₁
    obtain ⟨rfl, rfl⟩ := Prod.mk.inj (Option.some.inj hrun₁)
    obtain ⟨s', os', hrun', -, hlater, -⟩ := run_later hs g hg hafter
    exact ⟨s, os, s', os', hbefore, hrun', hlater⟩

/-- A packet is queued, endpoint 1 is closed during the next `Tick`, and the packet is delivered
before the channel is closed. -/
def closeDuringTick : List Event :=
  [.push [7] 0, .proceed false, .tick, .close 1, .proceed false, .proceed true, .proceed false,
    .drop 0 0 3, .push [8] 0, .tick, .proceed false, .proceed true, .proceed false]

/-- `Close` between two sections of a `Tick`. -/
theorem close_during_tick_orderly :
    Along (observe (step fun _ _ => 0) watch) (Orderly fun _ _ => 0) ({}, {}) closeDuringTick ∧
    ∀ before after, closeDuringTick = before ++ after →
      ∃ s os s' os', run (step fun _ _ => 0) {} before = some (s, os) ∧
        run (step fun _ _ => 0) s after = some (s', os') ∧ Later s s' :=
  closing_delivers_queued _ (by decide)

/-- A `Push` that has passed its check puts its packet into the queue after its endpoint was
closed. -/
theorem push_enters_after_close :
    ∃ s os s' o, run (step fun _ _ => 0) {} [.push [7] 0, .close 0] = some (s, os) ∧
      os = [.going, .returned (.closed none)] ∧ s.bridge.conn0.closeReq = true ∧
      s.bridge.lane0.queue.items = [] ∧
      s.step (fun _ _ => 0) (.proceed false) = some (s', o) ∧
      s'.bridge.lane0.queue.items = [⟨1, [7]⟩] :=
  ⟨_, _, _, _, rfl, rfl, rfl, rfl, rfl, rfl⟩

end Shared

end PionTransport.Bridges
