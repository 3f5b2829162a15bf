import PionTransport.Netctx.Conn
import PionTransport.Netctx.PacketConn

/-!
# A cancelled context does not poison later I/O

Both wrappers in one statement: whatever calls are made on an open connection
whose deadlines can be set, and however cancellations, helpers and the ends of
the wrapped calls interleave, no call leaves behind a helper or the very old
deadline, and what a call returns depends only on how its wrapped call ended.
-/

namespace PionTransport.Netctx

open PionTransport.Core

/-- Every run of either wrapper leaves the deadlines restored. -/
theorem deadlines_restored {ε : Type} (initial : Direction → Time) :
    (∀ es : List (Event (Conn.CallEvent ε)), (∀ e ∈ es, e.ok Conn.CallEvent.ok = true) →
      ∃ w os, run (Wrapper.step true Conn.step) (newWrapper initial) es = some (w, os) ∧
        Conn.Restored initial w) ∧
    ∀ (nonBlock : Bool) (es : List (Event (PacketConn.CallEvent ε))),
      (∀ e ∈ es, e.ok PacketConn.CallEvent.ok = true) →
      ∃ w os, run (Wrapper.step false (PacketConn.step nonBlock)) (newWrapper initial) es =
          some (w, os) ∧
        PacketConn.Restored nonBlock initial w := by
  refine ⟨fun es hok => ?_, fun nonBlock es hok => ?_⟩
  · have h₀ : (newWrapper initial).Open fun dir _ (s : Side (Conn.Call ε)) =>
        Conn.Guarded (initial dir) s := ⟨rfl, fun dir => Conn.Guarded.new (initial dir)⟩
    obtain ⟨w, os, hrun, hopen⟩ := (Conn.keeps_guarded initial).run h₀ hok
    exact ⟨w, os, hrun, Conn.restored hopen⟩
  · have h₀ : (newWrapper initial).Open fun dir cs (s : Side (PacketConn.Call ε)) =>
        PacketConn.Guarded (initial dir) cs s :=
      ⟨rfl, fun dir => PacketConn.Guarded.new (initial dir) []⟩
    obtain ⟨w, os, hrun, hopen⟩ := (PacketConn.keeps_guarded nonBlock initial).run h₀ hok
    exact ⟨w, os, hrun, PacketConn.restored hopen⟩

/-- A cancelled context interrupts a `ReadContext`. -/
def interrupted : List (Event (Conn.CallEvent Unit)) :=
  [.newContext, .side .read (.call 0), .side .read (.lock 0), .cancel 0 .canceled,
    .side .read (.cancelled 0), .side .read (.setOld 0 none), .side .read (.io 0 0 (some ())),
    .side .read (.closeDone 0), .side .read (.setZero 0 none), .side .read (.join 0)]

/-- A `ReadFromContext` has read two bytes when its function has already started. -/
def overtaken : List (Event (PacketConn.CallEvent Unit)) :=
  [.newContext, .side .read (.call 0), .side .read (.lock 0), .side .read (.register 0),
    .cancel 0 .canceled, .side .read (.start 0), .side .read (.io 0 2 none),
    .side .read (.detach 0), .side .read (.setOld 0 none), .side .read (.wait 0),
    .side .read (.restore 0 none), .side .read (.finish 0)]

/-- The two runs return the error of the context, and the two bytes. -/
theorem deadlines_restored_race :
    (∃ w os, run (Wrapper.step true Conn.step) (newWrapper fun _ => some 7) interrupted =
        some (w, os) ∧ os.getLast? = some (.returned 0 0 (some (.ctx .canceled))) ∧
      Conn.Restored (fun _ => some 7) w) ∧
    ∃ w os, run (Wrapper.step false (PacketConn.step false)) (newWrapper fun _ => some 7)
        overtaken = some (w, os) ∧ os.getLast? = some (.returned 0 2 none) ∧
      PacketConn.Restored false (fun _ => some 7) w := by
  have h := deadlines_restored (ε := Unit) fun _ => some 7
  refine ⟨?_, ?_⟩
  · obtain ⟨w, os, hrun, hr⟩ := h.1 interrupted (by decide)
    exact ⟨w, os, hrun, holds_of_run hrun
      (fun _ os => os.getLast? = some (.returned 0 0 (some (.ctx .canceled)))) (by decide +kernel),
      hr⟩
  · obtain ⟨w, os, hrun, hr⟩ := h.2 false overtaken (by decide)
    exact ⟨w, os, hrun,
      holds_of_run hrun (fun _ os => os.getLast? = some (.returned 0 2 none)) (by decide +kernel),
      hr⟩

end PionTransport.Netctx
